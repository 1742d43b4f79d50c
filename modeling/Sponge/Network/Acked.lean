import Sponge.Network.Prefix
import Sponge.Reassembler.Eof
import Sponge.Sender.Closing

/-!
# `Network.Acked` — when acknowledged means delivered

The acknowledgment numbers an endpoint sends never run ahead of what it has written, except for the one that
counts a FIN. So what the peer drops as acknowledged has been delivered, as long as the end of the stream is
not signalled early. That happens when a FIN overtakes data or is cut off (`Reassembler.Eof`), and then bytes
are lost: `acked_byte_lost` is such a run. `acked_delivered` is the statement for the runs in which every FIN
that is looked at finds the last byte of the stream at hand (`FinKept`).
-/

namespace Sponge

open Lib TCPSegment TCPSender TCPConnection StreamReassembler

/-! ## The receiving end -/

/-- A FIN that the receiver looks at finds the last byte of the stream at hand. -/
def FinKept (c : TCPConnection) : Op → Prop
  | .segmentReceived seg =>
      seg.header.fin = true → c.admits seg = true → seg.header.rst = false → c.receiver.isnSet = true →
        c.receiver.reassembler.EndKept (c.receiver.streamIndex c.receiver.isn seg.header.seqno)
          seg.payload.length
  | _ => True

instance (c : TCPConnection) : (op : Op) → Decidable (FinKept c op)
  | .segmentReceived seg =>
      inferInstanceAs (Decidable (seg.header.fin = true → c.admits seg = true → seg.header.rst = false →
        c.receiver.isnSet = true → c.receiver.reassembler.EndKept
          (c.receiver.streamIndex c.receiver.isn seg.header.seqno) seg.payload.length))
  | .connect | .write _ | .endInputStream | .tick _ | .readInbound _ => inferInstanceAs (Decidable True)

/-- A segment without an acknowledgment gets that of the receiver. -/
theorem ackno_of_stamp {r : TCPReceiver} {rst : Bool} {base : TCPSegment} (hbase : base.header.ack = false)
    (h : (stamp r rst base).header.ack = true) :
    r.isnSet = true ∧ (stamp r rst base).header.ackno = wrap r.ackOffset r.isn := by
  have hack := TCPReceiver.ackno_eq r
  by_cases hset : r.isnSet = true
  · rw [if_pos hset] at hack
    refine ⟨hset, ?_⟩
    unfold stamp
    rw [hack]
    cases rst <;> rfl
  · rw [if_neg hset] at hack
    unfold stamp at h
    rw [hack] at h
    cases rst <;> exact absurd (hbase.symm.trans h) Bool.false_ne_true

/-- No segment of the sender's own carries an acknowledgment. -/
theorem noAck_of_firstSent {accepted : List UInt8} {s : TCPSender} {seg : TCPSegment}
    (h : SenderInv accepted s) (hseg : seg ∈ s.firstSent) : seg.header.ack = false := by
  rcases h.shape_of_mem hseg with rfl | hdata
  · rfl
  · rw [hdata.header]

/-- The sender `s` and the endpoint `e` that hears it agree on what is acknowledged: the end of the stream is
    not signalled early, no acknowledgment ever sent is beyond what `e` has, and no more was dropped. -/
structure AckInv (s : TCPSender) (e : Endpoint) : Prop where
  eof   : EofInv (2 ^ 32) s.sentBytes e.conn.receiver.reassembler
  fin   : e.conn.receiver.reassembler.eofFlag = true ∨ e.conn.receiver.streamOut.isEof = true →
    s.finFlag = true
  acks  : ∀ seg ∈ e.conn.segmentsOut, seg.header.ack = true →
    ∃ m ≤ e.conn.receiver.ackOffset, seg.header.ackno = wrap m s.isn
  acked : extent lengthInSequenceSpace s.acked ≤ e.conn.receiver.ackOffset

theorem AckInv.init (cfg cfg' : TCPConfig) (isn isn' : WrappingInt32) :
    AckInv (Endpoint.ofConfig cfg isn).conn.sender (Endpoint.ofConfig cfg' isn') where
  eof   := ⟨Rep.init _ _ _, (by cases ·), (by cases ·)⟩
  fin   := fun h => by rcases h with h | h <;> cases h
  acks  := fun _ h => by cases h
  acked := Nat.zero_le _

/-- The receiver after an operation, before an error flag is set. -/
theorem eofInv_receiverAfter {s : TCPSender} {e : Endpoint} {accepted : List UInt8} (h : AckInv s e)
    (hf : Follows s e.taken e.conn.receiver) (hinv : SenderInv accepted s) (hnext : s.nextSeqno ≤ 2 ^ 32)
    (op : Op) (hsent : ∀ seg, op = .segmentReceived seg → Carries s seg) (hkept : FinKept e.conn op) :
    EofInv (2 ^ 32) s.sentBytes (e.conn.receiverAfter op).reassembler := by
  cases op with
  | segmentReceived seg =>
      simp only [receiverAfter]
      split
      · next hcond =>
          rw [Bool.and_eq_true, Bool.not_eq_true'] at hcond
          rcases arrival hinv hnext hf (hsent seg rfl) with heq | ⟨index, heq, ha⟩
          · rw [heq]; exact h.eof
          · rw [heq]
            refine h.eof.pushSubstring (sentBytes_lt_of_next hinv hnext) ha.lt ha.excerpt fun hfin => ?_
            obtain ⟨-, hset, hindex, hend, -⟩ := ha.fin hfin
            exact ⟨hend, hindex ▸ hkept hfin hcond.1 hcond.2 hset⟩
      · exact h.eof
  | readInbound len => exact ⟨h.eof.rep.readOut len, h.eof.flag, h.eof.ended⟩
  | connect | write _ | endInputStream | tick _ => exact h.eof

/-- **What the receiving end does keeps the agreement**, if it hears only genuine segments and every FIN
    finds the last byte at hand. -/
theorem AckInv.dst_step {s : TCPSender} {e : Endpoint} {accepted : List UInt8} (h : AckInv s e)
    (hf : Follows s e.taken e.conn.receiver) (hinv : SenderInv accepted s) (hnext : s.nextSeqno ≤ 2 ^ 32)
    (hwire : WireInv e) (op : Op) (hsent : ∀ seg, op = .segmentReceived seg → Carries s seg)
    (hkept : FinKept e.conn op) : AckInv s (e.step op) := by
  have heof := eofInv_receiverAfter h hf hinv hnext op hsent hkept
  have hheard := heard_receiverAfter e.conn op
  have hfollows := hf.step hinv hnext op hsent
  obtain ⟨failed, hh⟩ := handled_step e.conn op
  have hoffset : (e.step op).conn.receiver.ackOffset = _ := hh.ackOffset
  constructor
  case eof =>
    rcases hh.receiver_cases with heq | heq
    · exact heq ▸ heof
    · exact heq ▸ ⟨heof.rep.setError, heof.flag, heof.ended⟩
  case fin =>
    intro hend
    rcases hheard.ended (hh.ended hend) with hold | ⟨⟨seg, hop, hfin⟩, -⟩
    · exact h.fin hold
    · -- only a data segment carries a FIN, and only after the sender has sent it
      rcases (hsent seg hop).cases hinv with ⟨-, -, hno, -⟩ | ⟨-, hno, -⟩ | ⟨i, hi⟩
      · rw [hfin] at hno; cases hno
      · rw [hfin] at hno; cases hno
      · exact (hi.fin hfin).2
  case acks =>
    intro seg hseg hack
    rw [hoffset]
    rcases hh.out seg hseg with hold | ⟨base, rst, rfl, hbase⟩
    · obtain ⟨m, hm, heq⟩ := h.acks seg hold hack
      exact ⟨m, hm.trans hheard.ackOffset_le, heq⟩
    · -- a new segment carries the acknowledgment of the receiver as it is now
      have hnoack : base.header.ack = false := by
        rcases hbase with hmem | rfl
        · have hafter := Endpoint.senderInv_after op hwire.sender
          exact noAck_of_firstSent hafter (hafter.pending base hmem)
        · rfl
      obtain ⟨hset, heq⟩ := ackno_of_stamp hnoack hack
      have hisn : (e.step op).conn.receiver.isn = s.isn := hfollows.isn (hh.isnSet.trans hset)
      exact ⟨_, le_refl _, by rw [heq, ← hh.isn, ← hisn]; rfl⟩
  case acked =>
    rw [hoffset]
    exact h.acked.trans hheard.ackOffset_le

/-! ## The sending end -/

/-- What the sender has dropped is covered by the first `k` sequence numbers. -/
structure Covered (isn : WrappingInt32) (k : Nat) (s : TCPSender) : Prop where
  isn_eq : s.isn = isn
  inv    : ∃ accepted, SenderInv accepted s
  bound  : AckBound s
  acked  : extent lengthInSequenceSpace s.acked ≤ k

variable {isn : WrappingInt32} {k : Nat} {s : TCPSender}

theorem Covered.fillWindow (h : Covered isn k s) : Covered isn k s.fillWindow where
  isn_eq := (isn_fillWindow s).trans h.isn_eq
  inv    := h.inv.imp fun _ hinv => hinv.fillWindow
  bound  := h.bound.fillWindow
  acked  := by rw [acked_fillWindow]; exact h.acked

theorem Covered.ackReceived (h : Covered isn k s) {ackno : WrappingInt32} (w : UInt16)
    (hack : ackno.rawValue ≤ isn.rawValue + k) : Covered isn k (s.ackReceived ackno w) := by
  obtain ⟨accepted, hinv⟩ := h.inv
  refine ⟨(isn_ackReceived s ackno w).trans h.isn_eq, ⟨accepted, hinv.ackReceived ackno w⟩,
    h.bound.ackReceived hinv ackno w, ?_⟩
  rw [← h.isn_eq] at hack
  exact extent_acked_ackReceived h.bound hinv w h.acked hack

theorem Covered.tick (h : Covered isn k s) (ms : Nat) : Covered isn k (s.tick ms) where
  isn_eq := (isn_tick s ms).trans h.isn_eq
  inv    := h.inv.imp fun _ hinv => hinv.tick ms
  bound  := h.bound.tick ms
  acked  := by rw [acked_tick]; exact h.acked

/-- **What the sending end does keeps what it drops covered**, if no acknowledgment that arrives is beyond
    `k`. -/
theorem Covered.senderAfter {c : TCPConnection} (h : Covered isn k c.sender) (op : Op)
    (hack : ∀ seg, op = .segmentReceived seg → seg.header.ack = true →
      seg.header.ackno.rawValue ≤ isn.rawValue + k) : Covered isn k (c.senderAfter op) := by
  refine senderAfter_rule (P := Covered isn k) op h (fun _ hs => hs.fillWindow) ?_ ?_ ?_
    fun ms _ _ => h.tick ms
  · intro data _
    have hwrite : Covered isn k (c.sender.write data) :=
      ⟨h.isn_eq, h.inv.imp' _ fun _ hinv => hinv.write data, h.bound.congr rfl rfl rfl (le_refl _), h.acked⟩
    exact hwrite.fillWindow
  · intro _
    have hend : Covered isn k c.sender.endInput :=
      ⟨h.isn_eq, h.inv.imp fun _ hinv => hinv.endInput, h.bound.congr rfl rfl rfl (le_refl _), h.acked⟩
    exact hend.fillWindow
  · exact fun s seg hop hset hs => hs.ackReceived _ (hack seg hop hset)

theorem Covered.step {c : TCPConnection} (h : Covered isn k c.sender) (op : Op)
    (hack : ∀ seg, op = .segmentReceived seg → seg.header.ack = true →
      seg.header.ackno.rawValue ≤ isn.rawValue + k) : Covered isn k (c.step op).sender := by
  have hafter := h.senderAfter op hack
  obtain ⟨failed, hh⟩ := handled_step c op
  obtain ⟨hisn, hbound, hacked⟩ := hh.transport
    (P := fun s => s.isn = isn ∧ AckBound s ∧ extent lengthInSequenceSpace s.acked ≤ k)
    (fun _ _ hs => ⟨hs.1, hs.2.1.congr rfl rfl rfl (le_refl _), hs.2.2⟩)
    (fun _ hs => ⟨hs.1, hs.2.1.congr rfl rfl rfl (le_refl _), hs.2.2⟩)
    ⟨hafter.isn_eq, hafter.bound, hafter.acked⟩
  exact ⟨hisn, hafter.inv.imp fun _ hinv => hh.senderInv hinv, hbound, hacked⟩

/-- An end that was signalled stays right when the sender goes on: after its FIN it sends nothing new. -/
theorem EofInv.grows {s' : TCPSender} {r : StreamReassembler} (h : EofInv (2 ^ 32) s.sentBytes r)
    (hg : Grows s s') (hfin : r.eofFlag = true ∨ r.output.isEof = true → s.finFlag = true) :
    EofInv (2 ^ 32) s'.sentBytes r := by
  have hsame (hend : r.eofFlag = true ∨ r.output.isEof = true) : s'.sentBytes = s.sentBytes := by
    rw [sentBytes, sentBytes, hg.final (hfin hend)]
  refine ⟨h.rep.mono hg.sentBytes, fun hf => ?_, fun he => ?_⟩
  · rw [hsame (Or.inl hf)]; exact h.flag hf
  · rw [hsame (Or.inr he)]; exact h.ended he

/-- **What the sending end does keeps the agreement**, if it hears only genuine segments. -/
theorem AckInv.src_step {src dst : Endpoint} (h : AckInv src.conn.sender dst) (hwire : WireInv src)
    (hbound : AckBound src.conn.sender) (op : Op) (hsent : Network.Sent dst op) :
    AckInv (src.step op).conn.sender dst := by
  have hgrows := grows_step src.conn op
  have hcovered : Covered src.conn.sender.isn dst.conn.receiver.ackOffset src.conn.sender :=
    ⟨rfl, ⟨_, hwire.sender⟩, hbound, h.acked⟩
  refine ⟨EofInv.grows h.eof hgrows h.fin, fun hend => hgrows.finFlag (h.fin hend), ?_, ?_⟩
  · intro seg hseg hack
    obtain ⟨m, hm, heq⟩ := h.acks seg hseg hack
    exact ⟨m, hm, by rw [heq]; exact congrArg (wrap m) hgrows.isn.symm⟩
  · refine (hcovered.step op ?_).acked
    rintro seg rfl hack
    obtain ⟨m, hm, heq⟩ := h.acks seg hsent hack
    -- a wrapped number can only be smaller than the absolute one
    rw [heq, rawValue_wrap]
    have := Nat.mod_le (m + src.conn.sender.isn.rawValue) (2 ^ 32)
    omega

/-! ## Acknowledged means delivered -/

theorem length_payloads_le (segs : List TCPSegment) :
    (payloads segs).length ≤ extent lengthInSequenceSpace segs := by
  induction segs with
  | nil => exact Nat.zero_le _
  | cons seg segs ih =>
      rw [payloads_cons, List.length_append, extent_cons, lengthInSequenceSpace]
      omega

/-- What was dropped starts with the SYN, so it carries fewer bytes than sequence numbers. -/
theorem length_payloads_acked {accepted : List UInt8} (h : SenderInv accepted s) :
    s.acked = [] ∨ (payloads s.acked).length + 1 ≤ extent lengthInSequenceSpace s.acked := by
  cases hacked : s.acked with
  | nil => exact Or.inl rfl
  | cons seg rest =>
      right
      have hqueue := h.queue
      have hmem : seg ∈ s.firstSent := by rw [hqueue, hacked]; exact List.mem_cons_self
      obtain ⟨data, hdata, -⟩ := h.opened (h.synFlag_of_mem hmem)
      rw [hacked, hdata, List.cons_append] at hqueue
      obtain ⟨rfl, -⟩ := List.cons.inj hqueue
      have hrest := length_payloads_le rest
      have hone : (synSegment s.isn).lengthInSequenceSpace = 1 := rfl
      have hempty : (synSegment s.isn).payload = [] := rfl
      rw [payloads_cons, hempty, List.nil_append, extent_cons, hone]
      omega

theorem AckInv.payloads_acked_le {e : Endpoint} {accepted : List UInt8} (h : AckInv s e)
    (hf : Follows s e.taken e.conn.receiver) (hinv : SenderInv accepted s) :
    payloads s.acked <+: e.delivered := by
  have hpre : payloads s.acked <+: s.sentBytes := by
    rw [sentBytes, hinv.queue, payloads_append]
    exact List.prefix_append _ _
  have heq : e.delivered = _ := hf.delivered_eq
  rw [heq]
  refine List.prefix_take_iff.mpr ⟨hpre, ?_⟩
  rcases length_payloads_acked hinv with hnil | hlen
  · rw [hnil]; exact Nat.zero_le _
  · have hacked := h.acked
    have hwritten : e.conn.receiver.streamOut.bytesWritten = e.conn.receiver.reassembler.nextIndex :=
      hf.rep.next_eq.symm
    by_cases hend : e.conn.receiver.streamOut.inputEnded = true
    · -- the stream has ended, so all of it is there
      have hall := h.eof.ended hend
      rw [hall]
      exact hpre.length_le
    · -- one sequence number for the SYN, the rest for bytes that are there
      rw [TCPReceiver.ackOffset, if_neg hend, hwritten] at hacked
      omega

namespace Network

variable {n : Network}

/-- The network forges nothing, and every FIN that the second end looks at finds the last byte at hand. -/
def FinsKept (n : Network) : Event → Prop
  | .atA op => Sent n.b op
  | .atB op => Sent n.a op ∧ FinKept n.b.conn op

instance (n : Network) : (ev : Event) → Decidable (FinsKept n ev)
  | .atA op => inferInstanceAs (Decidable (Sent n.b op))
  | .atB op => inferInstanceAs (Decidable (Sent n.a op ∧ FinKept n.b.conn op))

theorem FinsKept.noForgery {ev : Event} (h : FinsKept n ev) : NoForgery n ev := by
  cases ev with
  | atA op => exact h
  | atB op => exact h.1

/-- The sequence numbers of the first end have not wrapped. -/
def NoWrapA (n : Network) : Prop := n.a.conn.sender.isn.rawValue + n.a.conn.sender.nextSeqno ≤ 2 ^ 32

instance (n : Network) : Decidable (NoWrapA n) := by unfold NoWrapA; infer_instance

structure DeliveryInv (n : Network) : Prop where
  inv   : Inv n
  bound : AckBound n.a.conn.sender
  acks  : NoWrapA n → AckInv n.a.conn.sender n.b

theorem DeliveryInv.init (cfgA cfgB : TCPConfig) (isnA isnB : WrappingInt32) :
    DeliveryInv (ofConfigs cfgA cfgB isnA isnB) :=
  ⟨⟨Channel.init .., Channel.init ..⟩, AckBound.init .., fun _ => AckInv.init ..⟩

theorem noWrapA_of_step (h : Inv n) {ev : Event} (hwrap : NoWrapA (n.step ev)) : NoWrapA n := by
  cases ev with
  | atA op =>
      have hgrows := grows_step n.a.conn op
      have hle := hgrows.nextSeqno_le h.ab.wire.sender (h.ab.wire.step op).sender
      have hisn : (n.step (.atA op)).a.conn.sender.isn = n.a.conn.sender.isn := hgrows.isn
      rw [NoWrapA, hisn] at hwrap
      exact (Nat.add_le_add_left hle _).trans hwrap
  | atB op => exact hwrap

theorem DeliveryInv.step (h : DeliveryInv n) {ev : Event} (hok : FinsKept n ev) :
    DeliveryInv (n.step ev) := by
  refine ⟨h.inv.step hok.noForgery, ?_, fun hwrap => ?_⟩
  · cases ev with
    | atA op =>
        -- the bound alone does not need the acknowledgments to be genuine
        have hcovered : Covered n.a.conn.sender.isn (2 ^ 32) n.a.conn.sender := by
          refine ⟨rfl, ⟨_, h.inv.ab.wire.sender⟩, h.bound, ?_⟩
          have := h.bound.low
          have := n.a.conn.sender.ackGot.isLt
          omega
        refine (hcovered.step op fun seg _ _ => ?_).bound
        have := seg.header.ackno.isLt
        omega
    | atB op => exact h.bound
  · have hold := noWrapA_of_step h.inv hwrap
    have hnext : n.a.conn.sender.nextSeqno ≤ 2 ^ 32 := (Nat.le_add_left _ _).trans hold
    have hacks := h.acks hold
    cases ev with
    | atA op => exact hacks.src_step h.inv.ab.wire h.bound op hok
    | atB op =>
        refine hacks.dst_step (h.inv.ab.follows hnext) h.inv.ab.wire.sender hnext h.inv.ba.wire op ?_ hok.2
        rintro seg rfl
        exact h.inv.ab.wire.out seg hok.1

theorem noWrapA_of_run {evs : List Event} (h : Inv n) (hok : Guarded step FinsKept n evs)
    (hwrap : NoWrapA (run step n evs)) : NoWrapA n := by
  induction evs generalizing n with
  | nil => exact hwrap
  | cons ev evs ih => exact noWrapA_of_step h (ih (h.step hok.1.noForgery) hok.2 hwrap)

/-- **Acknowledged means delivered**, in every run in which each FIN that the second end looks at finds the
    last byte of the stream at hand: the payload of what the first end has dropped as acknowledged is, at
    every moment, among the bytes written to the second end's inbound stream. The rest of what was accepted is
    still with the first end. -/
theorem acked_delivered (cfgA cfgB : TCPConfig) (isnA isnB : WrappingInt32) (evs : List Event)
    (h : Guarded step FinsKept (ofConfigs cfgA cfgB isnA isnB) evs)
    (hwrap : NoWrapA (run step (ofConfigs cfgA cfgB isnA isnB) evs)) :
    ∀ pre, pre <+: evs →
      let n := run step (ofConfigs cfgA cfgB isnA isnB) pre
      payloads n.a.conn.sender.acked <+: n.b.delivered ∧
      n.a.accepted = payloads n.a.conn.sender.acked ++ payloads n.a.conn.sender.outSegments ++
        n.a.conn.sender.stream.buf := by
  intro pre hpre n
  have hinv : DeliveryInv n := (h.of_isPrefix hpre).invariant DeliveryInv (DeliveryInv.init cfgA cfgB isnA isnB)
    fun _ _ hi hok => hi.step hok
  have hsender := hinv.inv.ab.wire.sender
  -- the sequence numbers only grow, so what has not wrapped at the end has not wrapped before
  have hnow : NoWrapA n := by
    obtain ⟨post, rfl⟩ := hpre
    rw [run_append] at hwrap
    exact noWrapA_of_run hinv.inv (Guarded.append.mp h).2 hwrap
  refine ⟨(hinv.acks hnow).payloads_acked_le (hinv.inv.ab.follows ?_) hsender, ?_⟩
  · exact (Nat.le_add_left _ _).trans hnow
  · rw [← payloads_append, ← hsender.queue]
    exact hsender.bytes.symm

/-- The handshake, two bytes in two segments, and the end of the stream. -/
def twoBytesSent : List Event :=
  [.atA .connect,
    .atB (.segmentReceived { header := { seqno := .ofRaw 0, syn := true } }),
    .atA (.segmentReceived { header := { seqno := .ofRaw 100, ackno := .ofRaw 1, syn := true, ack := true,
                                         win := 64000 } }),
    .atA (.write [97]), .atA (.write [98]), .atA .endInputStream]

/-- A segment of that stream, as the first end sends it. -/
def fromA (seqno : Nat) (payload : List UInt8) (fin : Bool) : TCPSegment :=
  { header := { seqno := .ofRaw seqno, ackno := .ofRaw 101, ack := true, fin, win := 64000 }, payload }

/-- An acknowledgment of the second end. -/
def fromB (ackno : Nat) (win : UInt16) : TCPSegment :=
  { header := { ackno := .ofRaw ackno, ack := true, win } }

/-- The FIN arrives after the bytes. -/
def finLast : List Event :=
  twoBytesSent ++
    [.atB (.segmentReceived (fromA 2 [98] false)), .atB (.segmentReceived (fromA 1 [97] false)),
      .atB (.segmentReceived (fromA 3 [] true)), .atA (.segmentReceived (fromB 4 63998))]

/-- The FIN arrives first, and only one of the bytes after it. -/
def finFirst : List Event :=
  twoBytesSent ++
    [.atB (.segmentReceived (fromA 3 [] true)), .atB (.segmentReceived (fromA 1 [97] false)),
      .atA (.segmentReceived (fromB 3 63999))]

theorem acked_delivered_finLast :
    payloads (run step (ofConfigs {} {} (.ofRaw 0) (.ofRaw 100)) finLast).a.conn.sender.acked = [97, 98] ∧
    payloads (run step (ofConfigs {} {} (.ofRaw 0) (.ofRaw 100)) finLast).a.conn.sender.acked <+:
      (run step (ofConfigs {} {} (.ofRaw 0) (.ofRaw 100)) finLast).b.delivered :=
  ⟨by decide +kernel,
    (acked_delivered {} {} (.ofRaw 0) (.ofRaw 100) finLast (by decide +kernel) (by decide +kernel) finLast
      (List.prefix_refl _)).1⟩

/-- The second end takes the first byte for the whole stream and acknowledges past the second, which the
    first end then forgets. -/
theorem acked_byte_lost :
    ¬ ∀ (cfgA cfgB : TCPConfig) (isnA isnB : WrappingInt32) (evs : List Event),
      Guarded step NoForgery (ofConfigs cfgA cfgB isnA isnB) evs →
      NoWrapA (run step (ofConfigs cfgA cfgB isnA isnB) evs) →
      payloads (run step (ofConfigs cfgA cfgB isnA isnB) evs).a.conn.sender.acked <+:
        (run step (ofConfigs cfgA cfgB isnA isnB) evs).b.delivered := by
  intro h
  have hlost := h {} {} (.ofRaw 0) (.ofRaw 100) finFirst (by decide +kernel) (by decide +kernel)
  have hacked : payloads (run step (ofConfigs {} {} (.ofRaw 0) (.ofRaw 100)) finFirst).a.conn.sender.acked =
      [97, 98] := by decide +kernel
  have hdelivered : (run step (ofConfigs {} {} (.ofRaw 0) (.ofRaw 100)) finFirst).b.delivered = [97] := by
    decide +kernel
  rw [hacked, hdelivered] at hlost
  exact absurd hlost.length_le (by decide)

end Network

end Sponge
