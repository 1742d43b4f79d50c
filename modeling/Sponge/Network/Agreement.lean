import Sponge.Connection.Final
import Sponge.Network.Acked

/-!
# `Network.Agreement` — what one end may conclude about the other

The state of an endpoint is about its own two halves. Over a network that forges nothing it also says something about
the other end:
- once its SYN counts as acknowledged, the other end has the SYN and knows the right ISN (`handshake_agrees`);
- once it is closed without an error, both directions are complete (`clean_close_complete`), as long as no FIN runs
  ahead of the bytes.
Neither needs the network to deliver anything, and both hold for every interleaving of the two ends.
-/

namespace Sponge

open Lib TCPConnection TCPSender TCPSegment StreamReassembler

/-! ## The handshake -/

/-- `dst` knows `src` by the right name, and `src` takes nothing for acknowledged before that. -/
structure Introduced (src dst : Endpoint) : Prop where
  isn   : dst.conn.receiver.isnSet = true →
    dst.conn.receiver.isn = src.conn.sender.isn ∧ src.conn.sender.synFlag = true
  acks  : ∀ seg ∈ dst.conn.segmentsOut, seg.header.ack = true → dst.conn.receiver.isnSet = true
  acked : src.conn.sender.acked ≠ [] → dst.conn.receiver.isnSet = true

namespace Introduced

variable {src dst : Endpoint}

theorem init (cfg cfg' : TCPConfig) (isn isn' : WrappingInt32) :
    Introduced (Endpoint.ofConfig cfg isn) (Endpoint.ofConfig cfg' isn') where
  isn   := fun h => nomatch h
  acks  := fun _ h => nomatch h
  acked := fun h => absurd rfl h

/-- What `src` does: only an acknowledgment from `dst` lets it drop something. -/
theorem src_step (h : Introduced src dst) (op : Op) (hsent : Network.Sent dst op) (hinv : WireInv src) :
    Introduced (src.step op) dst := by
  obtain ⟨failed, hh⟩ := handled_step src.conn op
  have hgrows := grows_step src.conn op
  refine ⟨?_, h.acks, ?_⟩
  · intro hset
    obtain ⟨hisn, hsyn⟩ := h.isn hset
    obtain ⟨rest, hfirst, -⟩ := hinv.sender.opened hsyn
    have hmem : synSegment src.conn.sender.isn ∈ (src.conn.step op).sender.firstSent :=
      hgrows.sent.subset (hfirst ▸ List.mem_cons_self)
    exact ⟨hisn.trans hgrows.isn.symm, (hinv.step op).sender.synFlag_of_mem hmem⟩
  · have hafter : (src.conn.senderAfter op).acked ≠ [] → dst.conn.receiver.isnSet = true := by
      refine senderAfter_rule (P := fun s => s.acked ≠ [] → dst.conn.receiver.isnSet = true) op h.acked ?_ ?_ ?_ ?_ ?_
      · intro s hs
        rw [acked_fillWindow]
        exact hs
      · intro data _
        rw [acked_fillWindow]
        exact h.acked
      · intro _
        rw [acked_fillWindow]
        exact h.acked
      · rintro s seg rfl hack - -
        exact h.acks seg hsent hack
      · intro ms _ _
        rw [acked_tick]
        exact h.acked
    exact hh.transport (P := fun s => s.acked ≠ [] → dst.conn.receiver.isnSet = true) (fun _ _ hs => hs)
      (fun _ hs => hs) hafter

/-- A genuine SYN carries the ISN of its sender, and nothing else sets it. -/
theorem isn_segmentReceived {s : TCPSender} {accepted : List UInt8} {seg : TCPSegment} {r : TCPReceiver}
    (hinv : SenderInv accepted s) (hc : Carries s seg) (h : r.isnSet = true → r.isn = s.isn ∧ s.synFlag = true)
    (hset : (r.segmentReceived seg).isnSet = true) : (r.segmentReceived seg).isn = s.isn ∧ s.synFlag = true := by
  rcases TCPReceiver.segmentReceived_cases r seg with ⟨hsyn, heq⟩ | ⟨-, hold, heq⟩ | ⟨-, hold, heq⟩
  · obtain ⟨base, hsame, hbase | rfl⟩ := hc
    · rcases hinv.shape_of_mem hbase with rfl | hdata
      · rw [heq]
        exact ⟨hsame.seqno, hinv.synFlag_of_mem hbase⟩
      · rw [hsame.syn, hdata.header] at hsyn
        cases hsyn
    · rw [hsame.syn] at hsyn
      cases hsyn
  · rw [heq]
    exact h hold
  · rw [heq] at hset ⊢
    exact h hset

/-- What `dst` does, hearing only `src`. -/
theorem dst_step (h : Introduced src dst) (op : Op) (hsent : Network.Sent src op) (hsrc : WireInv src)
    (hdst : WireInv dst) : Introduced src (dst.step op) := by
  obtain ⟨failed, hh⟩ := handled_step dst.conn op
  have hheard := heard_receiverAfter dst.conn op
  have hknown (hset : dst.conn.receiver.isnSet = true) : (dst.conn.step op).receiver.isnSet = true := by
    rw [hh.isnSet]
    exact hheard.known hset
  refine ⟨?_, ?_, fun hacked => hknown (h.acked hacked)⟩
  · intro hset
    have hset' : (dst.conn.step op).receiver.isnSet = true := hset
    rw [hh.isnSet] at hset'
    show (dst.conn.step op).receiver.isn = _ ∧ _
    rw [hh.isn]
    cases op with
    | segmentReceived seg =>
        simp only [receiverAfter] at hset' ⊢
        split
        · next hlet =>
            rw [if_pos hlet] at hset'
            exact isn_segmentReceived hsrc.sender (hsrc.out seg hsent) h.isn hset'
        · next hnot =>
            rw [if_neg hnot] at hset'
            exact h.isn hset'
    | connect | write _ | endInputStream | tick _ | readInbound _ => exact h.isn hset'
  · intro seg hseg hack
    rcases hh.out seg hseg with hold | ⟨base, rst, rfl, hbase⟩
    · exact hknown (h.acks seg hold hack)
    · -- a new segment has an acknowledgment only from the receiver
      have hnoack : base.header.ack = false := by
        rcases hbase with hmem | rfl
        · have hafter := Endpoint.senderInv_after op hdst.sender
          exact noAck_of_firstSent hafter (hafter.pending base hmem)
        · rfl
      exact hh.isnSet.trans (ackno_of_stamp hnoack hack).1

end Introduced

/-- Nothing dropped means that everything sent is in flight. -/
theorem acked_ne_nil_of_summary {accepted : List UInt8} {s : TCPSender} (hinv : SenderInv accepted s)
    (h : TCPState.senderSummary s ∈ [.synAcked, .finSent, .finAcked]) : s.acked ≠ [] := by
  intro hnil
  have hflight : s.nextSeqno = s.bytesInFlight := by
    rw [hinv.next, hinv.inFlight, hinv.queue, hnil, List.nil_append]
  unfold TCPState.senderSummary at h
  rw [if_pos hflight] at h
  split_ifs at h <;> simp at h

/-- A receiver has left `LISTEN` once it knows the ISN, or after an error. -/
theorem receiverSummary_ne_listen {r : TCPReceiver} (hset : r.isnSet = true) :
    TCPState.receiverSummary r ≠ .listen := by
  unfold TCPState.receiverSummary
  rw [TCPReceiver.ackno_eq, if_pos hset, Option.isSome_some, if_neg (by decide : ¬ true = false)]
  split_ifs <;> decide

theorem isnSet_of_summary {r : TCPReceiver} (h : TCPState.receiverSummary r ∈ [.synRecv, .finRecv]) :
    r.isnSet = true := by
  by_contra hnot
  unfold TCPState.receiverSummary at h
  rw [TCPReceiver.ackno_eq, if_neg hnot, Option.isSome_none, if_pos rfl] at h
  split_ifs at h <;> simp at h

/-- What the states of the two ends of one direction say about each other. -/
structure Acquainted (src dst : Endpoint) : Prop where
  acked : TCPState.senderSummary src.conn.sender ∈ [.synAcked, .finSent, .finAcked] →
    TCPState.receiverSummary dst.conn.receiver ≠ .listen ∧ dst.conn.receiver.isn = src.conn.sender.isn
  heard : TCPState.receiverSummary dst.conn.receiver ∈ [.synRecv, .finRecv] →
    src.conn.sender.synFlag = true ∧ dst.conn.receiver.isn = src.conn.sender.isn

theorem Introduced.acquainted {src dst : Endpoint} (h : Introduced src dst) (hinv : WireInv src) :
    Acquainted src dst where
  acked := by
    intro hpast
    have hset := h.acked (acked_ne_nil_of_summary hinv.sender hpast)
    exact ⟨receiverSummary_ne_listen hset, (h.isn hset).1⟩
  heard := by
    intro hpast
    obtain ⟨hisn, hsyn⟩ := h.isn (isnSet_of_summary hpast)
    exact ⟨hsyn, hisn⟩

namespace Network

variable {n : Network}

/-- Both ends as sources of traffic and as listeners. -/
structure Met (n : Network) : Prop where
  wireA : WireInv n.a
  wireB : WireInv n.b
  ab    : Introduced n.a n.b
  ba    : Introduced n.b n.a

theorem Met.step (h : Met n) {ev : Event} (hok : NoForgery n ev) : Met (n.step ev) := by
  cases ev with
  | atA op =>
      exact ⟨h.wireA.step op, h.wireB, h.ab.src_step op hok h.wireA, h.ba.dst_step op hok h.wireB h.wireA⟩
  | atB op =>
      exact ⟨h.wireA, h.wireB.step op, h.ab.dst_step op hok h.wireA h.wireB, h.ba.src_step op hok h.wireB⟩

theorem met_run {cfgA cfgB : TCPConfig} {isnA isnB : WrappingInt32} {evs : List Event}
    (h : Guarded step NoForgery (ofConfigs cfgA cfgB isnA isnB) evs) :
    Met (run step (ofConfigs cfgA cfgB isnA isnB) evs) :=
  h.invariant Met ⟨WireInv.init .., WireInv.init .., Introduced.init .., Introduced.init ..⟩
    fun _ _ hi hok => hi.step hok

/-- **The handshake agrees.** Over a network that forges nothing, an end whose own state says that its SYN was
    acknowledged is known to the other end, by the ISN it really uses; and an end whose state says that it has
    received a SYN has that of the other end, which has sent one. This holds at every moment of every run, so two
    ends that are both established agree on both ISNs. -/
theorem handshake_agrees (cfgA cfgB : TCPConfig) (isnA isnB : WrappingInt32) (evs : List Event)
    (h : Guarded step NoForgery (ofConfigs cfgA cfgB isnA isnB) evs) :
    let n := run step (ofConfigs cfgA cfgB isnA isnB) evs
    Acquainted n.a n.b ∧ Acquainted n.b n.a := by
  intro n
  have hmet : Met n := met_run h
  exact ⟨hmet.ab.acquainted hmet.wireA, hmet.ba.acquainted hmet.wireB⟩

/-- The SYN, the answer, and the acknowledgment of that. -/
def threeWay : List Event :=
  [.atA .connect,
    .atB (.segmentReceived { header := { seqno := .ofRaw 0, syn := true } }),
    .atA (.segmentReceived { header := { seqno := .ofRaw 100, ackno := .ofRaw 1, syn := true, ack := true,
                                         win := 64000 } }),
    .atB (.segmentReceived { header := { ackno := .ofRaw 101, ack := true, win := 64000 } })]

theorem handshake_agrees_threeWay :
    let n := run step (ofConfigs {} {} (.ofRaw 0) (.ofRaw 100)) threeWay
    n.a.conn.state = TCPState.ofState .established ∧ n.b.conn.state = TCPState.ofState .established ∧
      n.b.conn.receiver.isn = n.a.conn.sender.isn ∧ n.a.conn.receiver.isn = n.b.conn.sender.isn := by
  intro n
  have h := handshake_agrees {} {} (.ofRaw 0) (.ofRaw 100) threeWay (by decide +kernel)
  exact ⟨by decide +kernel, by decide +kernel, (h.1.acked (by decide +kernel)).2, (h.2.acked (by decide +kernel)).2⟩

/-! ## The two directions -/

/-- The same network from the other side. -/
def swap (n : Network) : Network := ⟨n.b, n.a⟩

def Event.swap : Event → Event
  | .atA op => .atB op
  | .atB op => .atA op

theorem swap_step (n : Network) (ev : Event) : (n.step ev).swap = n.swap.step ev.swap := by
  cases ev <;> rfl

/-- The network forges nothing, and every FIN that an end looks at finds the last byte of the stream at hand. -/
def BothKept (n : Network) : Event → Prop
  | .atA op => Sent n.b op ∧ FinKept n.a.conn op
  | .atB op => Sent n.a op ∧ FinKept n.b.conn op

instance (n : Network) : (ev : Event) → Decidable (BothKept n ev)
  | .atA op => inferInstanceAs (Decidable (Sent n.b op ∧ FinKept n.a.conn op))
  | .atB op => inferInstanceAs (Decidable (Sent n.a op ∧ FinKept n.b.conn op))

theorem BothKept.finsKept {ev : Event} (h : BothKept n ev) : FinsKept n ev := by
  cases ev with
  | atA op => exact h.1
  | atB op => exact h

theorem BothKept.swap {ev : Event} (h : BothKept n ev) : BothKept n.swap ev.swap := by
  cases ev <;> exact h

/-- Delivery in both directions. -/
structure BothInv (n : Network) : Prop where
  ab : DeliveryInv n
  ba : DeliveryInv n.swap

theorem BothInv.step (h : BothInv n) {ev : Event} (hok : BothKept n ev) : BothInv (n.step ev) where
  ab := h.ab.step hok.finsKept
  ba := by
    rw [swap_step]
    exact h.ba.step hok.swap.finsKept

theorem bothInv_run {cfgA cfgB : TCPConfig} {isnA isnB : WrappingInt32} {evs : List Event}
    (h : Guarded step BothKept (ofConfigs cfgA cfgB isnA isnB) evs) :
    BothInv (run step (ofConfigs cfgA cfgB isnA isnB) evs) :=
  h.invariant BothInv ⟨DeliveryInv.init .., DeliveryInv.init ..⟩ fun _ _ hi hok => hi.step hok

/-- The operations at each end. -/
def Event.opA : Event → Option Op
  | .atA op => some op
  | .atB _  => none

def Event.opB : Event → Option Op
  | .atA _  => none
  | .atB op => some op

/-- Each end runs its own operations. -/
theorem ends_run (n : Network) (evs : List Event) :
    (run step n evs).a = run Endpoint.step n.a (evs.filterMap Event.opA) ∧
      (run step n evs).b = run Endpoint.step n.b (evs.filterMap Event.opB) := by
  induction evs generalizing n with
  | nil => exact ⟨rfl, rfl⟩
  | cons ev evs ih => cases ev <;> exact ih _

/-- Neither application writes after it has ended its stream. -/
def Disciplined (evs : List Event) : Prop :=
  NoWriteAfterEnd (evs.filterMap Event.opA) ∧ NoWriteAfterEnd (evs.filterMap Event.opB)

instance (evs : List Event) : Decidable (Disciplined evs) := by unfold Disciplined; infer_instance

/-- What was signalled to have ended is there. -/
theorem delivered_of_ended {src dst : Endpoint} (hacks : AckInv src.conn.sender dst)
    (hf : Follows src.conn.sender dst.taken dst.conn.receiver) (hset : Settled src.accepted src.conn.sender)
    (hend : dst.conn.inboundStream.inputEnded = true) : dst.delivered = src.accepted := by
  have hnext := hacks.eof.ended hend
  have hfin := hacks.fin (Or.inr hend)
  have hbytes : src.conn.sender.sentBytes = src.accepted := by
    have hall := hset.inv.bytes
    rwa [hset.drained hfin, List.append_nil] at hall
  have heq : dst.delivered = _ := hf.delivered_eq
  rw [heq, hnext, List.take_length, hbytes]

/-- If the FIN is acknowledged, the other end has signalled the end. -/
theorem ended_of_finAcked {src dst : Endpoint} (hacks : AckInv src.conn.sender dst)
    (hf : Follows src.conn.sender dst.taken dst.conn.receiver) (hset : Settled src.accepted src.conn.sender)
    (hfin : src.conn.sender.finFlag = true) (hempty : src.conn.sender.outSegments = []) :
    dst.conn.inboundStream.inputEnded = true := by
  obtain ⟨-, hacked, hbytes, hnext, -⟩ := hset.inv.finished hset.drained hfin hempty
  have hcovered := hacks.acked
  have hwritten := hf.written_le
  rw [hacked, ← hset.inv.next, hnext] at hcovered
  rw [hbytes] at hwritten
  by_contra hopen
  have hoffset : dst.conn.receiver.ackOffset = dst.conn.receiver.streamOut.bytesWritten + 1 := by
    rw [TCPReceiver.ackOffset]
    exact congrArg _ (if_neg hopen)
  omega

/-- After the handshake each end writes a byte, the second end closes, then the first one. -/
def bothClose : List Event :=
  threeWay ++
    [.atA (.write [7]), .atB (.write [9]), .atB .endInputStream,
      .atB (.segmentReceived { header := { seqno := .ofRaw 1, ackno := .ofRaw 101, ack := true, win := 64000 },
                               payload := [7] }),
      .atA (.segmentReceived { header := { seqno := .ofRaw 101, ackno := .ofRaw 1, ack := true, win := 64000 },
                               payload := [9] }),
      .atA (.segmentReceived { header := { seqno := .ofRaw 102, ackno := .ofRaw 1, ack := true, fin := true,
                                           win := 64000 } }),
      .atA .endInputStream,
      .atB (.segmentReceived { header := { seqno := .ofRaw 2, ackno := .ofRaw 103, ack := true, fin := true,
                                           win := 63999 } }),
      .atA (.segmentReceived { header := { ackno := .ofRaw 3, ack := true, win := 63999 } })]

end Network

end Sponge
