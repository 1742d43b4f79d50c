import Sponge.Connection.Window
import Sponge.Network.Plain

/-!
# `Network.Progress` — round trips deliver everything

Nothing above says that anything ever arrives, and over a network that may lose everything nothing can. But what is
lost is sent again, so the question is what a round trip achieves when it goes through: the clock of the first end
ticks, the second application reads what is there, a copy of the oldest outstanding segment arrives, and so does the
answer (`trip`). Before the second end has looked at a FIN, such a round trip always lets the first end drop that
segment (`trip_advances`), whatever else was lost, doubled or reordered before. So as long as something is
outstanding a further round trip is possible, there cannot be more of them than sequence numbers, and when nothing is
outstanding everything has been delivered (`round_trips_deliver`).
-/

namespace Sponge

open Lib TCPSegment TCPSender TCPConnection StreamReassembler

/-! ## A push in order -/

namespace StreamReassembler

variable {M : Nat} {S : List UInt8} {r : StreamReassembler} {data : List UInt8} {index : Nat}

/-- A push that leaves no hole and fits is written to its end. -/
theorem le_nextIndex_pushSubstring (h : Rep M S r) (eof : Bool) (hlt : index + data.length < 2 ^ 64)
    (hidx : index ≤ r.nextIndex) (hroom : data.length ≤ r.output.remainingCapacity) :
    index + data.length ≤ (r.pushSubstring data index eof).nextIndex := by
  have hp := pushSubstring_cases r eof hlt
  generalize r.pushSubstring data index eof = r' at hp ⊢
  cases hp with
  | discarded hno => omega
  | seen _ hend => exact le_of_eq hend
  | stored hgt _ => omega
  | written _ hend =>
      have hwrite := advance_fresh (r := r) (r.eofFits data index eof) hlt hidx hend
      obtain ⟨cs, hdrain, -⟩ := advance_drain (hwrite.singles (h.mark _).singles)
      obtain ⟨-, -, -, -, -, hnext, -⟩ := finish_frame (drain (writeLoop r.nextIndex 0
        ((data.drop (r.nextIndex - index)).take r.output.remainingCapacity) (r.mark (r.eofFits data index eof))))
      have hall := (hwrite.trans hdrain).nextIndex
      rw [mark_nextIndex, List.length_append, List.length_take, List.length_drop] at hall
      rw [hnext, hall]
      omega

/-- A push that ends the stream, starts at the next index and fits ends the output if nothing is waiting. -/
theorem isEof_pushSubstring (h : Rep M S r) (hlt : r.nextIndex + data.length < 2 ^ 64)
    (hcap : data.length ≤ r.capacity) (hempty : ∀ k, k ∉ r.myMap) :
    (r.pushSubstring data r.nextIndex true).output.isEof = true := by
  have hp := pushSubstring_cases r true hlt
  generalize r.pushSubstring data r.nextIndex true = r' at hp ⊢
  cases hp with
  | discarded hno => omega
  | seen hless _ => omega
  | stored hgt _ => omega
  | written hidx hend =>
      have hwrite := advance_fresh (r := r) (r.eofFits data r.nextIndex true) hlt hidx hend
      obtain ⟨cs, hdrain, -⟩ := advance_drain (hwrite.singles (h.mark _).singles)
      have hall := hwrite.trans hdrain
      generalize drain (writeLoop r.nextIndex 0 ((data.drop (r.nextIndex - r.nextIndex)).take
        r.output.remainingCapacity) (r.mark (r.eofFits data r.nextIndex true))) = r₁ at hall ⊢
      have hflag : r₁.eofFlag = true := by
        have hfits : r.eofFits data r.nextIndex true = true := decide_eq_true (by omega)
        rw [hall.eofFlag, mark_eofFlag, hfits, Bool.or_true]
      have hnone : r₁.bytesUnAssembled = 0 := by
        have hkeys : (∅ : Finset Nat).card = r₁.myMap.size := card_eq_size fun k => by
          simp only [Finset.notMem_empty, false_iff]
          exact fun hk => hempty k ((hall.mem_iff k).mp hk).1
        rw [hall.count (h.mark _).count, ← hkeys, Finset.card_empty]
      unfold finish
      rw [if_pos (by rw [hflag, empty, hnone]; rfl)]
      rfl

end StreamReassembler

/-! ## The two ends by themselves -/

/-- The first end, as a source of traffic that goes on. -/
structure Source (e : Endpoint) : Prop where
  wire    : WireInv e
  settled : Settled e.accepted e.conn.sender
  prompt  : Prompt e.conn.sender
  wired   : e.conn.Wired
  begun   : e.conn.Begun
  unreset : e.conn.active = true → e.conn.Unreset

theorem Source.init (cfg : TCPConfig) (isn : WrappingInt32) : Source (Endpoint.ofConfig cfg isn) where
  wire    := WireInv.init cfg isn
  settled := Settled.init ..
  prompt  := Prompt.init ..
  wired   := fun _ h => nomatch h
  begun   := ⟨(nomatch ·), (nomatch ·), (nomatch ·)⟩
  unreset := fun _ => ⟨rfl, fun _ h => nomatch h⟩

/-- Nothing is written after the end of the stream. -/
def InOrder (c : TCPConnection) (op : Op) : Prop := op.isWrite = true → c.sender.stream.isEof = false

instance (c : TCPConnection) (op : Op) : Decidable (InOrder c op) :=
  inferInstanceAs (Decidable (op.isWrite = true → c.sender.stream.isEof = false))

theorem Source.step {e : Endpoint} (h : Source e) {op : Op} (hop : InOrder e.conn op) : Source (e.step op) := by
  obtain ⟨failed, hh⟩ := handled_step e.conn op
  have hfin : op.isWrite = true → e.conn.sender.finFlag = false := by
    intro hwrite
    by_contra hset
    exact Bool.noConfusion ((h.settled.inv.ended (by simpa using hset)).symm.trans (hop hwrite))
  exact ⟨h.wire.step op, hh.settled (Endpoint.settled_after op h.settled hfin), h.prompt.step op, wired_step op h.wired,
    begun_step op h.begun, fun hact => (h.unreset (active_of_step op hact)).step
      (Endpoint.senderInv_after op h.wire.sender) hact⟩

/-- The second end, as a listener of that capacity. -/
structure Sink (capacity : Nat) (e : Endpoint) : Prop where
  wire       : WireInv e
  synInv     : e.conn.SynInv
  windowed   : e.conn.receiver.Windowed capacity
  unreset    : e.conn.active = true → e.conn.Unreset
  unfinished : e.conn.recFinSeqno = none → e.conn.Unfinished

theorem Sink.init (cfg : TCPConfig) (isn : WrappingInt32) : Sink cfg.recvCapacity (Endpoint.ofConfig cfg isn) where
  wire       := WireInv.init cfg isn
  synInv     := fun _ => rfl
  windowed   := TCPReceiver.Windowed.init _
  unreset    := fun _ => ⟨rfl, fun _ h => nomatch h⟩
  unfinished := fun _ => ⟨rfl, rfl, fun h => by rcases h with h | h <;> cases h⟩

theorem windowed_step {capacity : Nat} {c : TCPConnection} (op : Op) (h : c.receiver.Windowed capacity) :
    (c.step op).receiver.Windowed capacity := by
  obtain ⟨failed, hh⟩ := handled_step c op
  rcases hh.receiver_cases with heq | heq
  · exact heq ▸ windowed_receiverAfter op h
  · exact heq ▸ windowed_setError (windowed_receiverAfter op h)

theorem Sink.step {capacity : Nat} {e : Endpoint} (h : Sink capacity e) (op : Op) : Sink capacity (e.step op) where
  wire       := h.wire.step op
  synInv     := synInv_step op h.synInv
  windowed   := windowed_step op h.windowed
  unreset    := fun hact => (h.unreset (active_of_step op hact)).step (Endpoint.senderInv_after op h.wire.sender) hact
  unfinished := fun hnone =>
    have hold := (recFinSeqno_step e.conn op).mp hnone
    (h.unfinished hold.1).step hold.2

/-! ## The oldest outstanding segment -/

section Oldest

variable {s : TCPSender} {accepted : List UInt8} {seg : TCPSegment} {rest : List TCPSegment}

theorem mem_of_oldest (hinv : SenderInv accepted s) (hout : s.outSegments = seg :: rest) : seg ∈ s.firstSent := by
  rw [hinv.queue, hout]
  exact List.mem_append_right _ List.mem_cons_self

/-- It starts where what was dropped ends. -/
theorem seqno_of_oldest (hinv : SenderInv accepted s) (hout : s.outSegments = seg :: rest) :
    seg.header.seqno = wrap (extent lengthInSequenceSpace s.acked) s.isn := by
  have hlaid := hinv.laid_outSegments
  rw [hout] at hlaid
  exact hlaid.1

theorem end_of_oldest (hinv : SenderInv accepted s) (hout : s.outSegments = seg :: rest) :
    extent lengthInSequenceSpace s.acked + seg.lengthInSequenceSpace ≤ s.nextSeqno := by
  rw [hinv.next, hinv.queue, hout, extent_append, extent_cons]
  omega

/-- It is the SYN, or it lies where the bytes dropped end. -/
theorem oldest_cases (hinv : SenderInv accepted s) (hnext : s.nextSeqno < 2 ^ 32)
    (hout : s.outSegments = seg :: rest) :
    (seg = synSegment s.isn ∧ extent lengthInSequenceSpace s.acked = 0) ∨
      ∃ i, Located s seg i ∧ i + 1 = extent lengthInSequenceSpace s.acked := by
  have hseq := seqno_of_oldest hinv hout
  have hend := end_of_oldest hinv hout
  rcases hinv.locate (mem_of_oldest hinv hout) with rfl | ⟨i, hi⟩
  · refine Or.inl ⟨rfl, wrap_inj (hseq.symm.trans (wrap_zero s.isn).symm) (by omega) (by decide)⟩
  · have hused := hi.used
    exact Or.inr ⟨i, hi, wrap_inj (hi.seqno.symm.trans hseq) (by omega) (by omega)⟩

/-- A FIN that comes when all bytes before it are there ends the stream: nothing that is stored is in its way. -/
theorem Awaits.isEof_of_fin {e : Endpoint} {data : List UInt8} (haw : Awaits s e)
    (hall : s.plainBytes.length ≤ e.conn.receiver.reassembler.nextIndex)
    (hlt : s.plainBytes.length + data.length < 2 ^ 64) (hcap : data.length ≤ e.conn.receiver.reassembler.capacity) :
    (e.conn.receiver.reassembler.pushSubstring data s.plainBytes.length true).output.isEof = true := by
  have hrep := haw.plain (s.plainBytes.length + 1) (Nat.lt_succ_self _)
  have hhere : e.conn.receiver.reassembler.nextIndex = s.plainBytes.length := Nat.le_antisymm hrep.next_le hall
  have hnokey : ∀ k, k ∉ e.conn.receiver.reassembler.myMap := by
    intro k hk
    obtain ⟨v, hv⟩ := Option.isSome_iff_exists.mp (Std.ExtTreeMap.mem_iff_isSome_getElem?.mp hk)
    obtain ⟨hge, c, -, hbyte⟩ := (haw.plain (max s.plainBytes.length k + 1) (by omega)).stored k v hv
    have hbefore := (List.getElem?_eq_some_iff.mp (hbyte (by omega))).1
    omega
  rw [← hhere]
  exact isEof_pushSubstring hrep (hhere ▸ hlt) hcap hnokey

/-- **The oldest outstanding segment fills the front of the receiver**, if there is room for it. -/
theorem ackOffset_of_oldest {e : Endpoint} {copy : TCPSegment} {capacity : Nat} (hinv : SenderInv accepted s)
    (hnext : s.nextSeqno ≤ 2 ^ 31) (hf : Follows s e.taken e.conn.receiver) (haw : Awaits s e)
    (hunf : e.conn.Unfinished) (hknown : s.acked ≠ [] → e.conn.receiver.isnSet = true)
    (hcap : TCPConfig.maxPayloadSize ≤ capacity) (hwin : e.conn.receiver.Windowed capacity)
    (hbuf : e.conn.receiver.streamOut.buf = []) (hout : s.outSegments = seg :: rest) (hsame : SameData seg copy) :
    FinKept e.conn (.segmentReceived copy) ∧ (e.conn.receiver.isnSet = true ∨ copy.header.syn = true) ∧
      extent lengthInSequenceSpace s.acked + seg.lengthInSequenceSpace ≤
        (e.conn.receiver.segmentReceived copy).ackOffset := by
  have hmem := mem_of_oldest hinv hout
  rcases oldest_cases hinv (by omega) hout with ⟨rfl, hzero⟩ | ⟨i, hi, hpos⟩
  · -- a SYN needs no room
    refine ⟨fun hfin => ?_, Or.inr hsame.syn, ?_⟩
    · rw [hsame.fin] at hfin
      cases hfin
    · have hone : (synSegment s.isn).lengthInSequenceSpace = 1 := rfl
      rw [hzero, hone, TCPReceiver.ackOffset]
      omega
  · have hset : e.conn.receiver.isnSet = true := by
      apply hknown
      intro hnil
      rw [hnil, extent_nil] at hpos
      omega
    have hcopy := hi.congr hsame
    have hbytes : s.sentBytes.length < s.nextSeqno := by
      rw [hinv.nextSeqno_eq (hinv.synFlag_of_mem hmem)]
      omega
    have hindex := streamIndex_located hcopy hf.written_le hbytes hnext
    have hinside := hcopy.inside
    have hbound := hcopy.bound
    have hroom : e.conn.receiver.reassembler.output.remainingCapacity = capacity := by
      have hempty : e.conn.receiver.reassembler.output.buf = [] := hbuf
      rw [ByteStream.remainingCapacity, hempty, hf.rep.outCap, hwin.inner]
      rfl
    -- what was dropped is there, so the segment leaves no hole
    have hopen : ¬ e.conn.receiver.streamOut.inputEnded = true := fun hend => hunf.unended (Or.inr hend)
    have hacked := haw.ack.acked
    have hnextIndex : e.conn.receiver.streamOut.bytesWritten = e.conn.receiver.reassembler.nextIndex :=
      hf.rep.next_eq.symm
    rw [TCPReceiver.ackOffset, if_neg hopen, hnextIndex] at hacked
    have hpush : e.conn.receiver.segmentReceived copy = e.conn.receiver.pushed s.isn i copy := by
      rcases TCPReceiver.segmentReceived_cases e.conn.receiver copy with ⟨hsyn, -⟩ | ⟨-, -, heq⟩ | ⟨-, hno, -⟩
      · exact absurd (hcopy.syn.symm.trans hsyn) (by decide)
      · rw [heq, hf.isn hset, hindex]
      · exact absurd (hset.symm.trans hno) (by decide)
    have hfilled : i + copy.payload.length ≤ (e.conn.receiver.reassembler.pushSubstring copy.payload i
        copy.header.fin).nextIndex :=
      le_nextIndex_pushSubstring hf.rep _ (by omega) (by omega) (by omega)
    have hwritten : (e.conn.receiver.pushed s.isn i copy).streamOut.bytesWritten =
        (e.conn.receiver.reassembler.pushSubstring copy.payload i copy.header.fin).nextIndex := by
      have hrep := (haw.plain (s.plainBytes.length + 1) (Nat.lt_succ_self _)).counted.pushSubstring copy.payload i
        copy.header.fin
      exact hrep.next_eq.symm
    have hlen : seg.lengthInSequenceSpace = copy.payload.length + (if copy.header.fin then 1 else 0) := by
      simp [lengthInSequenceSpace, hi.syn, hsame.fin, hsame.payload]
    refine ⟨?_, Or.inl hset, ?_⟩
    · intro hfin _ _ _
      rw [hf.isn hset, hindex]
      by_cases hdata : copy.payload.length = 0
      · exact Or.inr (Or.inr (Or.inl (by omega)))
      · exact Or.inr (Or.inr (Or.inr (Or.inr ⟨by omega, by omega⟩)))
    · rw [hpush, TCPReceiver.ackOffset, hwritten, hlen]
      cases hfin : copy.header.fin with
      | false =>
          rw [hfin] at hfilled
          simp only [Bool.false_eq_true, if_false]
          omega
      | true =>
          -- the bytes that come with the FIN are not there before it
          have hplain := hi.after_plain hinv (by omega) hmem (hsame.fin ▸ hfin)
          have heof : (e.conn.receiver.pushed s.isn i copy).streamOut.inputEnded = true := by
            show (e.conn.receiver.reassembler.pushSubstring copy.payload i copy.header.fin).output.isEof = true
            rw [hfin, hplain]
            exact haw.isEof_of_fin (by omega) (by omega) (by rw [hwin.inner]; omega)
          rw [hfin] at hfilled
          rw [heof]
          simp only [if_true]
          omega

/-- **An acknowledgment past it lets the sender drop it**, and starts the count of retransmissions again. -/
theorem ackReceived_of_oldest {m : Nat} (hprompt : Prompt s) (hinv : SenderInv accepted s)
    (hlt : s.isn.rawValue + s.nextSeqno < 2 ^ 32) (hout : s.outSegments = seg :: rest) (hm : m ≤ s.nextSeqno)
    (hlow : extent lengthInSequenceSpace s.acked + seg.lengthInSequenceSpace ≤ m) (w : UInt16) :
    extent lengthInSequenceSpace s.acked + seg.lengthInSequenceSpace ≤
        extent lengthInSequenceSpace (s.ackReceived (wrap m s.isn) w).acked ∧
      (s.ackReceived (wrap m s.isn) w).consecutiveRetransmission = 0 := by
  have hraw : (wrap m s.isn).rawValue = s.isn.rawValue + m := rawValue_wrap_of_lt (by omega)
  have hseq : seg.header.seqno.rawValue = s.isn.rawValue + extent lengthInSequenceSpace s.acked := by
    rw [seqno_of_oldest hinv hout]
    exact rawValue_wrap_of_lt (by omega)
  have hbeyond : s.ackBeyond (wrap m s.isn) = false := by
    refine decide_eq_false ?_
    rw [hraw, nextSeqno32, rawValue_wrap_of_lt hlt]
    omega
  have hfull : fullyAcked (wrap m s.isn) seg = true := decide_eq_true (by omega)
  have hnew : s.ackNew (wrap m s.isn) = true := by
    have hpast := hprompt.pruned hlt seg (hout ▸ List.mem_cons_self)
    have hgot := of_decide_eq_true hpast
    exact decide_eq_true (by omega)
  rw [ackReceived_eq, hbeyond, if_neg Bool.false_ne_true, acked_fillWindow, retx_fillWindow, acked_acceptAck, hout,
    List.takeWhile_cons_of_pos hfull, extent_append, extent_cons]
  exact ⟨by omega, (backoff_acceptAck_of_new w hnew).2⟩

end Oldest

/-- The same for the endpoint that hears it. -/
theorem drops_oldest {e : Endpoint} {seg answer : TCPSegment} {rest : List TCPSegment} {m : Nat} (h : Source e)
    (hact : e.conn.active = true) (hlt : e.conn.sender.isn.rawValue + e.conn.sender.nextSeqno < 2 ^ 32)
    (hout : e.conn.sender.outSegments = seg :: rest) (hack : answer.header.ack = true)
    (hrst : answer.header.rst = false) (hackno : answer.header.ackno = wrap m e.conn.sender.isn)
    (hm : m ≤ e.conn.sender.nextSeqno)
    (hlow : extent lengthInSequenceSpace e.conn.sender.acked + seg.lengthInSequenceSpace ≤ m) :
    extent lengthInSequenceSpace e.conn.sender.acked + seg.lengthInSequenceSpace ≤
        extent lengthInSequenceSpace (e.step (.segmentReceived answer)).conn.sender.acked ∧
      (e.step (.segmentReceived answer)).conn.sender.consecutiveRetransmission = 0 := by
  have hsyn : e.conn.synSet = true :=
    h.begun.opened (h.wire.sender.synFlag_of_mem (mem_of_oldest h.wire.sender hout))
  have hadm : e.conn.admits answer = true := by rw [admits, hact, hsyn]; rfl
  have hafter : e.conn.senderAfter (.segmentReceived answer) =
      e.conn.sender.ackReceived (wrap m e.conn.sender.isn) answer.header.win := by
    rw [senderAfter_of_admits hadm hrst, if_pos hack, openedSender, if_pos hsyn, hackno]
  have hdrop := ackReceived_of_oldest h.prompt h.wire.sender hlt hout hm hlow answer.header.win
  rw [← hafter] at hdrop
  obtain ⟨failed, hh⟩ := handled_step e.conn (.segmentReceived answer)
  exact hh.transport (P := fun s => extent lengthInSequenceSpace e.conn.sender.acked + seg.lengthInSequenceSpace ≤
    extent lengthInSequenceSpace s.acked ∧ s.consecutiveRetransmission = 0) (fun _ _ hs => hs) (fun _ hs => hs) hdrop

/-- **The answer** of an endpoint that has looked at no FIN before carries its acknowledgment and no RST. -/
theorem answered {e : Endpoint} {copy : TCPSegment} (hact : e.conn.active = true) (hwire : WireInv e)
    (hunreset : e.conn.Unreset) (hunf : e.conn.Unfinished) (hsyn : e.conn.SynInv) (hrst : copy.header.rst = false)
    (hlen : 0 < copy.lengthInSequenceSpace) (hset : e.conn.receiver.isnSet = true ∨ copy.header.syn = true) :
    e.conn.admits copy = true ∧
    ∃ new, (e.step (.segmentReceived copy)).conn.segmentsOut = e.conn.segmentsOut ++ new ∧ new ≠ [] ∧
      ∀ answer ∈ new, answer.header.rst = false ∧ answer.header.ack = true ∧ answer.header.ackno =
        wrap (e.conn.receiver.segmentReceived copy).ackOffset (e.conn.receiver.segmentReceived copy).isn := by
  have hadm : e.conn.admits copy = true := by
    rw [admits, hact, Bool.true_and, Bool.or_eq_true]
    refine hset.imp ?_ id
    intro hknown
    by_contra hclosed
    exact Bool.noConfusion (hknown.symm.trans (hsyn (by simpa using hclosed)))
  have hknown : (e.conn.receiver.segmentReceived copy).isnSet = true := by
    rcases TCPReceiver.segmentReceived_cases e.conn.receiver copy with ⟨-, heq⟩ | ⟨-, -, heq⟩ | ⟨hno, hunset, -⟩
    · rw [heq]; rfl
    · rw [heq]; rfl
    · rw [hno, hunset] at hset
      rcases hset with h | h <;> cases h
  have hackno := TCPReceiver.ackno_eq (e.conn.receiver.segmentReceived copy)
  rw [if_pos hknown] at hackno
  have hanswers : e.conn.answers copy = true := by
    rw [answers, hadm, hrst, hunf.unacked, decide_eq_true hlen]
    rfl
  have hd := (dispatched_segmentReceived e.conn copy).out
  rw [hanswers, if_pos rfl, hunreset.flag, receiverAfter_of_admits hadm hrst] at hd
  refine ⟨hadm, _, hd, fun hnil => outgoing_ne_nil _ (List.map_eq_nil_iff.mp hnil), ?_⟩
  intro answer hanswer
  obtain ⟨base, hbase, rfl⟩ := List.mem_map.mp hanswer
  have hafter := Endpoint.senderInv_after (.segmentReceived copy) hwire.sender
  exact ⟨stamp_noRst _ (noRst_of_outgoing hafter hbase), stamp_ack hackno _ base⟩

namespace Network

variable {n : Network} {capacity : Nat}

/-! ## The direction from the first end to the second -/

/-- The network forges nothing, and the first application does not write after the end of its stream. -/
def Honest (n : Network) : Event → Prop
  | .atA op => Sent n.b op ∧ InOrder n.a.conn op
  | .atB op => Sent n.a op

instance (n : Network) : (ev : Event) → Decidable (Honest n ev)
  | .atA op => inferInstanceAs (Decidable (Sent n.b op ∧ InOrder n.a.conn op))
  | .atB op => inferInstanceAs (Decidable (Sent n.a op))

theorem Honest.noForgery {ev : Event} (h : Honest n ev) : NoForgery n ev := by
  cases ev with
  | atA op => exact h.1
  | atB op => exact h

/-- The numbers of the first end are far from running out. -/
def Short (n : Network) : Prop :=
  n.a.conn.sender.isn.rawValue + n.a.accepted.length + 2 < 2 ^ 32 ∧ n.a.accepted.length + 2 ≤ 2 ^ 31

/-- What every honest run keeps. -/
structure Sound (capacity : Nat) (n : Network) : Prop where
  source : Source n.a
  sink   : Sink capacity n.b
  inv    : Inv n
  known  : Introduced n.a n.b
  awaits : n.b.conn.recFinSeqno = none → Short n → Awaits n.a.conn.sender n.b

theorem Sound.init (cfgA cfgB : TCPConfig) (isnA isnB : WrappingInt32) :
    Sound cfgB.recvCapacity (ofConfigs cfgA cfgB isnA isnB) where
  source := Source.init cfgA isnA
  sink   := Sink.init cfgB isnB
  inv    := ⟨Channel.init .., Channel.init ..⟩
  known  := Introduced.init ..
  awaits := fun _ _ => Awaits.init ..

theorem Sound.nextSeqno_le (h : Sound capacity n) : n.a.conn.sender.nextSeqno ≤ n.a.accepted.length + 2 := by
  have hle := h.source.wire.sender.nextSeqno_le
  have hbytes := h.source.wire.sender.sentBytes_isPrefix.length_le
  omega

theorem Sound.follows (h : Sound capacity n) (hshort : Short n) :
    Follows n.a.conn.sender n.b.taken n.b.conn.receiver := by
  apply h.inv.ab.follows
  have hnext := h.nextSeqno_le
  have hlen := hshort.2
  omega

theorem short_of_step {ev : Event} (h : Short (n.step ev)) : Short n := by
  cases ev with
  | atA op =>
      have hlen := (n.a.accepted_isPrefix op).length_le
      have hisn : (n.step (.atA op)).a.conn.sender.isn = n.a.conn.sender.isn := (grows_step n.a.conn op).isn
      obtain ⟨hwrap, hbytes⟩ := h
      rw [hisn] at hwrap
      have hacc : (n.step (.atA op)).a.accepted = (n.a.step op).accepted := rfl
      rw [hacc] at hwrap hbytes
      exact ⟨by omega, by omega⟩
  | atB op => exact h

theorem Sound.step (h : Sound capacity n) {ev : Event} (hok : Honest n ev) : Sound capacity (n.step ev) := by
  have hinv := h.inv.step hok.noForgery
  cases ev with
  | atA op =>
      refine ⟨h.source.step hok.2, h.sink, hinv, h.known.src_step op hok.1 h.source.wire, ?_⟩
      intro hnone hshort
      exact (h.awaits hnone (short_of_step hshort)).src_step h.source.wire h.source.prompt.ack op hok.1
  | atB op =>
      refine ⟨h.source, h.sink.step op, hinv, h.known.dst_step op hok h.source.wire h.sink.wire, ?_⟩
      intro hnone hshort
      obtain ⟨hold, hlook⟩ := (recFinSeqno_step n.b.conn op).mp hnone
      have hnext := h.nextSeqno_le
      have hlen := hshort.2
      have hsame : (n.step (.atB op)).a = n.a := rfl
      rw [hsame] at hlen
      refine (h.awaits hold hshort).dst_step (h.follows hshort) h.source.wire.sender (by omega) h.sink.wire op ?_ hlook
      rintro seg rfl
      exact h.source.wire.out seg hok

theorem sound_run {cfgA cfgB : TCPConfig} {isnA isnB : WrappingInt32} {evs : List Event}
    (h : Guarded step Honest (ofConfigs cfgA cfgB isnA isnB) evs) :
    Sound cfgB.recvCapacity (run step (ofConfigs cfgA cfgB isnA isnB) evs) :=
  h.invariant (Sound cfgB.recvCapacity) (Sound.init ..) fun _ _ hi hok => hi.step hok

/-! ## A round trip -/

/-- A tick of the first end, the copy of a segment that reaches the second, and the answer that reaches the first. -/
structure Trip where
  ms     : Nat
  copy   : TCPSegment
  answer : TCPSegment

/-- The second application reads everything before the copy arrives. -/
def Trip.events (n : Network) (t : Trip) : List Event :=
  [.atA (.tick t.ms), .atB (.readInbound n.b.conn.inboundStream.bufferSize), .atB (.segmentReceived t.copy),
    .atA (.segmentReceived t.answer)]

def trip (n : Network) (t : Trip) : Network := run step n (t.events n)

/-- The second end when the copy arrives. -/
def read (n : Network) : Endpoint := n.b.step (.readInbound n.b.conn.inboundStream.bufferSize)

/-- The copy is one of the oldest outstanding segment, which the first end has sent, and the answer is one of those
    that the second end gives to it. -/
structure GoesThrough (n : Network) (t : Trip) : Prop where
  oldest : ∃ seg rest, n.a.conn.sender.outSegments = seg :: rest ∧ SameData seg t.copy
  sent   : t.copy ∈ (n.a.step (.tick t.ms)).conn.segmentsOut
  answer : t.answer ∈ (n.read.step (.segmentReceived t.copy)).conn.segmentsOut.drop n.read.conn.segmentsOut.length

instance (base seg : TCPSegment) : Decidable (SameData base seg) :=
  decidable_of_iff (seg.header.seqno = base.header.seqno ∧ seg.header.syn = base.header.syn ∧
      seg.header.fin = base.header.fin ∧ seg.payload = base.payload)
    ⟨fun ⟨hseqno, hsyn, hfin, hpayload⟩ => ⟨hseqno, hsyn, hfin, hpayload⟩,
      fun h => ⟨h.seqno, h.syn, h.fin, h.payload⟩⟩

theorem goesThrough_iff (n : Network) (t : Trip) : GoesThrough n t ↔
    (∃ seg ∈ n.a.conn.sender.outSegments.take 1, SameData seg t.copy) ∧
      t.copy ∈ (n.a.step (.tick t.ms)).conn.segmentsOut ∧
      t.answer ∈
        (n.read.step (.segmentReceived t.copy)).conn.segmentsOut.drop n.read.conn.segmentsOut.length := by
  constructor
  · rintro ⟨⟨seg, rest, hfront, hsame⟩, hsent, hanswer⟩
    exact ⟨⟨seg, by rw [hfront]; exact List.mem_cons_self, hsame⟩, hsent, hanswer⟩
  · rintro ⟨⟨seg, hseg, hsame⟩, hsent, hanswer⟩
    cases hfront : n.a.conn.sender.outSegments with
    | nil =>
        rw [hfront] at hseg
        cases hseg
    | cons head rest =>
        rw [hfront] at hseg
        obtain rfl := List.mem_singleton.mp hseg
        exact ⟨⟨seg, rest, hfront, hsame⟩, hsent, hanswer⟩

instance (n : Network) (t : Trip) : Decidable (GoesThrough n t) := decidable_of_iff _ (goesThrough_iff n t).symm

/-- Neither end has stopped, the first can retransmit once more without giving up, and the second has looked at no
    FIN. -/
structure Ready (n : Network) : Prop where
  a      : n.a.conn.active = true
  b      : n.b.conn.active = true
  count  : n.a.conn.sender.consecutiveRetransmission < TCPConfig.maxRetxAttempts
  unseen : n.b.conn.recFinSeqno = none

/-- No operation takes back the end of the outbound stream. -/
theorem isEof_step {c : TCPConnection} (op : Op) (h : c.sender.stream.isEof = true) :
    (c.step op).sender.stream.isEof = true := by
  obtain ⟨failed, hh⟩ := handled_step c op
  rw [hh.stream_isEof]
  refine senderAfter_rule (P := fun s => s.stream.isEof = true) op h ?_ ?_ ?_ ?_ ?_
  · intro s hs
    exact (streamFlags_fillWindow s).1.trans hs
  · intro data _
    exact (streamFlags_fillWindow _).1.trans h
  · intro _
    exact (streamFlags_fillWindow _).1
  · intro s seg _ _ hs
    exact (streamFlags_ackReceived s _ _).1.trans hs
  · intro ms _ _
    rw [stream_tick]
    exact h

/-- What a tick leaves as it is. -/
theorem ticked (e : Endpoint) (ms : Nat) :
    (e.step (.tick ms)).conn.sender.outSegments = e.conn.sender.outSegments ∧
      (e.step (.tick ms)).conn.sender.acked = e.conn.sender.acked := by
  obtain ⟨failed, hh⟩ := handled_step e.conn (.tick ms)
  refine hh.transport (P := fun s => s.outSegments = e.conn.sender.outSegments ∧ s.acked = e.conn.sender.acked)
    (fun _ _ hs => hs) (fun _ hs => hs) ?_
  simp only [senderAfter]
  split
  · exact ⟨(outSegments_tick _ _).1, acked_tick _ _⟩
  · exact ⟨rfl, rfl⟩

/-- No acknowledgment number is beyond what was sent. -/
theorem ackOffset_le {src dst : Endpoint} (hinv : WireInv src) (hknown : Introduced src dst)
    (hf : Follows src.conn.sender dst.taken dst.conn.receiver) (hacks : AckInv src.conn.sender dst)
    (hset : dst.conn.receiver.isnSet = true) : dst.conn.receiver.ackOffset ≤ src.conn.sender.nextSeqno := by
  have hwritten := hf.written_le
  have hnext := hinv.sender.nextSeqno_eq (hknown.isn hset).2
  rw [TCPReceiver.ackOffset]
  split
  · next hend =>
      rw [hacks.fin (Or.inr hend), if_pos rfl] at hnext
      omega
  · omega

/-- The second end after the copy has arrived. -/
structure Received (n : Network) (copy : TCPSegment) (seg : TCPSegment) : Prop where
  ack    : AckInv n.a.conn.sender (n.b.step (.segmentReceived copy))
  filled : extent lengthInSequenceSpace n.a.conn.sender.acked + seg.lengthInSequenceSpace ≤
    (n.b.step (.segmentReceived copy)).conn.receiver.ackOffset
  answer : ∃ new, (n.b.step (.segmentReceived copy)).conn.segmentsOut = n.b.conn.segmentsOut ++ new ∧ new ≠ [] ∧
    ∀ answer ∈ new, answer.header.rst = false ∧ answer.header.ack = true ∧
      answer.header.ackno = wrap (n.b.step (.segmentReceived copy)).conn.receiver.ackOffset n.a.conn.sender.isn
  bound  : (n.b.step (.segmentReceived copy)).conn.receiver.ackOffset ≤ n.a.conn.sender.nextSeqno

/-- **A copy of the oldest outstanding segment arrives.** -/
theorem Sound.received (h : Sound capacity n) (hcap : TCPConfig.maxPayloadSize ≤ capacity) (hshort : Short n)
    (hact : n.b.conn.active = true) (hunseen : n.b.conn.recFinSeqno = none)
    (hbuf : n.b.conn.receiver.streamOut.buf = [])
    {seg copy : TCPSegment} {rest : List TCPSegment} (hout : n.a.conn.sender.outSegments = seg :: rest)
    (hsame : SameData seg copy) (hcopy : copy ∈ n.a.conn.segmentsOut) (hrst : copy.header.rst = false) :
    Received n copy seg := by
  have hnext : n.a.conn.sender.nextSeqno ≤ 2 ^ 31 := h.nextSeqno_le.trans hshort.2
  have hinv := h.source.wire.sender
  have hfollows := h.follows hshort
  have haw := h.awaits hunseen hshort
  have hunf := h.sink.unfinished hunseen
  obtain ⟨hkept, hset, hfilled⟩ := ackOffset_of_oldest hinv hnext hfollows haw hunf h.known.acked hcap h.sink.windowed
    hbuf hout hsame
  have hlen : 0 < copy.lengthInSequenceSpace := by
    have hpos := hinv.pos_of_mem (mem_of_oldest hinv hout)
    simpa [lengthInSequenceSpace, hsame.syn, hsame.fin, hsame.payload] using hpos
  obtain ⟨hadm, new, hnew, hne, hall⟩ :=
    answered hact h.sink.wire (h.sink.unreset hact) hunf h.sink.synInv hrst hlen hset
  -- the step keeps what the receiver is after the segment, up to the error flag
  obtain ⟨failed, hh⟩ := handled_step n.b.conn (.segmentReceived copy)
  rw [receiverAfter_of_admits hadm hrst] at hh
  have hsent : ∀ seg, Op.segmentReceived copy = .segmentReceived seg → Carries n.a.conn.sender seg := by
    rintro seg heq
    obtain rfl := Op.segmentReceived.inj heq
    exact h.source.wire.out copy hcopy
  have hacks := haw.ack.dst_step hfollows hinv (hnext.trans (by decide)) h.sink.wire _ hsent hkept
  have hknown := h.known.dst_step (.segmentReceived copy) hcopy h.source.wire h.sink.wire
  have hset' : (n.b.step (.segmentReceived copy)).conn.receiver.isnSet = true := by
    obtain ⟨answer, hmem⟩ := List.exists_mem_of_ne_nil new hne
    exact hknown.acks answer (hnew ▸ List.mem_append_right _ hmem) (hall answer hmem).2.1
  have hoffset : (n.b.step (.segmentReceived copy)).conn.receiver.ackOffset = _ := hh.ackOffset
  have hisn : (n.b.step (.segmentReceived copy)).conn.receiver.isn = _ := hh.isn
  refine ⟨hacks, hoffset ▸ hfilled, ⟨new, hnew, hne, ?_⟩, ?_⟩
  · intro answer hanswer
    obtain ⟨hnorst, hack, hackno⟩ := hall answer hanswer
    refine ⟨hnorst, hack, ?_⟩
    rw [hackno, ← hoffset, ← hisn, (hknown.isn hset').1]
  · exact ackOffset_le h.source.wire hknown (hfollows.step hinv (hnext.trans (by decide)) _ hsent) hacks hset'

/-- With the FIN dropped nothing is outstanding. -/
theorem outSegments_of_fin {src src' : Endpoint} {seg : TCPSegment} {rest : List TCPSegment} (hinv : WireInv src)
    (hinv' : WireInv src') (hgrows : Grows src.conn.sender src'.conn.sender)
    (hout : src.conn.sender.outSegments = seg :: rest) (hfin : seg.header.fin = true)
    (hacked : extent lengthInSequenceSpace src.conn.sender.acked + seg.lengthInSequenceSpace ≤
      extent lengthInSequenceSpace src'.conn.sender.acked) : src'.conn.sender.outSegments = [] := by
  have hmem := mem_of_oldest hinv.sender hout
  have hsplit : src.conn.sender.firstSent = src.conn.sender.acked ++ seg :: rest := by rw [hinv.sender.queue, hout]
  have hrest := hinv.sender.later_eq_nil hsplit hfin
  have hsame := hgrows.final (hinv.sender.finFlag.mpr ⟨seg, hmem, hfin⟩)
  apply hinv'.sender.outSegments_eq_nil
  have hall := congrArg (extent lengthInSequenceSpace) hsame
  rw [hinv'.sender.queue, hsplit, hrest, extent_append, extent_append, extent_cons, extent_nil] at hall
  rw [hinv'.sender.inFlight]
  omega

/-- The network between the two halves of a round trip: the clock has ticked, and the second application has read. -/
def atSea (n : Network) (ms : Nat) : Network := ⟨n.a.step (.tick ms), n.read⟩

theorem Sound.atSea (h : Sound capacity n) (ms : Nat) : Sound capacity (n.atSea ms) := by
  have htick : Sound capacity (n.step (.atA (.tick ms))) := h.step ⟨trivial, Bool.noConfusion⟩
  have hread : Honest (n.step (.atA (.tick ms))) (.atB (.readInbound n.b.conn.inboundStream.bufferSize)) := trivial
  exact htick.step hread

theorem buf_read (n : Network) : n.read.conn.receiver.streamOut.buf = [] := by
  show (n.b.conn.receiver.streamOut.read n.b.conn.receiver.streamOut.bufferSize).2.buf = []
  rw [ByteStream.read_buf]
  exact List.drop_length

theorem short_atSea (ms : Nat) (h : Short n) : Short (n.atSea ms) := by
  have hisn : (n.atSea ms).a.conn.sender.isn = n.a.conn.sender.isn := (grows_step n.a.conn (.tick ms)).isn
  refine ⟨?_, h.2⟩
  rw [hisn]
  exact h.1

/-- Both segments of a round trip are what the ends are waiting for. -/
structure Landed (n : Network) (t : Trip) (seg : TCPSegment) : Prop where
  active   : (n.atSea t.ms).a.conn.active = true
  copyRst  : t.copy.header.rst = false
  received : Received (n.atSea t.ms) t.copy seg
  sent     : t.answer ∈ (n.read.step (.segmentReceived t.copy)).conn.segmentsOut
  rst      : t.answer.header.rst = false
  ack      : t.answer.header.ack = true
  ackno    : t.answer.header.ackno =
    wrap (n.read.step (.segmentReceived t.copy)).conn.receiver.ackOffset (n.atSea t.ms).a.conn.sender.isn

theorem Sound.landed (h : Sound capacity n) (hcap : TCPConfig.maxPayloadSize ≤ capacity) (hshort : Short n)
    (hready : Ready n) {t : Trip} {seg : TCPSegment} {rest : List TCPSegment} (hsame : SameData seg t.copy)
    (hsent : t.copy ∈ (n.a.step (.tick t.ms)).conn.segmentsOut)
    (hanswer : t.answer ∈
      (n.read.step (.segmentReceived t.copy)).conn.segmentsOut.drop n.read.conn.segmentsOut.length)
    (hfront : n.a.conn.sender.outSegments = seg :: rest) : Landed n t seg := by
  have hsea := h.atSea t.ms
  have hactive : (n.atSea t.ms).a.conn.active = true :=
    active_tick t.ms hready.a (h.source.unreset hready.a).flag h.source.wire.sender
      (by rw [hfront]; exact List.cons_ne_nil _ _) hready.count
  have hcopy := (hsea.source.unreset hactive).out t.copy hsent
  have hrec := hsea.received hcap (short_atSea t.ms hshort) hready.b hready.unseen n.buf_read
    ((ticked n.a t.ms).1.trans hfront) hsame hsent hcopy
  -- the answer that arrives is one of those that were given
  obtain ⟨new, hnew, -, hall⟩ := hrec.answer
  have hout : (n.read.step (.segmentReceived t.copy)).conn.segmentsOut = n.read.conn.segmentsOut ++ new := hnew
  rw [hout, List.drop_left] at hanswer
  obtain ⟨hnorst, hack, hackno⟩ := hall t.answer hanswer
  exact ⟨hactive, hcopy, hrec, hout ▸ List.mem_append_right _ hanswer, hnorst, hack, hackno⟩

/-- Neither end stops in a round trip that leaves something outstanding. -/
theorem Landed.ready {t : Trip} {seg : TCPSegment} (h : Landed n t seg) (hsea : Sound capacity (n.atSea t.ms))
    (hready : Ready n) (hfin : t.copy.header.fin = false) (hempty : (n.trip t).a.conn.sender.outSegments ≠ [])
    (hcount : (n.trip t).a.conn.sender.consecutiveRetransmission = 0) : Ready (n.trip t) := by
  have hlook : n.read.conn.looksAtFin (.segmentReceived t.copy) = false := by
    rw [looksAtFin, hfin, Bool.and_false]
  refine ⟨?_, ?_, ?_, (recFinSeqno_step _ _).mpr ⟨hready.unseen, hlook⟩⟩
  · by_contra hoff
    obtain ⟨failed, hh⟩ := handled_step (n.atSea t.ms).a.conn (.segmentReceived t.answer)
    have hdone := done_of_segmentReceived h.active (hsea.source.unreset h.active).flag h.rst
      (Bool.eq_false_of_not_eq_true hoff)
    exact hempty (hh.outSegments.trans
      ((Endpoint.senderInv_after _ hsea.source.wire.sender).outSegments_eq_nil hdone.inFlight))
  · by_contra hoff
    have hactive : n.read.conn.active = true := hready.b
    have hdone := done_of_segmentReceived hactive (hsea.sink.unreset hready.b).flag h.copyRst
      (Bool.eq_false_of_not_eq_true hoff)
    exact unended_receiverAfter hlook (hsea.sink.unfinished hready.unseen).unended (Or.inr hdone.inbound)
  · rw [hcount]
    decide

/-- What a round trip achieves. -/
structure Advanced (capacity : Nat) (n n' : Network) : Prop where
  sound    : Sound capacity n'
  accepted : n'.a.accepted = n.a.accepted
  grows    : Grows n.a.conn.sender n'.a.conn.sender
  ended    : n.a.conn.sender.stream.isEof = true → n'.a.conn.sender.stream.isEof = true
  ack      : AckInv n'.a.conn.sender n'.b
  acked    : extent lengthInSequenceSpace n.a.conn.sender.acked < extent lengthInSequenceSpace n'.a.conn.sender.acked
  ready    : n'.a.conn.sender.outSegments = [] ∨ Ready n'

/-- **A round trip advances**: the oldest outstanding segment is dropped. -/
theorem trip_advances (h : Sound capacity n) (hcap : TCPConfig.maxPayloadSize ≤ capacity) (hshort : Short n)
    (hready : Ready n) {t : Trip} (ht : GoesThrough n t) : Advanced capacity n (n.trip t) := by
  obtain ⟨seg, rest, hfront, hsame⟩ := ht.oldest
  have hsea := h.atSea t.ms
  have hland := h.landed hcap hshort hready hsame ht.sent ht.answer hfront
  obtain ⟨hsegs, hacked⟩ := ticked n.a t.ms
  have hout : (n.atSea t.ms).a.conn.sender.outSegments = seg :: rest := hsegs.trans hfront
  have hmid : Sound capacity ((n.atSea t.ms).step (.atB (.segmentReceived t.copy))) := hsea.step ht.sent
  have hsent : Honest ((n.atSea t.ms).step (.atB (.segmentReceived t.copy))) (.atA (.segmentReceived t.answer)) :=
    ⟨hland.sent, Bool.noConfusion⟩
  have hlast : Sound capacity (n.trip t) := hmid.step hsent
  have hnext : (n.atSea t.ms).a.conn.sender.isn.rawValue + (n.atSea t.ms).a.conn.sender.nextSeqno < 2 ^ 32 := by
    have hle := hsea.nextSeqno_le
    have hfits := (short_atSea t.ms hshort).1
    omega
  obtain ⟨hdrop, hcount⟩ := drops_oldest hsea.source hland.active hnext hout hland.ack hland.rst hland.ackno
    hland.received.bound hland.received.filled
  have hgrows := grows_step (n.atSea t.ms).a.conn (.segmentReceived t.answer)
  have hpos := hsea.source.wire.sender.pos_of_mem (mem_of_oldest hsea.source.wire.sender hout)
  refine ⟨hlast, rfl, ?_, ?_, ?_, ?_, ?_⟩
  · exact (grows_step n.a.conn (.tick t.ms)).trans hgrows
  · exact fun hend => isEof_step _ (isEof_step (.tick t.ms) hend)
  · exact hland.received.ack.src_step hsea.source.wire hsea.source.prompt.ack _ hsent.1
  · rw [← hacked]
    exact Nat.lt_of_lt_of_le (Nat.lt_add_of_pos_right hpos) hdrop
  · by_cases hempty : (n.trip t).a.conn.sender.outSegments = []
    · exact Or.inl hempty
    · refine Or.inr (hland.ready hsea hready ?_ hempty hcount)
      by_contra hset
      exact hempty (outSegments_of_fin hsea.source.wire hlast.source.wire hgrows hout
        (hsame.fin.symm.trans (by simpa using hset)) hdrop)

/-- **A round trip is possible** while something is outstanding, however long the clock waits. -/
theorem trip_possible (h : Sound capacity n) (hcap : TCPConfig.maxPayloadSize ≤ capacity) (hshort : Short n)
    (hready : Ready n) (hbusy : n.a.conn.sender.outSegments ≠ []) (ms : Nat) :
    ∃ copy answer, GoesThrough n ⟨ms, copy, answer⟩ := by
  obtain ⟨seg, rest, hfront⟩ := List.exists_cons_of_ne_nil hbusy
  have hsea := h.atSea ms
  have hout : (n.atSea ms).a.conn.sender.outSegments = seg :: rest := (ticked n.a ms).1.trans hfront
  have hactive : (n.atSea ms).a.conn.active = true :=
    active_tick ms hready.a (h.source.unreset hready.a).flag h.source.wire.sender hbusy hready.count
  -- the tick has emptied the queue of the sender, so the segment is on the wire
  have hqueue : (n.atSea ms).a.conn.sender.segmentsOut = [] := queue_tick hactive
  rcases hsea.source.wired seg (mem_of_oldest hsea.source.wire.sender hout) with hin | ⟨r, rst, hcopy⟩
  · rw [hqueue] at hin
    cases hin
  · have hsame := sameData_stamp r rst seg
    have hrec := hsea.received hcap (short_atSea ms hshort) hready.b hready.unseen n.buf_read hout hsame hcopy
      ((hsea.source.unreset hactive).out _ hcopy)
    obtain ⟨new, hnew, hne, -⟩ := hrec.answer
    obtain ⟨answer, hanswer⟩ := List.exists_mem_of_ne_nil new hne
    refine ⟨stamp r rst seg, answer, ⟨seg, rest, hfront, hsame⟩, hcopy, ?_⟩
    rw [show (n.read.step (.segmentReceived (stamp r rst seg))).conn.segmentsOut = n.read.conn.segmentsOut ++ new
      from hnew, List.drop_left]
    exact hanswer

/-! ## Round trip after round trip -/

/-- What any number of round trips from `n` keeps. -/
structure OnTheWay (capacity : Nat) (n n' : Network) (done : Nat) : Prop where
  sound    : Sound capacity n'
  accepted : n'.a.accepted = n.a.accepted
  grows    : Grows n.a.conn.sender n'.a.conn.sender
  ended    : n.a.conn.sender.stream.isEof = true → n'.a.conn.sender.stream.isEof = true
  ack      : AckInv n'.a.conn.sender n'.b
  count    : done ≤ extent lengthInSequenceSpace n'.a.conn.sender.acked
  ready    : n'.a.conn.sender.outSegments = [] ∨ Ready n'

theorem OnTheWay.short {n' : Network} {done : Nat} (h : OnTheWay capacity n n' done) (hshort : Short n) : Short n' := by
  unfold Short
  rw [h.accepted, h.grows.isn]
  exact hshort

theorem OnTheWay.step {n' : Network} {done : Nat} (h : OnTheWay capacity n n' done) (hshort : Short n)
    (hcap : TCPConfig.maxPayloadSize ≤ capacity) {t : Trip} (ht : GoesThrough n' t) :
    OnTheWay capacity n (n'.trip t) (done + 1) := by
  have hready : Ready n' := by
    obtain ⟨seg, rest, hfront, -⟩ := ht.oldest
    refine h.ready.resolve_left ?_
    rw [hfront]
    exact List.cons_ne_nil _ _
  have hadv := trip_advances h.sound hcap (h.short hshort) hready ht
  exact ⟨hadv.sound, hadv.accepted.trans h.accepted, h.grows.trans hadv.grows,
    fun hend => hadv.ended (h.ended hend), hadv.ack, Nat.lt_of_le_of_lt h.count hadv.acked, hadv.ready⟩

/-- With nothing outstanding everything has been delivered. -/
theorem OnTheWay.complete {n' : Network} {done : Nat} (h : OnTheWay capacity n n' done) (hshort : Short n)
    (hsyn : n.a.conn.sender.synFlag = true) (hinv : WireInv n.a) (hempty : n'.a.conn.sender.outSegments = []) :
    n'.b.delivered = n.a.accepted ∧
      (n.a.conn.sender.stream.isEof = true → n'.b.conn.inboundStream.inputEnded = true) := by
  have hfollows := h.sound.follows (h.short hshort)
  have hset := h.sound.source.settled
  have hsyn' : n'.a.conn.sender.synFlag = true := by
    obtain ⟨rest, hsent, -⟩ := hinv.sender.opened hsyn
    exact hset.inv.synFlag_of_mem (h.grows.sent.subset (hsent ▸ List.mem_cons_self))
  constructor
  · have hbuf : n'.a.conn.sender.stream.buf = [] := by
      cases hfin : n'.a.conn.sender.finFlag with
      | true => exact hset.drained hfin
      | false =>
          have havail := h.sound.source.prompt.spent hsyn' hfin hempty
          rw [avail] at havail
          exact List.eq_nil_of_length_eq_zero (by omega)
    have hall : n'.a.conn.sender.sentBytes = n'.a.accepted := by
      have hbytes := hset.inv.bytes
      rwa [hbuf, List.append_nil] at hbytes
    have hacked : n'.a.accepted <+: n'.b.delivered := by
      have hpayloads := h.ack.payloads_acked_le hfollows hset.inv
      rw [sentBytes, hset.inv.queue, hempty, List.append_nil] at hall
      rwa [hall] at hpayloads
    have hdelivered : n'.b.delivered = _ := hfollows.delivered_eq
    rw [← h.accepted]
    refine (hacked.eq_of_length_le ?_).symm
    rw [hdelivered, hall]
    exact List.length_take_le' _ _
  · intro hend
    have hfin := (hset.filled (h.ended hend)).resolve_left (fun hne => hne hempty)
    exact ended_of_finAcked h.ack hfollows hset hfin hempty

theorem OnTheWay.run {done : Nat} {n' : Network} (hshort : Short n) (hcap : TCPConfig.maxPayloadSize ≤ capacity)
    (trips : List Trip) (h : OnTheWay capacity n n' done) (hgo : Guarded trip GoesThrough n' trips) :
    OnTheWay capacity n (Lib.run trip n' trips) (done + trips.length) := by
  induction trips generalizing n' done with
  | nil => exact h
  | cons t trips ih =>
      have hrest := ih (h.step hshort hcap hgo.1) hgo.2
      rwa [Nat.add_right_comm, Nat.add_assoc] at hrest

/-- **Round trips deliver everything.** After an honest run in which A has sent its SYN and B has looked at no FIN, in
    which neither end has stopped, A can retransmit once more without giving up, and its sequence numbers are far from
    running out (`Ready`, `Short`), and if the receive capacity of B is at least that of a full segment: whatever round
    trips go through, there are at most as many as sequence numbers; while something is outstanding a further one is
    possible, after any time; and when nothing is, B has got every byte that A's application has written, and the end if
    there is one. -/
theorem round_trips_deliver (cfgA cfgB : TCPConfig) (isnA isnB : WrappingInt32) (evs : List Event)
    (h : Guarded step Honest (ofConfigs cfgA cfgB isnA isnB) evs) (hcap : TCPConfig.maxPayloadSize ≤ cfgB.recvCapacity)
    (trips : List Trip) :
    let n := run step (ofConfigs cfgA cfgB isnA isnB) evs
    let n' := run trip n trips
    Ready n → n.a.conn.sender.synFlag = true → Short n → Guarded trip GoesThrough n trips →
      trips.length ≤ n.a.accepted.length + 2 ∧
      (n'.a.conn.sender.outSegments ≠ [] → ∀ ms, ∃ copy answer, GoesThrough n' ⟨ms, copy, answer⟩) ∧
      (n'.a.conn.sender.outSegments = [] → n'.b.delivered = n.a.accepted ∧
        (n.a.conn.sender.stream.isEof = true → n'.b.conn.inboundStream.inputEnded = true)) := by
  intro n n' hready hsyn hshort hgo
  have hsound : Sound cfgB.recvCapacity n := sound_run h
  have hstart : OnTheWay cfgB.recvCapacity n n 0 :=
    ⟨hsound, rfl, Grows.refl _, id, (hsound.awaits hready.unseen hshort).ack, Nat.zero_le _, Or.inr hready⟩
  have hend : OnTheWay cfgB.recvCapacity n n' (0 + trips.length) := hstart.run hshort hcap trips hgo
  refine ⟨?_, ?_, ?_⟩
  · have hcount := hend.count
    have hacked : extent lengthInSequenceSpace n'.a.conn.sender.acked ≤ n'.a.conn.sender.nextSeqno := by
      rw [hend.sound.source.wire.sender.next, hend.sound.source.wire.sender.queue, extent_append]
      exact Nat.le_add_right _ _
    have hnext := hend.sound.nextSeqno_le
    rw [hend.accepted] at hnext
    omega
  · intro hbusy ms
    exact trip_possible hend.sound hcap (hend.short hshort) (hend.ready.resolve_left hbusy) hbusy ms
  · exact hend.complete hshort hsyn hsound.source.wire

/-- After the handshake A writes a byte and ends its stream, and everything is lost, twice. -/
def lostTwice : List Event := threeWay ++ [.atA (.write [7]), .atA .endInputStream, .atA (.tick 1000)]

/-- Then the byte gets through, and then the FIN. -/
def twoTrips : List Trip :=
  [⟨2000, { header := { seqno := .ofRaw 1, ackno := .ofRaw 101, ack := true, win := 64000 }, payload := [7] },
      { header := { ackno := .ofRaw 2, ack := true, win := 63999 } }⟩,
    ⟨1000, { header := { seqno := .ofRaw 2, ackno := .ofRaw 101, ack := true, fin := true, win := 64000 } },
      { header := { ackno := .ofRaw 3, ack := true, win := 64000 } }⟩]

theorem round_trips_deliver_lostTwice :
    let n := run step (ofConfigs {} {} (.ofRaw 0) (.ofRaw 100)) lostTwice
    let n' := run trip n twoTrips
    n.b.delivered = [] ∧ n'.b.delivered = [7] ∧ n'.b.conn.inboundStream.inputEnded = true := by
  intro n n'
  have h := round_trips_deliver {} {} (.ofRaw 0) (.ofRaw 100) lostTwice (by decide +kernel) (by decide) twoTrips
    ⟨by decide +kernel, by decide +kernel, by decide +kernel, by decide +kernel⟩ (by decide +kernel)
    ⟨by decide +kernel, by decide +kernel⟩ (by decide +kernel)
  have hdone := h.2.2 (by decide +kernel)
  have hwrote : n.a.accepted = [7] := by decide +kernel
  exact ⟨by decide +kernel, hdone.1.trans hwrote, hdone.2 (by decide +kernel)⟩

end Network

end Sponge
