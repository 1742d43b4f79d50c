import Sponge.Sender.Effect
import Sponge.Lib.Run

/-!
# `Sender.Partition` — the sender's segments partition its stream

`SenderInv accepted s` relates the sender's fields to its history and to the bytes its stream has accepted:
the segments sent for the first time start with a SYN, are numbered end to end, carry the accepted bytes in
order, and stop at a FIN; what is outstanding is what was sent and not acknowledged. Every operation keeps
it, whatever acknowledgments arrive, so it holds in every run (`segments_partition`).
-/

namespace Sponge

open Lib TCPSegment

/-- What the owner of a sender does. The type of acknowledgment numbers is left open: on the wire it is
    `WrappingInt32`, relative to the ISN it is `Nat`. -/
inductive SenderOp (α : Type) where
  | write (data : List UInt8)
  | endInput
  | fillWindow
  | ackReceived (ackno : α) (windowSize : UInt16)
  | tick (msSinceLastTick : Nat)
deriving DecidableEq

def SenderOp.map {α β : Type} (f : α → β) : SenderOp α → SenderOp β
  | .write data          => .write data
  | .endInput            => .endInput
  | .fillWindow          => .fillWindow
  | .ackReceived ackno w => .ackReceived (f ackno) w
  | .tick ms             => .tick ms

namespace TCPSender

def step (s : TCPSender) : SenderOp WrappingInt32 → TCPSender
  | .write data          => s.write data
  | .endInput            => s.endInput
  | .fillWindow          => s.fillWindow
  | .ackReceived ackno w => s.ackReceived ackno w
  | .tick ms             => s.tick ms

/-! ## The invariant -/

structure SenderInv (accepted : List UInt8) (s : TCPSender) : Prop where
  numbered : Laid lengthInSequenceSpace (fun n seg => seg.header.seqno = wrap n s.isn) 0 s.firstSent
  next     : s.nextSeqno = extent lengthInSequenceSpace s.firstSent
  queue    : s.firstSent = s.acked ++ s.outSegments
  inFlight : s.bytesInFlight = extent lengthInSequenceSpace s.outSegments
  bytes    : payloads s.firstSent ++ s.stream.buf = accepted
  read     : s.stream.readCount = (payloads s.firstSent).length
  written  : s.stream.writeCount = accepted.length
  fresh    : s.synFlag = false → s.firstSent = []
  opened   : s.synFlag = true → ∃ rest, s.firstSent = synSegment s.isn :: rest ∧
    ∀ seg ∈ rest, DataSegment seg
  finLast  : s.firstSent.Pairwise fun seg _ => seg.header.fin = false
  finFlag  : s.finFlag = true ↔ ∃ seg ∈ s.firstSent, seg.header.fin = true
  ended    : s.finFlag = true → s.stream.isEof = true
  again    : ∀ seg ∈ s.sentAgain, seg ∈ s.firstSent
  pending  : ∀ seg ∈ s.segmentsOut, seg ∈ s.firstSent

variable {s s' : TCPSender} {accepted : List UInt8}

theorem SenderInv.init (capacity : Nat) (retxTimeout : UInt16) (isn : WrappingInt32) :
    SenderInv [] (ofConfig capacity retxTimeout isn) := by
  constructor <;>
    simp [ofConfig, firstSent, sentAgain, acked, Laid, ByteStream.ofCapacity, TCPSegment.payloads]

/-- Something was sent only after the SYN. -/
theorem SenderInv.synFlag_of_mem {seg : TCPSegment} (h : SenderInv accepted s) (hseg : seg ∈ s.firstSent) :
    s.synFlag = true := by
  by_contra hsyn
  rw [h.fresh (by simpa using hsyn)] at hseg
  cases hseg

/-- `s'` agrees with `s` on everything the invariant reads but the retransmissions and the outbound
    queue. -/
structure Agree (s s' : TCPSender) : Prop where
  isn           : s'.isn = s.isn
  nextSeqno     : s'.nextSeqno = s.nextSeqno
  outSegments   : s'.outSegments = s.outSegments
  bytesInFlight : s'.bytesInFlight = s.bytesInFlight
  buf           : s'.stream.buf = s.stream.buf
  readCount     : s'.stream.readCount = s.stream.readCount
  writeCount    : s'.stream.writeCount = s.stream.writeCount
  synFlag       : s'.synFlag = s.synFlag
  finFlag       : s'.finFlag = s.finFlag
  isEof         : s.stream.isEof = true → s'.stream.isEof = true
  firstSent     : s'.firstSent = s.firstSent
  acked         : s'.acked = s.acked

theorem SenderInv.agree (h : SenderInv accepted s) (ha : Agree s s')
    (hagain : ∀ seg ∈ s'.sentAgain, seg ∈ s.firstSent)
    (hpending : ∀ seg ∈ s'.segmentsOut, seg ∈ s.firstSent) : SenderInv accepted s' := by
  constructor
  case numbered => rw [ha.firstSent, ha.isn]; exact h.numbered
  case next => rw [ha.firstSent, ha.nextSeqno]; exact h.next
  case queue => rw [ha.firstSent, ha.acked, ha.outSegments]; exact h.queue
  case inFlight => rw [ha.bytesInFlight, ha.outSegments]; exact h.inFlight
  case bytes => rw [ha.firstSent, ha.buf]; exact h.bytes
  case read => rw [ha.firstSent, ha.readCount]; exact h.read
  case written => rw [ha.writeCount]; exact h.written
  case fresh => rw [ha.firstSent, ha.synFlag]; exact h.fresh
  case opened => rw [ha.firstSent, ha.synFlag, ha.isn]; exact h.opened
  case finLast => rw [ha.firstSent]; exact h.finLast
  case finFlag => rw [ha.firstSent, ha.finFlag]; exact h.finFlag
  case ended => rw [ha.finFlag]; exact fun hf => ha.isEof (h.ended hf)
  case again => rw [ha.firstSent]; exact hagain
  case pending => rw [ha.firstSent]; exact hpending

theorem Fills.firstSent {new : List TCPSegment} (h : Fills s new s') :
    s'.firstSent = s.firstSent ++ new := h.sends.firstSent

theorem Fills.acked {new : List TCPSegment} (h : Fills s new s') : s'.acked = s.acked :=
  h.sends.acked

theorem Fills.sentAgain {new : List TCPSegment} (h : Fills s new s') : s'.sentAgain = s.sentAgain := by
  simp [TCPSender.sentAgain, h.log, List.filterMap_append]

theorem SenderInv.fills {new : List TCPSegment} (h : SenderInv accepted s) (hf : Fills s new s')
    (hsyn : s.synFlag = true) : SenderInv accepted s' := by
  constructor
  case numbered =>
    rw [hf.firstSent, hf.isn]
    refine laid_append.mpr ⟨h.numbered, ?_⟩
    rw [Nat.zero_add, ← h.next]
    exact hf.numbered
  case next => rw [hf.nextSeqno, hf.firstSent, extent_append, h.next]
  case queue => rw [hf.firstSent, hf.acked, hf.outSegments, h.queue, List.append_assoc]
  case inFlight => rw [hf.bytesInFlight, hf.outSegments, extent_append, h.inFlight]
  case bytes => rw [hf.firstSent, payloads_append, List.append_assoc, hf.buf, h.bytes]
  case read => rw [hf.readCount, hf.firstSent, payloads_append, List.length_append, h.read]
  case written => rw [hf.writeCount, h.written]
  case fresh => intro hs; rw [hf.synFlag, hsyn] at hs; cases hs
  case opened =>
    intro _
    obtain ⟨rest, hrest, hdata⟩ := h.opened hsyn
    refine ⟨rest ++ new, by rw [hf.firstSent, hrest, hf.isn, List.cons_append], fun seg hseg => ?_⟩
    rcases List.mem_append.mp hseg with hm | hm
    · exact hdata seg hm
    · exact hf.shape seg hm
  case finLast =>
    rw [hf.firstSent]
    refine List.pairwise_append.mpr ⟨h.finLast, hf.finLast, fun a ha b hb => ?_⟩
    -- after a FIN nothing more is sent
    by_contra hfin
    have hnil := hf.idle (h.finFlag.mpr ⟨a, ha, by simpa using hfin⟩)
    rw [hnil] at hb
    cases hb
  case finFlag =>
    rw [hf.finFlag, h.finFlag, hf.firstSent]
    simp only [List.mem_append, or_and_right, exists_or]
  case ended =>
    intro hfin
    rw [hf.isEof]
    rcases hf.finFlag.mp hfin with hold | hnew
    · exact h.ended hold
    · have hend := ((ByteStream.eof_iff _).mp (hf.drained hnew)).1
      exact hf.isEof.symm.trans hend
  case again =>
    rw [hf.sentAgain, hf.firstSent]
    exact fun seg hseg => List.mem_append_left _ (h.again seg hseg)
  case pending =>
    rw [hf.segmentsOut, hf.firstSent]
    intro seg hseg
    exact List.mem_append.mpr ((List.mem_append.mp hseg).imp (h.pending seg) id)

/-- The SYN is the first segment. -/
theorem SenderInv.syn (h : SenderInv accepted s) (hsyn : s.synFlag = false) (hfin : s.finFlag = false) :
    SenderInv accepted (sendSegment { s with synFlag := true } (synSegment s.nextSeqno32)) := by
  have hnone := h.fresh hsyn
  have hnext := h.next
  have hqueue := h.queue
  rw [hnone] at hnext hqueue
  rw [extent_nil] at hnext
  obtain ⟨hacked, hout⟩ := List.nil_eq_append_iff.mp hqueue
  have hseq : s.nextSeqno32 = s.isn := by rw [nextSeqno32, hnext, wrap_zero]
  have hbytes := h.bytes
  have hread := h.read
  have hflight := h.inFlight
  have hagain := h.again
  rw [hnone] at hbytes hread hagain
  rw [hout] at hflight
  rw [hseq]
  have hfirst : firstSent (sendSegment { s with synFlag := true } (synSegment s.isn)) =
      [synSegment s.isn] := by
    rw [firstSent_sendSegment]
    exact congrArg (· ++ [synSegment s.isn]) hnone
  have hdropped : acked (sendSegment { s with synFlag := true } (synSegment s.isn)) = s.acked :=
    acked_sendSegment _ _
  have hsame : sentAgain (sendSegment { s with synFlag := true } (synSegment s.isn)) = s.sentAgain :=
    sentAgain_sendSegment _ _
  constructor
  case numbered => rw [hfirst]; exact ⟨(wrap_zero _).symm, trivial⟩
  case next => rw [hfirst]; simp [sendSegment, hnext]
  case queue => rw [hfirst, hdropped, hacked]; simp [sendSegment, hout]
  case inFlight => simp [sendSegment, hout, hflight]
  case bytes => rw [hfirst]; exact hbytes
  case read => rw [hfirst]; exact hread
  case written => exact h.written
  case fresh => intro hs; cases hs
  case opened => exact fun _ => ⟨[], hfirst, by simp⟩
  case finLast => rw [hfirst]; exact List.pairwise_singleton _ _
  case finFlag => rw [hfirst]; simp [sendSegment, hfin, synSegment]
  case ended => intro hf; simp [sendSegment, hfin] at hf
  case again =>
    rw [hsame]
    intro seg hseg
    cases hagain seg hseg
  case pending =>
    rw [hfirst]
    intro seg hseg
    rcases List.mem_append.mp hseg with hold | hnew
    · have hmem := h.pending seg hold
      rw [hnone] at hmem
      cases hmem
    · exact hnew

/-- **`fill_window` keeps the invariant.** -/
theorem SenderInv.fillWindow (h : SenderInv accepted s) : SenderInv accepted s.fillWindow := by
  rcases fillWindow_cases s with ⟨-, heq⟩ | ⟨hfin, hsyn, heq⟩ | ⟨-, hsyn, new, hfills, -⟩
  · rw [heq]; exact h
  · rw [heq]; exact h.syn hsyn hfin
  · exact h.fills hfills hsyn

/-- Every segment sent is the SYN or a data segment. -/
theorem SenderInv.shape_of_mem {seg : TCPSegment} (h : SenderInv accepted s) (hseg : seg ∈ s.firstSent) :
    seg = synSegment s.isn ∨ DataSegment seg := by
  obtain ⟨rest, hrest, hdata⟩ := h.opened (h.synFlag_of_mem hseg)
  rw [hrest] at hseg
  rcases List.mem_cons.mp hseg with heq | hm
  · exact Or.inl heq
  · exact Or.inr (hdata seg hm)

/-- Nothing is sent after a FIN. -/
theorem SenderInv.later_eq_nil {before later : List TCPSegment} {seg : TCPSegment}
    (h : SenderInv accepted s) (hsplit : s.firstSent = before ++ seg :: later)
    (hfin : seg.header.fin = true) : later = [] := by
  have hlast := h.finLast
  rw [hsplit] at hlast
  have hafter := (List.pairwise_cons.mp (List.pairwise_append.mp hlast).2.1).1
  cases later with
  | nil => rfl
  | cons next later =>
      rw [hafter next List.mem_cons_self] at hfin
      cases hfin

theorem isn_fillWindow (s : TCPSender) : s.fillWindow.isn = s.isn := by
  obtain ⟨new, h⟩ := fillWindow_sends s
  exact h.isn

theorem isn_ackReceived (s : TCPSender) (ackno : WrappingInt32) (w : UInt16) :
    (s.ackReceived ackno w).isn = s.isn := by
  rw [ackReceived_eq]
  split
  · rfl
  · rw [isn_fillWindow, acceptAck_isn]

theorem ackGot_fillWindow (s : TCPSender) : s.fillWindow.ackGot = s.ackGot := by
  obtain ⟨new, h⟩ := fillWindow_sends s
  exact h.ackGot

/-- The recorded acknowledgment number changes only to one that was received. -/
theorem ackGot_ackReceived (s : TCPSender) (ackno : WrappingInt32) (w : UInt16) :
    (s.ackReceived ackno w).ackGot = s.ackGot ∨ (s.ackReceived ackno w).ackGot = ackno := by
  rw [ackReceived_eq]
  split
  · exact Or.inl rfl
  · rw [ackGot_fillWindow, acceptAck_ackGot]
    split
    · exact Or.inr rfl
    · exact Or.inl rfl

theorem ackGot_tick (s : TCPSender) (ms : Nat) : (s.tick ms).ackGot = s.ackGot := by
  rcases tick_cases s ms with ⟨_, heq⟩ | ⟨_, _, _, _, -, heq⟩ <;> rw [heq]

theorem isn_tick (s : TCPSender) (ms : Nat) : (s.tick ms).isn = s.isn := by
  rcases tick_cases s ms with ⟨_, heq⟩ | ⟨_, _, _, _, -, heq⟩ <;> rw [heq]

/-! ## The other operations -/

/-- The subtractions of the dropping loop never borrow. -/
theorem foldl_usub_extent (segs rest : List TCPSegment) :
    segs.foldl (fun n seg => usub 64 n seg.lengthInSequenceSpace)
      (extent lengthInSequenceSpace (segs ++ rest)) = extent lengthInSequenceSpace rest := by
  induction segs with
  | nil => simp
  | cons seg segs ih =>
      rw [List.foldl_cons, List.cons_append, extent_cons, usub_of_le (Nat.le_add_right _ _),
        Nat.add_sub_cancel_left]
      exact ih

theorem SenderInv.acceptAck (h : SenderInv accepted s) (ackno : WrappingInt32) (w : UInt16) :
    SenderInv accepted (s.acceptAck ackno w) := by
  have hsplit : s.outSegments.takeWhile (fullyAcked ackno) ++ s.outSegments.dropWhile (fullyAcked ackno) =
      s.outSegments := List.takeWhile_append_dropWhile
  have hfirst := firstSent_acceptAck s ackno w
  constructor
  case numbered => rw [hfirst, acceptAck_isn]; exact h.numbered
  case next => rw [hfirst, acceptAck_nextSeqno]; exact h.next
  case queue =>
    rw [hfirst, acked_acceptAck, acceptAck_outSegments, List.append_assoc, hsplit]
    exact h.queue
  case inFlight =>
    have hfold := foldl_usub_extent (s.outSegments.takeWhile (fullyAcked ackno))
      (s.outSegments.dropWhile (fullyAcked ackno))
    rw [hsplit] at hfold
    rw [acceptAck_bytesInFlight, acceptAck_outSegments, h.inFlight, hfold]
  case bytes => rw [hfirst, acceptAck_stream]; exact h.bytes
  case read => rw [hfirst, acceptAck_stream]; exact h.read
  case written => rw [acceptAck_stream]; exact h.written
  case fresh => rw [hfirst, acceptAck_synFlag]; exact h.fresh
  case opened => rw [hfirst, acceptAck_synFlag, acceptAck_isn]; exact h.opened
  case finLast => rw [hfirst]; exact h.finLast
  case finFlag => rw [hfirst, acceptAck_finFlag]; exact h.finFlag
  case ended => rw [acceptAck_finFlag, acceptAck_stream]; exact h.ended
  case again => rw [sentAgain_acceptAck, hfirst]; exact h.again
  case pending => rw [hfirst, acceptAck_segmentsOut]; exact h.pending

theorem SenderInv.ackReceived (h : SenderInv accepted s) (ackno : WrappingInt32) (w : UInt16) :
    SenderInv accepted (s.ackReceived ackno w) := by
  rw [ackReceived_eq]
  split
  · exact h
  · exact (h.acceptAck ackno w).fillWindow

/-- A retransmitted segment is an outstanding one, so it was sent before. -/
theorem SenderInv.tick (h : SenderInv accepted s) (ms : Nat) : SenderInv accepted (s.tick ms) := by
  rcases tick_cases s ms with ⟨timer, heq⟩ | ⟨seg, rest, timer, retx, hout, heq⟩
  · rw [heq]
    exact h.agree ⟨rfl, rfl, rfl, rfl, rfl, rfl, rfl, rfl, rfl, id, rfl, rfl⟩ h.again h.pending
  · have hmem : seg ∈ s.firstSent := by
      rw [h.queue, hout]
      exact List.mem_append_right _ List.mem_cons_self
    have hfirst := firstSent_tick s ms
    have hacked := acked_tick s ms
    rw [heq] at hfirst hacked ⊢
    refine h.agree ⟨rfl, rfl, rfl, rfl, rfl, rfl, rfl, rfl, rfl, id, hfirst, hacked⟩ (fun seg' hseg' => ?_)
      fun seg' hseg' => ?_
    · simp only [sentAgain, List.filterMap_append, List.mem_append] at hseg'
      rcases hseg' with hm | hm
      · exact h.again seg' hm
      · have : seg' = seg := by simpa using hm
        rw [this]; exact hmem
    · rcases List.mem_append.mp hseg' with hm | hm
      · exact h.pending seg' hm
      · rw [List.mem_singleton.mp hm]; exact hmem

/-- A write appends what the stream accepts. -/
theorem SenderInv.write (h : SenderInv accepted s) (data : List UInt8) :
    SenderInv (accepted ++ data.take (s.stream.write data).2) (s.write data) := by
  refine ⟨h.numbered, h.next, h.queue, h.inFlight, ?_, h.read, ?_, h.fresh, h.opened, h.finLast,
    h.finFlag, h.ended, h.again, h.pending⟩
  · rw [← h.bytes, List.append_assoc]
    rfl
  · have hle : s.stream.writeLen data.length ≤ data.length := by
      rw [ByteStream.writeLen_eq_min]; omega
    rw [List.length_append, List.length_take, ByteStream.write_snd, ← h.written,
      Nat.min_eq_left hle]
    rfl

theorem SenderInv.endInput (h : SenderInv accepted s) : SenderInv accepted s.endInput :=
  h.agree ⟨rfl, rfl, rfl, rfl, rfl, rfl, rfl, rfl, rfl, fun _ => rfl, rfl, rfl⟩ h.again h.pending

/-- `fill_window` sets the FIN flag only when the stream has ended and is drained. -/
theorem fillWindow_drained (hold : s.finFlag = false) (hnew : s.fillWindow.finFlag = true) :
    s.fillWindow.stream.eof = true := by
  rcases fillWindow_cases s with ⟨hfin, -⟩ | ⟨-, -, heq⟩ | ⟨-, -, new, hfills, -⟩
  · rw [hfin] at hold; cases hold
  · rw [heq, sendSegment] at hnew
    rw [hold] at hnew
    cases hnew
  · rcases hfills.finFlag.mp hnew with hf | hf
    · rw [hf] at hold; cases hold
    · exact hfills.drained hf

/-- Whatever the operation, the FIN goes out only when the stream has ended and is drained. -/
theorem step_drained (op : SenderOp WrappingInt32) (hold : s.finFlag = false)
    (hnew : (s.step op).finFlag = true) : (s.step op).stream.eof = true := by
  cases op with
  | write data => rw [step, TCPSender.write, hold] at hnew; cases hnew
  | endInput => rw [step, TCPSender.endInput, hold] at hnew; cases hnew
  | fillWindow => exact fillWindow_drained hold hnew
  | ackReceived ackno w =>
      rw [step, ackReceived_eq] at hnew ⊢
      split at hnew
      · rw [hold] at hnew; cases hnew
      · next hb =>
          rw [if_neg hb]
          exact fillWindow_drained (by rw [acceptAck_finFlag]; exact hold) hnew
  | tick ms =>
      rw [step] at hnew
      rcases tick_cases s ms with ⟨_, heq⟩ | ⟨_, _, _, _, -, heq⟩ <;>
        · rw [heq, hold] at hnew
          cases hnew

/-! ## The outbound queue -/

/-- Nobody having taken anything out, the queue is the history of what was put in. -/
theorem segmentsOut_fillWindow (h : s.segmentsOut = s.queued) :
    s.fillWindow.segmentsOut = s.fillWindow.queued := by
  obtain ⟨new, hsends⟩ := fillWindow_sends s
  rw [hsends.segmentsOut, hsends.queued, h]

theorem segmentsOut_step (h : s.segmentsOut = s.queued) (op : SenderOp WrappingInt32) :
    (s.step op).segmentsOut = (s.step op).queued := by
  cases op with
  | write data => exact h
  | endInput => exact h
  | fillWindow => exact segmentsOut_fillWindow h
  | ackReceived ackno w =>
      rw [step, ackReceived_eq]
      split
      · exact h
      · refine segmentsOut_fillWindow ?_
        rw [acceptAck_segmentsOut, queued_acceptAck, h]
  | tick ms =>
      rw [step]
      rcases tick_cases s ms with ⟨_, heq⟩ | ⟨seg, _, _, _, -, heq⟩
      · rw [heq]; exact h
      · rw [heq]
        simp only [queued, List.filterMap_append]
        rw [h]
        rfl

/-- After `fill_window` the SYN was sent. -/
theorem synFlag_fillWindow (h : s.finFlag = true → s.synFlag = true) : s.fillWindow.synFlag = true := by
  rcases fillWindow_cases s with ⟨hfin, heq⟩ | ⟨-, -, heq⟩ | ⟨-, hsyn, new, hfills, -⟩
  · rw [heq]; exact h hfin
  · rw [heq]; rfl
  · rw [hfills.synFlag]; exact hsyn

theorem SenderInv.synFlag_step (h : SenderInv accepted s) {op : SenderOp WrappingInt32}
    (hop : s.synFlag = true ∨ op = .fillWindow) : (s.step op).synFlag = true := by
  have hfin (hfin : s.finFlag = true) : s.synFlag = true := by
    obtain ⟨seg, hseg, -⟩ := h.finFlag.mp hfin
    exact h.synFlag_of_mem hseg
  cases op with
  | write data => exact hop.resolve_right (fun hop => nomatch hop)
  | endInput => exact hop.resolve_right (fun hop => nomatch hop)
  | fillWindow => exact synFlag_fillWindow hfin
  | ackReceived ackno w =>
      have hsyn := hop.resolve_right (fun hop => nomatch hop)
      rw [step, ackReceived_eq]
      split
      · exact hsyn
      · exact synFlag_fillWindow fun _ => (acceptAck_synFlag _ _ _).trans hsyn
  | tick ms =>
      have hsyn := hop.resolve_right (fun hop => nomatch hop)
      rw [step]
      rcases tick_cases s ms with ⟨_, heq⟩ | ⟨seg, _, _, _, -, heq⟩
      · rw [heq]; exact hsyn
      · rw [heq]; exact hsyn

end TCPSender

/-! ## Runs -/

/-- A sender and the bytes its stream has accepted. -/
structure Feed where
  sender   : TCPSender
  accepted : List UInt8

namespace Feed

open TCPSender

def ofConfig (capacity : Nat) (retxTimeout : UInt16) (isn : WrappingInt32) : Feed :=
  ⟨TCPSender.ofConfig capacity retxTimeout isn, []⟩

def step (f : Feed) (op : SenderOp WrappingInt32) : Feed where
  sender   := f.sender.step op
  accepted := match op with
    | .write data => f.accepted ++ data.take (f.sender.stream.write data).2
    | _           => f.accepted

/-- The sender after a run. -/
def after (capacity : Nat) (retxTimeout : UInt16) (isn : WrappingInt32)
    (ops : List (SenderOp WrappingInt32)) : Feed :=
  run step (ofConfig capacity retxTimeout isn) ops

theorem senderInv_step {f : Feed} (h : SenderInv f.accepted f.sender) (op : SenderOp WrappingInt32) :
    SenderInv (f.step op).accepted (f.step op).sender := by
  cases op with
  | write data => exact h.write data
  | endInput => exact h.endInput
  | fillWindow => exact h.fillWindow
  | ackReceived ackno w => exact h.ackReceived ackno w
  | tick ms => exact h.tick ms

theorem isn_step (f : Feed) (op : SenderOp WrappingInt32) : (f.step op).sender.isn = f.sender.isn := by
  cases op with
  | write data => rfl
  | endInput => rfl
  | fillWindow => exact isn_fillWindow f.sender
  | ackReceived ackno w => exact isn_ackReceived f.sender ackno w
  | tick ms => exact isn_tick f.sender ms

/-- What holds after every run. -/
structure Inv (isn : WrappingInt32) (f : Feed) : Prop where
  sender : SenderInv f.accepted f.sender
  isn    : f.sender.isn = isn
  queue  : f.sender.segmentsOut = f.sender.queued

theorem inv_after (capacity : Nat) (retxTimeout : UInt16) (isn : WrappingInt32)
    (ops : List (SenderOp WrappingInt32)) : Inv isn (after capacity retxTimeout isn ops) := by
  refine run_invariant ops (Inv isn) ⟨SenderInv.init _ _ _, rfl, rfl⟩ fun f op h => ?_
  exact ⟨senderInv_step h.sender op, (isn_step f op).trans h.isn, segmentsOut_step h.queue op⟩

/-- From the first `fill_window` on, the SYN was sent. -/
theorem synFlag_after {capacity : Nat} {retxTimeout : UInt16} {isn : WrappingInt32}
    {ops : List (SenderOp WrappingInt32)} (h : .fillWindow ∈ ops) :
    (after capacity retxTimeout isn ops).sender.synFlag = true := by
  refine (run_history ops (fun hist (f : Feed) => SenderInv f.accepted f.sender ∧
    (.fillWindow ∈ hist → f.sender.synFlag = true)) ⟨SenderInv.init capacity retxTimeout isn, ?_⟩ ?_).2 h
  · intro hmem
    cases hmem
  · rintro hist f op ⟨hinv, hsyn⟩ -
    refine ⟨senderInv_step hinv op, fun hmem => hinv.synFlag_step ?_⟩
    rcases List.mem_append.mp hmem with hold | hlast
    · exact Or.inl (hsyn hold)
    · exact Or.inr (List.mem_singleton.mp hlast).symm

/-- **The sender's segments partition the stream.** In every run, the segments sent for the first time are
    a SYN with the ISN followed by segments that carry exactly the bytes read from the stream, each numbered
    with the lengths of those before it, none too long, none empty but for a SYN or FIN, and none after a
    FIN; there are none at all only before the first `fill_window`. The queue holds these and retransmissions,
    which are copies of them, and a FIN goes out only in a step after which the stream is ended and drained. -/
theorem segments_partition (capacity : Nat) (retxTimeout : UInt16) (isn : WrappingInt32)
    (ops : List (SenderOp WrappingInt32)) :
    let f := after capacity retxTimeout isn ops
    let segs := f.sender.firstSent
    ((segs = [] ∧ .fillWindow ∉ ops) ∨
      ∃ rest, segs = synSegment isn :: rest ∧ ∀ seg ∈ rest, seg.header.syn = false) ∧
    payloads segs = f.accepted.take f.sender.stream.bytesRead ∧
    (∀ before seg later, segs = before ++ seg :: later →
      seg.header.seqno = wrap (extent lengthInSequenceSpace before) isn ∧
      seg.payload.length ≤ TCPConfig.maxPayloadSize ∧
      (seg.payload = [] → seg.header.syn = true ∨ seg.header.fin = true) ∧
      (seg.header.fin = true → later = [])) ∧
    f.sender.nextSeqno = extent lengthInSequenceSpace segs ∧
    f.sender.segmentsOut = f.sender.queued ∧
    (∀ seg ∈ f.sender.sentAgain, seg ∈ segs) ∧
    (∀ op, (¬ ∃ seg ∈ segs, seg.header.fin = true) →
      (∃ seg ∈ (f.step op).sender.firstSent, seg.header.fin = true) →
      (f.step op).sender.stream.inputEnded = true ∧ (f.step op).sender.stream.bufferEmpty = true) := by
  intro f segs
  obtain ⟨hinv, hisn, hqueue⟩ : Inv isn f := inv_after capacity retxTimeout isn ops
  refine ⟨?_, ?_, fun before seg later hsplit => ⟨?_, ?_, ?_, ?_⟩, hinv.next, hqueue, hinv.again, ?_⟩
  · cases hs : f.sender.synFlag with
    | false =>
        refine Or.inl ⟨hinv.fresh hs, fun hmem => ?_⟩
        exact absurd ((synFlag_after hmem).symm.trans hs) Bool.noConfusion
    | true =>
        obtain ⟨rest, hrest, hdata⟩ := hinv.opened hs
        rw [hisn] at hrest
        exact Or.inr ⟨rest, hrest, fun seg hseg => (hdata seg hseg).syn⟩
  · rw [ByteStream.bytesRead, hinv.read, ← hinv.bytes, List.take_left']
    rfl
  · have hnum := laid_iff.mp hinv.numbered before seg later hsplit
    rw [Nat.zero_add, hisn] at hnum
    exact hnum
  · rcases hinv.shape_of_mem (hsplit ▸ List.mem_append_right _ List.mem_cons_self) with rfl | hd
    · exact Nat.zero_le _
    · exact hd.bound
  · intro hempty
    rcases hinv.shape_of_mem (hsplit ▸ List.mem_append_right _ List.mem_cons_self) with rfl | hd
    · exact Or.inl rfl
    · exact Or.inr (hd.used.resolve_left (not_not_intro hempty))
  · exact hinv.later_eq_nil hsplit
  · intro op hnone hsome
    have hnone : f.sender.finFlag = false := by
      rw [← Bool.not_eq_true, hinv.finFlag]; exact hnone
    have hsome := (senderInv_step hinv op).finFlag.mpr hsome
    have heof := step_drained op hnone hsome
    rw [ByteStream.eof, Bool.and_eq_true] at heof
    exact heof

end Feed

end Sponge
