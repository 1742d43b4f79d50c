import Sponge.TCPState
import Sponge.Sender.Closing

/-!
# `Sender.Accounting` — what is in flight, and what the sender's summary makes of it

The counter of bytes in flight and the queue of outstanding segments are updated separately. They agree in every
run, whatever acknowledgments arrive: the queue is the last part of what was sent, and the counter is its extent
(`in_flight_accounting`).

`TCPState` reads the progress of the sender off this counter, the next sequence number and the stream. In terms of
the history it asks whether anything was sent, anything acknowledged, the FIN sent, everything acknowledged
(`senderSummary_eq`). None of these is ever undone, so the summary only moves forward (`summary_forward`).
-/

namespace Sponge

open Lib TCPSegment

namespace TCPSender

variable {s s' : TCPSender} {accepted : List UInt8}

/-! ## The outstanding queue -/

/-- The counter of the dropping loop is at every turn the extent of what is left of the queue. -/
theorem SenderInv.counter_of_split {dropped rest : List TCPSegment} (h : SenderInv accepted s)
    (hsplit : s.outSegments = dropped ++ rest) :
    dropped.foldl (fun n seg => usub 64 n seg.lengthInSequenceSpace) s.bytesInFlight =
      extent lengthInSequenceSpace rest := by
  rw [h.inFlight, hsplit]
  exact foldl_usub_extent dropped rest

/-- What was dropped and what is outstanding make up what was sent. -/
theorem SenderInv.extent_acked_add (h : SenderInv accepted s) :
    extent lengthInSequenceSpace s.acked + extent lengthInSequenceSpace s.outSegments = s.nextSeqno := by
  rw [h.next, h.queue, extent_append]

theorem outSegments_tick (s : TCPSender) (ms : Nat) :
    (s.tick ms).outSegments = s.outSegments ∧ (s.tick ms).bytesInFlight = s.bytesInFlight := by
  rcases tick_cases s ms with ⟨_, heq⟩ | ⟨_, _, _, _, -, heq⟩ <;>
    · rw [heq]
      exact ⟨rfl, rfl⟩

end TCPSender

open TCPSender

namespace Feed

/-- **In-flight accounting.** In every run the outstanding queue is the last part of the segments sent, numbered
    end to end up to the next sequence number; the counter is the extent of the queue, which is the distance of
    its oldest segment from the next sequence number. Every subtraction of the dropping loop has enough to
    subtract from, and neither a tick nor a rejected acknowledgment changes the queue or the counter. -/
theorem in_flight_accounting (capacity : Nat) (retxTimeout : UInt16) (isn : WrappingInt32)
    (ops : List (SenderOp WrappingInt32)) :
    let s := (after capacity retxTimeout isn ops).sender
    (∃ before, s.firstSent = before ++ s.outSegments ∧
      Laid lengthInSequenceSpace (fun n seg => seg.header.seqno = wrap n isn)
        (extent lengthInSequenceSpace before) s.outSegments ∧
      extent lengthInSequenceSpace before + extent lengthInSequenceSpace s.outSegments = s.nextSeqno ∧
      s.bytesInFlight = s.nextSeqno - extent lengthInSequenceSpace before) ∧
    s.bytesInFlight = extent lengthInSequenceSpace s.outSegments ∧
    (∀ dropped seg rest, s.outSegments = dropped ++ seg :: rest →
      seg.lengthInSequenceSpace ≤
        dropped.foldl (fun n seg => usub 64 n seg.lengthInSequenceSpace) s.bytesInFlight) ∧
    (∀ ms, (s.tick ms).outSegments = s.outSegments ∧ (s.tick ms).bytesInFlight = s.bytesInFlight) ∧
    ∀ ackno w, s.ackBeyond ackno = true →
      (s.ackReceived ackno w).outSegments = s.outSegments ∧
        (s.ackReceived ackno w).bytesInFlight = s.bytesInFlight := by
  intro s
  obtain ⟨hinv, hisn, -⟩ := inv_after capacity retxTimeout isn ops
  have hsum := hinv.extent_acked_add
  have hcount := hinv.inFlight
  refine ⟨⟨s.acked, hinv.queue, ?_, hsum, ?_⟩, hcount, ?_, outSegments_tick s, ?_⟩
  · rw [← hisn]
    exact hinv.laid_outSegments
  · show s.bytesInFlight = s.nextSeqno - extent lengthInSequenceSpace s.acked
    rw [hcount, ← hsum]
    exact (Nat.add_sub_cancel_left _ _).symm
  · intro dropped seg rest hsplit
    rw [hinv.counter_of_split hsplit, extent_cons]
    exact Nat.le_add_right _ _
  · intro ackno w hbeyond
    rw [ackReceived_eq, if_pos hbeyond]
    exact ⟨rfl, rfl⟩

end Feed

/-! ## The summary -/

/-- The order of the stages of a sender that is not in error. -/
def TCPSenderStateSummary.stage : TCPSenderStateSummary → Nat
  | .closed   => 0
  | .synSent  => 1
  | .synAcked => 2
  | .finSent  => 3
  | .finAcked => 4
  | .error    => 5

namespace TCPSender

variable {s s' : TCPSender} {accepted : List UInt8}

/-- Every segment sent has a length. -/
theorem SenderInv.pos_of_mem {seg : TCPSegment} (h : SenderInv accepted s) (hseg : seg ∈ s.firstSent) :
    0 < seg.lengthInSequenceSpace := by
  rcases h.shape_of_mem hseg with rfl | hd
  · exact Nat.one_pos
  · exact hd.pos

/-- Segments of the history with no extent are none. -/
theorem SenderInv.extent_eq_zero {segs : List TCPSegment} (h : SenderInv accepted s)
    (hsub : ∀ seg ∈ segs, seg ∈ s.firstSent) : extent lengthInSequenceSpace segs = 0 ↔ segs = [] := by
  apply extent_eq_zero_iff
  exact fun seg hseg => h.pos_of_mem (hsub seg hseg)

/-- The end of the stream together with the number of bytes written tells whether the FIN is out. -/
theorem SenderInv.finFlag_iff (h : SenderInv accepted s) (hd : Drained s) (hsyn : s.synFlag = true) :
    s.finFlag = true ↔ s.stream.eof = true ∧ s.stream.bytesWritten + 2 ≤ s.nextSeqno := by
  have hlen := congrArg List.length h.bytes
  have hnext := h.nextSeqno_eq hsyn
  have hwritten : s.stream.bytesWritten = accepted.length := h.written
  rw [List.length_append] at hlen
  change s.sentBytes.length + s.stream.buf.length = accepted.length at hlen
  constructor
  · intro hfin
    rw [hd hfin, List.length_nil] at hlen
    rw [hfin, if_pos rfl] at hnext
    refine ⟨(ByteStream.eof_iff _).mpr ⟨h.ended hfin, hd hfin⟩, ?_⟩
    omega
  · rintro ⟨-, hle⟩
    by_contra hfin
    rw [if_neg hfin] at hnext
    omega

/-- **The summary in terms of the history.** -/
theorem senderSummary_eq (h : SenderInv accepted s) (hd : Drained s) (herr : s.stream.error = false) :
    TCPState.senderSummary s =
      if s.firstSent = [] then .closed
      else if s.acked = [] then .synSent
      else if s.finFlag = false then .synAcked
      else if s.outSegments ≠ [] then .finSent
      else .finAcked := by
  have hsum := h.extent_acked_add
  have hflight := h.inFlight
  have hmem : ∀ seg ∈ s.acked ++ s.outSegments, seg ∈ s.firstSent := by rw [h.queue]; exact fun _ => id
  have hfirst : s.nextSeqno = 0 ↔ s.firstSent = [] := by
    rw [h.next]
    exact h.extent_eq_zero fun _ => id
  have hacked : s.nextSeqno = s.bytesInFlight ↔ s.acked = [] := by
    rw [← h.extent_eq_zero fun seg hseg => hmem seg (List.mem_append_left _ hseg)]
    omega
  have hout : s.bytesInFlight ≠ 0 ↔ s.outSegments ≠ [] := by
    rw [hflight]
    exact not_congr (h.extent_eq_zero fun seg hseg => hmem seg (List.mem_append_right _ hseg))
  unfold TCPState.senderSummary
  rw [herr, if_neg Bool.false_ne_true]
  simp only [hfirst, hacked, hout]
  by_cases hnone : s.firstSent = []
  · rw [if_pos hnone, if_pos hnone]
  · obtain ⟨seg, hseg⟩ := List.exists_mem_of_ne_nil _ hnone
    have hfin := h.finFlag_iff hd (h.synFlag_of_mem hseg)
    rw [if_neg hnone, if_neg hnone]
    congr 1
    -- the two tests of the source for an unfinished stream are one
    by_cases hflag : s.finFlag = true
    · obtain ⟨heof, hle⟩ := hfin.mp hflag
      have hsent : ¬ s.finFlag = false := by rw [hflag]; exact Bool.noConfusion
      have hend : ¬ s.stream.eof = false := by rw [heof]; exact Bool.noConfusion
      rw [if_neg hend, if_neg (Nat.not_lt.mpr hle), if_neg hsent]
    · rw [Bool.not_eq_true] at hflag
      rw [if_pos hflag]
      by_cases heof : s.stream.eof = false
      · rw [if_pos heof]
      · rw [if_neg heof, if_pos]
        by_contra hle
        rw [Bool.not_eq_false] at heof
        rw [hfin.mpr ⟨heof, by omega⟩] at hflag
        cases hflag

/-- What is never undone from `s` to `s'`. -/
structure Advances (s s' : TCPSender) : Prop where
  grows : Grows s s'
  acked : s.acked <+: s'.acked

theorem advances_fillWindow (s : TCPSender) : Advances s s.fillWindow :=
  ⟨grows_fillWindow s, by rw [acked_fillWindow]⟩

theorem advances_ackReceived (s : TCPSender) (ackno : WrappingInt32) (w : UInt16) :
    Advances s (s.ackReceived ackno w) := by
  refine ⟨grows_ackReceived s ackno w, ?_⟩
  rw [ackReceived_eq]
  split
  · exact List.prefix_refl _
  · rw [acked_fillWindow, acked_acceptAck]
    exact List.prefix_append _ _

theorem advances_step (s : TCPSender) (op : SenderOp WrappingInt32) : Advances s (s.step op) := by
  cases op with
  | write data => exact ⟨Grows.of_eq rfl rfl rfl, List.prefix_refl _⟩
  | endInput => exact ⟨Grows.of_eq rfl rfl rfl, List.prefix_refl _⟩
  | fillWindow => exact advances_fillWindow s
  | ackReceived ackno w => exact advances_ackReceived s ackno w
  | tick ms => exact ⟨grows_tick s ms, by rw [step, acked_tick]⟩

/-- A finished sender with nothing outstanding has nothing outstanding ever after. -/
theorem Advances.outSegments {accepted' : List UInt8} (ha : Advances s s') (h : SenderInv accepted s)
    (h' : SenderInv accepted' s') (hfin : s.finFlag = true) (hempty : s.outSegments = []) :
    s'.outSegments = [] := by
  have hsame := ha.grows.final hfin
  have hlen := congrArg List.length h'.queue
  have hle := ha.acked.length_le
  rw [hsame, h.queue, hempty, List.append_nil, List.length_append] at hlen
  exact List.length_eq_zero_iff.mp (by omega)

/-- **What is never undone keeps the summary from going back.** -/
theorem Advances.stage_le {accepted' : List UInt8} (ha : Advances s s') (h : SenderInv accepted s)
    (h' : SenderInv accepted' s') (hd : Drained s) (hd' : Drained s') (herr : s.stream.error = false)
    (herr' : s'.stream.error = false) :
    (TCPState.senderSummary s).stage ≤ (TCPState.senderSummary s').stage := by
  have hfirst : s'.firstSent = [] → s.firstSent = [] := by
    intro hnil
    have := ha.grows.sent
    rw [hnil] at this
    exact List.prefix_nil.mp this
  have hacked : s'.acked = [] → s.acked = [] := by
    intro hnil
    have := ha.acked
    rw [hnil] at this
    exact List.prefix_nil.mp this
  have hfin : s'.finFlag = false → s.finFlag = false := by
    intro hno
    by_contra hyes
    rw [ha.grows.finFlag (by simpa using hyes)] at hno
    cases hno
  have hout := ha.outSegments h h'
  rw [senderSummary_eq h hd herr, senderSummary_eq h' hd' herr']
  by_cases h₁ : s'.firstSent = []
  · rw [if_pos (hfirst h₁)]
    exact Nat.zero_le _
  by_cases h₂ : s'.acked = []
  · rw [if_neg h₁, if_pos h₂, if_pos (hacked h₂)]
    split <;> decide
  by_cases h₃ : s'.finFlag = false
  · rw [if_neg h₁, if_neg h₂, if_pos h₃, if_pos (hfin h₃)]
    split_ifs <;> decide
  by_cases h₄ : s'.outSegments ≠ []
  · rw [if_neg h₁, if_neg h₂, if_neg h₃, if_pos h₄]
    by_cases hflag : s.finFlag = true
    · rw [if_pos (fun hempty => h₄ (hout hflag hempty))]
      split_ifs <;> decide
    · rw [Bool.not_eq_true] at hflag
      rw [if_pos hflag]
      split_ifs <;> decide
  · rw [if_neg h₁, if_neg h₂, if_neg h₃, if_neg h₄]
    split_ifs <;> decide

/-- Bytes are written only before the end of the input. -/
def WritesBeforeEnd (f : Feed) : SenderOp WrappingInt32 → Prop
  | .write _ => f.sender.stream.inputEnded = false
  | _        => True

instance (f : Feed) : (op : SenderOp WrappingInt32) → Decidable (WritesBeforeEnd f op)
  | .write _ => inferInstanceAs (Decidable (f.sender.stream.inputEnded = false))
  | .endInput | .fillWindow | .ackReceived _ _ | .tick _ => inferInstanceAs (Decidable True)

theorem Drained.step {f : Feed} {op : SenderOp WrappingInt32} (hd : Drained f.sender)
    (h : SenderInv f.accepted f.sender) (hok : WritesBeforeEnd f op) : Drained (f.step op).sender := by
  cases op with
  | write data =>
      intro hfin
      have hend : f.sender.stream.isEof = true := h.ended hfin
      have hok : f.sender.stream.isEof = false := hok
      rw [hok] at hend
      cases hend
  | endInput => exact hd
  | fillWindow => exact hd.fillWindow
  | ackReceived ackno w => exact hd.ackReceived ackno w
  | tick ms => exact hd.tick ms

theorem error_step (s : TCPSender) (op : SenderOp WrappingInt32) :
    (s.step op).stream.error = s.stream.error := by
  cases op with
  | write data => rfl
  | endInput => rfl
  | fillWindow => exact (streamFlags_fillWindow s).2
  | ackReceived ackno w => exact (streamFlags_ackReceived s ackno w).2
  | tick ms => exact congrArg _ (stream_tick s ms)

end TCPSender

namespace Feed

/-- What holds along a run that writes only before the end. -/
structure Clean (f : Feed) : Prop where
  sender  : SenderInv f.accepted f.sender
  drained : Drained f.sender
  error   : f.sender.stream.error = false

theorem Clean.step {f : Feed} {op : SenderOp WrappingInt32} (h : Clean f) (hok : WritesBeforeEnd f op) :
    Clean (f.step op) :=
  ⟨senderInv_step h.sender op, h.drained.step h.sender hok, (error_step f.sender op).trans h.error⟩

theorem Clean.stage_le {f : Feed} {op : SenderOp WrappingInt32} (h : Clean f) (h' : Clean (f.step op)) :
    (TCPState.senderSummary f.sender).stage ≤ (TCPState.senderSummary (f.step op).sender).stage :=
  (advances_step f.sender op).stage_le h.sender h'.sender h.drained h'.drained h.error h'.error

/-- Whatever comes after a clean state, the summary does not go back. -/
theorem Clean.stage_le_run {f : Feed} (h : Clean f) {ops : List (SenderOp WrappingInt32)}
    (hok : Guarded Feed.step WritesBeforeEnd f ops) :
    Clean (run Feed.step f ops) ∧
      (TCPState.senderSummary f.sender).stage ≤
        (TCPState.senderSummary (run Feed.step f ops).sender).stage := by
  refine hok.invariant (fun f' => Clean f' ∧
    (TCPState.senderSummary f.sender).stage ≤ (TCPState.senderSummary f'.sender).stage)
    ⟨h, le_refl _⟩ fun f' op hf' hop => ?_
  have hnext := hf'.1.step hop
  exact ⟨hnext, hf'.2.trans (hf'.1.stage_le hnext)⟩

/-- **The sender's summary only moves forward.** In every run in which bytes are written only before the end of
    the input, the summary at every later moment is the same or a later stage, and it is never the error. -/
theorem summary_forward (capacity : Nat) (retxTimeout : UInt16) (isn : WrappingInt32)
    (ops : List (SenderOp WrappingInt32))
    (h : Guarded step WritesBeforeEnd (ofConfig capacity retxTimeout isn) ops) :
    ∀ pre mid, pre <+: mid → mid <+: ops →
      TCPState.senderSummary (after capacity retxTimeout isn mid).sender ≠ .error ∧
      (TCPState.senderSummary (after capacity retxTimeout isn pre).sender).stage ≤
        (TCPState.senderSummary (after capacity retxTimeout isn mid).sender).stage := by
  rintro pre mid ⟨later, rfl⟩ hmid
  obtain ⟨hpre, hlater⟩ := Guarded.append.mp (h.of_isPrefix hmid)
  have hinit : Clean (ofConfig capacity retxTimeout isn) :=
    ⟨SenderInv.init _ _ _, (by intro hf; cases hf), rfl⟩
  obtain ⟨hclean, -⟩ := hinit.stage_le_run hpre
  obtain ⟨hend, hle⟩ := hclean.stage_le_run hlater
  rw [after, after, run_append]
  refine ⟨?_, hle⟩
  rw [senderSummary_eq hend.sender hend.drained hend.error]
  split_ifs <;> decide

/-- A stream of one byte, from the SYN to the acknowledged FIN. -/
theorem summary_forward_to_the_end :
    Guarded step WritesBeforeEnd (ofConfig 20 1000 (.ofRaw 5))
      [.fillWindow, .ackReceived (.ofRaw 6) 10, .write [7], .endInput, .fillWindow, .tick 1000,
        .ackReceived (.ofRaw 8) 10] ∧
    (TCPState.senderSummary (after 20 1000 (.ofRaw 5) [.fillWindow]).sender).stage ≤
      (TCPState.senderSummary (after 20 1000 (.ofRaw 5) [.fillWindow, .ackReceived (.ofRaw 6) 10, .write [7],
        .endInput, .fillWindow, .tick 1000, .ackReceived (.ofRaw 8) 10]).sender).stage :=
  ⟨by decide +kernel, (summary_forward 20 1000 (.ofRaw 5) _ (by decide +kernel) [.fillWindow] _
    (List.prefix_append _ _) (List.prefix_refl _)).2⟩

end Feed

end Sponge
