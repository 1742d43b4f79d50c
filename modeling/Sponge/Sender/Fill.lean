import Sponge.Sender.Acknowledge
import Sponge.Sender.FlowControl

/-!
# `Sender.Fill` — `fill_window` fills exactly the window

The segments the loop of `fill_window` cuts are full but for the last one: a short segment means that the room is
used up, that the stream is drained, or that the FIN is out, and in each case the next round does not happen
(`round_short`). For the same reason a FIN travels alone only if there was nothing else to send: had it fitted
behind the last bytes, it would have gone with them (`round_drained`).

`fill_window_exact` puts this together with how much is sent, in absolute numbers.
-/

namespace Sponge

open Lib TCPSegment

namespace TCPSender

variable {s : TCPSender} {accepted : List UInt8}

/-! ## One round -/

section Round

variable (hgo : s.remain ≠ 0 ∧ s.finFlag = false)
  (hne : (s.takeSegment s.remain).2.lengthInSequenceSpace ≠ 0)

include hgo hne

/-- A round that leaves the stream at its end has sent the FIN or used up the room. -/
theorem round_drained (heof : s.round.stream.eof = true) :
    s.round.finFlag = true ∨ s.round.remain = 0 := by
  have hround := fills_round hgo.2 hne
  have hremain := remain_round hgo.2 hne
  rcases takeSegment_cases s s.remain with ⟨-, -, heq⟩ | ⟨hno, heq⟩
  · left
    rw [hround.finFlag, heq]
    exact Or.inr ⟨_, List.mem_cons_self, rfl⟩
  · right
    have hstream : s.round.stream = (s.stream.read (min s.remain TCPConfig.maxPayloadSize)).2 := by
      rw [round, heq]; rfl
    have hfull : ¬ (s.stream.buf.take (min s.remain TCPConfig.maxPayloadSize)).length + 1 ≤ s.remain := by
      intro hroom
      exact hno ⟨hstream ▸ heof, hroom⟩
    rw [hremain, heq]
    simp only [lengthInSequenceSpace, Bool.false_eq_true, if_false, Nat.add_zero]
    omega

/-- After a segment that is not full the loop stops. -/
theorem round_short (hshort : (s.takeSegment s.remain).2.payload.length ≠ TCPConfig.maxPayloadSize) :
    s.round.finFlag = true ∨ s.round.remain = 0 ∨ s.round.avail = 0 := by
  have hround := fills_round hgo.2 hne
  have hremain := remain_round hgo.2 hne
  have hbuf := congrArg List.length hround.buf
  have hpayload : (s.takeSegment s.remain).2.payload =
      s.stream.buf.take (min s.remain TCPConfig.maxPayloadSize) := by
    rcases takeSegment_cases s s.remain with ⟨-, -, heq⟩ | ⟨-, heq⟩ <;> rw [heq]
  rw [payloads_cons, payloads_nil, List.append_nil, List.length_append] at hbuf
  have hle : (s.takeSegment s.remain).2.payload.length ≤
      (s.takeSegment s.remain).2.lengthInSequenceSpace := by
    unfold lengthInSequenceSpace
    omega
  rw [hpayload, List.length_take] at hshort hbuf hle
  by_cases hused : s.remain ≤ s.stream.buf.length
  · -- the room was the bound
    right; left
    omega
  · have hempty : s.round.stream.buf = [] := List.length_eq_zero_iff.mp (by omega)
    by_cases hend : s.round.stream.isEof = true
    · rcases round_drained hgo hne ((ByteStream.eof_iff _).mpr ⟨hend, hempty⟩) with hfin | hzero
      · exact Or.inl hfin
      · exact Or.inr (Or.inl hzero)
    · right; right
      rw [avail, hempty, if_neg hend]
      rfl

end Round

/-! ## The loop -/

/-- With the FIN out, no room, or nothing to send, the loop sends nothing. -/
theorem fillLoop_stopped (h : s.finFlag = true ∨ s.remain = 0 ∨ s.avail = 0) :
    s.fillLoop.1.outSegments = s.outSegments := by
  obtain ⟨new, hfills, -, htotal⟩ := fillLoop_spec s
  suffices new = [] by rw [hfills.outSegments, this, List.append_nil]
  rcases h with hfin | hrest
  · exact hfills.idle hfin
  · cases new with
    | nil => rfl
    | cons seg new =>
        have hpos := (hfills.shape seg List.mem_cons_self).pos
        cases hfin : s.finFlag with
        | true => exact hfills.idle hfin
        | false =>
            have htotal := htotal hfin
            rw [extent_cons] at htotal
            omega

/-- Every segment with another one after it is full. -/
def Packed (new : List TCPSegment) : Prop :=
  new.Pairwise fun seg _ => seg.payload.length = TCPConfig.maxPayloadSize

/-- A segment without payload is sent only if the stream was at its end before. -/
theorem eof_of_payload_nil (hgo : s.remain ≠ 0 ∧ s.finFlag = false)
    (hne : (s.takeSegment s.remain).2.lengthInSequenceSpace ≠ 0)
    (hnone : (s.takeSegment s.remain).2.payload = []) : s.stream.eof = true := by
  have hmax : TCPConfig.maxPayloadSize = 1452 := rfl
  rcases takeSegment_cases s s.remain with ⟨heof, -, heq⟩ | ⟨-, heq⟩
  · rw [heq] at hnone
    rw [ByteStream.eof_iff] at heof ⊢
    refine ⟨heof.1, ?_⟩
    rcases List.take_eq_nil_iff.mp hnone with hzero | hbuf
    · omega
    · exact hbuf
  · rw [heq] at hne hnone
    simp only at hnone
    simp [lengthInSequenceSpace, hnone] at hne

/-- **The segments of the loop** are full but for the last one, and there is one without payload only if the stream
    was at its end already. -/
theorem fillLoop_packed (s : TCPSender) :
    ∃ new, s.fillLoop.1.outSegments = s.outSegments ++ new ∧ Packed new ∧
      ∀ seg ∈ new, seg.payload = [] → s.stream.eof = true := by
  induction s using fillLoop.induct with
  | case1 s hgo hempty =>
      refine ⟨[], ?_, List.Pairwise.nil, by simp⟩
      rw [fillLoop, if_pos hgo, if_pos hempty, List.append_nil]
      rcases takeSegment_cases s s.remain with ⟨-, -, heq⟩ | ⟨-, heq⟩ <;> rw [heq]
  | case2 s hgo hlen ih =>
      obtain ⟨new, hout, hpacked, halone⟩ := ih
      change s.round.fillLoop.1.outSegments = s.round.outSegments ++ new at hout
      change ∀ seg ∈ new, seg.payload = [] → s.round.stream.eof = true at halone
      have hround := fills_round hgo.2 hlen
      -- a round after which the loop stops is the last one
      have hlast : s.round.finFlag = true ∨ s.round.remain = 0 ∨ s.round.avail = 0 → new = [] := by
        intro hstop
        rw [fillLoop_stopped hstop] at hout
        exact List.append_right_eq_self.mp hout.symm
      refine ⟨(s.takeSegment s.remain).2 :: new, ?_, ?_, ?_⟩
      · rw [fillLoop, if_pos hgo, if_neg hlen]
        change s.round.fillLoop.1.outSegments = _
        rw [hout, hround.outSegments, List.append_assoc]
        rfl
      · refine List.pairwise_cons.mpr ⟨?_, hpacked⟩
        intro next hnext
        by_contra hshort
        rw [hlast (round_short hgo hlen hshort)] at hnext
        cases hnext
      · intro seg hseg hnone
        rcases List.mem_cons.mp hseg with rfl | hmem
        · exact eof_of_payload_nil hgo hlen hnone
        · -- the FIN would have gone with the last bytes
          rcases round_drained hgo hlen (halone seg hmem hnone) with hfin | hzero
          · rw [hlast (Or.inl hfin)] at hmem
            cases hmem
          · rw [hlast (Or.inr (Or.inl hzero))] at hmem
            cases hmem
  | case3 s hstop =>
      refine ⟨[], ?_, List.Pairwise.nil, by simp⟩
      rw [fillLoop, if_neg hstop, List.append_nil]

/-! ## `fill_window` -/

/-- **The segments of `fill_window`**: as `Fills` says, full but for the last one, and one without payload only if
    the stream was at its end already. -/
theorem fillWindow_packed (hfin : s.finFlag = false) (hsyn : s.synFlag = true) :
    ∃ new, Fills s new s.fillWindow ∧ extent lengthInSequenceSpace new = min s.room s.avail ∧ Packed new ∧
      ∀ seg ∈ new, seg.payload = [] → s.stream.eof = true := by
  rcases fillWindow_cases s with ⟨hfin', -⟩ | ⟨-, hsyn', -⟩ | ⟨-, -, new, hfills, htotal⟩
  · rw [hfin] at hfin'; cases hfin'
  · rw [hsyn] at hsyn'; cases hsyn'
  · obtain ⟨new', hout, hpacked, halone⟩ := fillLoop_packed s.widened
    have hsame : s.outSegments ++ new = s.outSegments ++ new' := by
      rw [← hfills.outSegments, fillWindow_loop hfin hsyn]
      exact hout
    rw [← List.append_cancel_left hsame] at hpacked halone
    exact ⟨new, hfills, htotal, hpacked, halone⟩

/-- If everything there is to send was sent and the stream has ended, the FIN is the last of it. -/
theorem Fills.fin_last {s' : TCPSender} {new : List TCPSegment} (h : Fills s new s')
    (hend : s.stream.isEof = true) (hall : extent lengthInSequenceSpace new = s.avail) :
    ∃ before last, new = before ++ [last] ∧ last.header.fin = true := by
  have hsent : ∃ seg ∈ new, seg.header.fin = true := by
    by_contra hnone
    have hsum := h.extent_add_avail
    rw [if_neg hnone, avail, h.isEof, hend, if_pos rfl] at hsum
    omega
  obtain ⟨seg, hseg, hfin⟩ := hsent
  obtain ⟨before, later, rfl⟩ := List.append_of_mem hseg
  have hafter := (List.pairwise_cons.mp (List.pairwise_append.mp h.finLast).2.1).1
  cases later with
  | nil => exact ⟨before, seg, rfl, hfin⟩
  | cons next later =>
      rw [hafter next List.mem_cons_self] at hfin
      cases hfin

/-- `recorded` is the absolute number of the recorded acknowledgment. -/
structure Records (s : TCPSender) (recorded : Nat) : Prop where
  ackGot : s.ackGot = wrap recorded s.isn
  sent   : recorded ≤ s.nextSeqno

/-- There always is one. -/
theorem AckBound.records (h : AckBound s) : Records s (s.ackGot.rawValue - s.isn.rawValue) := by
  have hlow := h.low
  have hgot := s.ackGot.isLt
  constructor
  · ext
    rw [rawValue_wrap]
    omega
  · by_cases hlt : s.isn.rawValue + s.nextSeqno < 2 ^ 32
    · have hhigh := h.high hlt
      omega
    · omega

/-- Up to the FIN, what was sent and what is there to send are the SYN, the bytes written, and the FIN once the
    input has ended. -/
theorem SenderInv.nextSeqno_add_avail (h : SenderInv accepted s) (hsyn : s.synFlag = true)
    (hfin : s.finFlag = false) :
    s.nextSeqno + s.avail = 1 + s.stream.bytesWritten + (if s.stream.inputEnded then 1 else 0) := by
  have hlen := congrArg List.length h.bytes
  have hnext := h.nextSeqno_eq hsyn
  have hwritten : s.stream.bytesWritten = accepted.length := h.written
  rw [List.length_append] at hlen
  rw [hfin, if_neg Bool.false_ne_true] at hnext
  rw [hnext, hwritten, ← hlen, avail, sentBytes, ByteStream.inputEnded]
  omega

end TCPSender

open TCPSender

namespace Feed

/-- **`fill_window` fills exactly the window.** In every state whose SYN has been sent and whose FIN has not, with
    everything sent inside the window that starts at the recorded acknowledgment, `fill_window` sends up to the end
    of the window or of what there is to send, whichever comes first. All the new segments but the last are full,
    and if the input has ended and the FIN fits, it is on the last of them, together with bytes if any were left. -/
theorem fill_window_exact (capacity : Nat) (retxTimeout : UInt16) (isn : WrappingInt32)
    (ops : List (SenderOp WrappingInt32)) :
    let s := (after capacity retxTimeout isn ops).sender
    let window := max 1 s.trueWindowSize.toNat
    (∃ recorded, Records s recorded) ∧
    ∀ recorded, (∃ seg ∈ s.firstSent, seg.header.syn = true) → (∀ seg ∈ s.firstSent, seg.header.fin = false) →
      Records s recorded → s.nextSeqno - recorded ≤ window →
      s.fillWindow.nextSeqno = min (recorded + window)
        (1 + s.stream.bytesWritten + (if s.stream.inputEnded then 1 else 0)) ∧
      ∃ new, s.fillWindow.firstSent = s.firstSent ++ new ∧
        (∀ before seg later, new = before ++ seg :: later → later ≠ [] →
          seg.payload.length = TCPConfig.maxPayloadSize) ∧
        (s.stream.inputEnded = true → 1 + s.stream.bytesWritten + 1 ≤ recorded + window →
          ∃ before last, new = before ++ [last] ∧ last.header.fin = true ∧
            (s.stream.bufferEmpty = false → last.payload ≠ [])) := by
  intro s window
  have htracked := tracked_after capacity retxTimeout isn ops
  have hinv : SenderInv _ s := htracked.sender
  refine ⟨⟨_, htracked.ack.records⟩, ?_⟩
  rintro recorded ⟨syn, hsyn, -⟩ hnofin hrec hin
  have hsyn : s.synFlag = true := hinv.synFlag_of_mem hsyn
  have hfin : s.finFlag = false := by
    rw [← Bool.not_eq_true, hinv.finFlag]
    rintro ⟨seg, hseg, hf⟩
    rw [hnofin seg hseg] at hf
    cases hf
  obtain ⟨new, hfills, htotal, hpacked, halone⟩ := fillWindow_packed hfin hsyn
  have hroom : s.nextSeqno + s.room = recorded + window :=
    Flow.room_eq hrec.ackGot hrec.sent (by omega)
  have havail := hinv.nextSeqno_add_avail hsyn hfin
  refine ⟨?_, new, hfills.firstSent, ?_, ?_⟩
  · rw [hfills.nextSeqno, htotal]
    omega
  · rintro before seg later rfl hlater
    obtain ⟨next, hnext⟩ := List.exists_mem_of_ne_nil _ hlater
    exact (List.pairwise_cons.mp (List.pairwise_append.mp hpacked).2.1).1 next hnext
  · intro hend hfits
    rw [hend, if_pos rfl] at havail
    obtain ⟨before, last, rfl, hlast⟩ := hfills.fin_last hend (by omega)
    refine ⟨before, last, rfl, hlast, ?_⟩
    intro hsome hnone
    have heof := halone last (List.mem_append_right _ List.mem_cons_self) hnone
    rw [ByteStream.eof, hsome, Bool.and_false] at heof
    cases heof

/-- Two bytes and the FIN in a window of four: everything fits, in one segment. -/
theorem fill_window_exact_two_bytes :
    (after 20 1000 (.ofRaw 5) [.fillWindow, .ackReceived (.ofRaw 6) 4, .write [1, 2],
      .endInput]).sender.fillWindow.nextSeqno = 4 :=
  ((fill_window_exact 20 1000 (.ofRaw 5) [.fillWindow, .ackReceived (.ofRaw 6) 4, .write [1, 2],
    .endInput]).2 1 (by decide +kernel) (by decide +kernel) ⟨by decide +kernel, by decide +kernel⟩
    (by decide +kernel)).1.trans (by decide +kernel)

end Feed

end Sponge
