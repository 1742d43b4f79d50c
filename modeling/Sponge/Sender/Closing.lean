import Sponge.Sender.Segments

/-!
# `Sender.Closing` — an empty queue after the end means that the FIN is out

The shutdown test of a connection looks at the end of the outgoing stream and at the bytes in flight, but not
at the FIN. That is enough because a sender with an empty queue always has room: everything it sent is
acknowledged, so the recorded acknowledgment number is its next sequence number (`AckBound`), the free window
is at least one, and `fill_window` would have sent what was left, the FIN included (`fillWindow_filled`).
`Settled` puts these facts together with the sender's invariant.

No bound on the sequence numbers is needed. A segment that ends at or after the raw value `2 ^ 32` is never
dropped from the queue, so a sender whose numbers have wrapped never has an empty queue again.
-/

namespace Sponge

open Lib TCPSegment

namespace TCPSender

variable {s : TCPSender} {accepted : List UInt8}

/-! ## What has been acknowledged -/

theorem acked_fillWindow (s : TCPSender) : s.fillWindow.acked = s.acked := by
  obtain ⟨new, h⟩ := fillWindow_sends s
  exact h.acked

theorem SenderInv.laid_outSegments (h : SenderInv accepted s) :
    Laid lengthInSequenceSpace (fun n seg => seg.header.seqno = wrap n s.isn)
      (extent lengthInSequenceSpace s.acked) s.outSegments := by
  have hnum := h.numbered
  rw [h.queue] at hnum
  simpa using (laid_append.mp hnum).2

/-- The recorded acknowledgment number covers what was dropped, and as long as nothing wraps it is not
    beyond what was sent. -/
structure AckBound (s : TCPSender) : Prop where
  low  : s.isn.rawValue + extent lengthInSequenceSpace s.acked ≤ s.ackGot.rawValue
  high : s.isn.rawValue + s.nextSeqno < 2 ^ 32 → s.ackGot.rawValue ≤ s.isn.rawValue + s.nextSeqno

/-- Once the stream has ended, something is outstanding or the FIN has been sent. -/
def Filled (s : TCPSender) : Prop :=
  s.stream.isEof = true → s.outSegments ≠ [] ∨ s.finFlag = true

theorem AckBound.init (capacity : Nat) (retxTimeout : UInt16) (isn : WrappingInt32) :
    AckBound (ofConfig capacity retxTimeout isn) :=
  ⟨le_refl _, fun _ => le_refl _⟩

/-- Neither the stream nor the timer matters. -/
theorem AckBound.congr {s' : TCPSender} (h : AckBound s) (hisn : s'.isn = s.isn)
    (hack : s'.acked = s.acked) (hgot : s'.ackGot = s.ackGot) (hnext : s.nextSeqno ≤ s'.nextSeqno) :
    AckBound s' := by
  refine ⟨?_, fun hlt => ?_⟩
  · rw [hisn, hack, hgot]; exact h.low
  · rw [hisn] at hlt ⊢
    rw [hgot]
    have := h.high (by omega)
    omega

theorem AckBound.fillWindow (h : AckBound s) : AckBound s.fillWindow := by
  obtain ⟨new, hsends⟩ := fillWindow_sends s
  exact h.congr hsends.isn hsends.acked hsends.ackGot (by rw [hsends.nextSeqno]; omega)

/-- The dropping loop does not pass the acknowledgment number. -/
theorem extent_takeWhile_le {isn ackno : WrappingInt32} {segs : List TCPSegment} {n x : Nat}
    (hsegs : Laid lengthInSequenceSpace (fun n seg => seg.header.seqno = wrap n isn) n segs)
    (hx : x < 2 ^ 32) (hack : ackno.rawValue ≤ x) (hn : isn.rawValue + n ≤ x) :
    isn.rawValue + n + extent lengthInSequenceSpace (segs.takeWhile (fullyAcked ackno)) ≤ x := by
  induction segs generalizing n with
  | nil => simpa using hn
  | cons seg segs ih =>
      obtain ⟨hseq, hrest⟩ := hsegs
      by_cases hfull : fullyAcked ackno seg = true
      · -- the segment starts before the wrap, so its raw number is its position
        have hraw : seg.header.seqno.rawValue = isn.rawValue + n := by
          rw [hseq]; exact rawValue_wrap_of_lt (by omega)
        have hend : seg.header.seqno.rawValue + seg.lengthInSequenceSpace ≤ ackno.rawValue := by
          simpa [fullyAcked] using hfull
        have := ih hrest (by omega)
        rw [List.takeWhile_cons_of_pos hfull, extent_cons]
        omega
      · rw [List.takeWhile_cons_of_neg hfull, extent_nil]
        exact hn

theorem AckBound.acceptAck (h : AckBound s) (hinv : SenderInv accepted s) {ackno : WrappingInt32}
    (w : UInt16) (hb : s.ackBeyond ackno = false) : AckBound (s.acceptAck ackno w) := by
  have hlaid := hinv.laid_outSegments
  have hle : ackno.rawValue ≤ s.nextSeqno32.rawValue := by simpa [ackBeyond] using hb
  have hlow := h.low
  refine ⟨?_, fun hlt => ?_⟩
  · rw [acked_acceptAck, extent_append, acceptAck_isn, acceptAck_ackGot, ← Nat.add_assoc]
    -- the larger of the old and the new number bounds the dropping loop, and it is the one recorded
    by_cases hnew : s.ackNew ackno = true
    · rw [if_pos hnew]
      have hgt : s.ackGot.rawValue < ackno.rawValue := by simpa [ackNew] using hnew
      exact extent_takeWhile_le hlaid ackno.isLt (le_refl _) (by omega)
    · rw [if_neg hnew]
      have hge : ackno.rawValue ≤ s.ackGot.rawValue := by simpa [ackNew] using hnew
      exact extent_takeWhile_le hlaid s.ackGot.isLt hge hlow
  · rw [acceptAck_isn, acceptAck_nextSeqno] at hlt ⊢
    rw [acceptAck_ackGot]
    split
    · -- `ack_received` compared with the raw next number, which has not wrapped
      rw [nextSeqno32, rawValue_wrap_of_lt hlt] at hle
      exact hle
    · exact h.high hlt

theorem AckBound.ackReceived (h : AckBound s) (hinv : SenderInv accepted s) (ackno : WrappingInt32)
    (w : UInt16) : AckBound (s.ackReceived ackno w) := by
  rw [ackReceived_eq]
  split
  · exact h
  · next hb => exact (h.acceptAck hinv w (by simpa using hb)).fillWindow

theorem AckBound.tick (h : AckBound s) (ms : Nat) : AckBound (s.tick ms) := by
  refine h.congr (isn_tick s ms) (acked_tick s ms) (ackGot_tick s ms) (le_of_eq ?_)
  rcases tick_cases s ms with ⟨_, heq⟩ | ⟨_, _, _, _, -, heq⟩ <;> rw [heq]

/-! ## What an acknowledgment drops -/

/-- **An acknowledgment of no more than `k` sequence numbers drops no more than those.** -/
theorem extent_acked_ackReceived {k : Nat} (h : AckBound s) (hinv : SenderInv accepted s)
    {ackno : WrappingInt32} (w : UInt16) (hold : extent lengthInSequenceSpace s.acked ≤ k)
    (hack : ackno.rawValue ≤ s.isn.rawValue + k) :
    extent lengthInSequenceSpace (s.ackReceived ackno w).acked ≤ k := by
  rw [ackReceived_eq]
  split
  · exact hold
  · have hlow := h.low
    have hgot := s.ackGot.isLt
    have hlt := ackno.isLt
    -- no raw number reaches `2 ^ 32`, so that is a bound as well
    have hdrop : s.isn.rawValue + extent lengthInSequenceSpace s.acked +
        extent lengthInSequenceSpace (s.outSegments.takeWhile (fullyAcked ackno)) ≤
        min (s.isn.rawValue + k) (2 ^ 32 - 1) :=
      extent_takeWhile_le hinv.laid_outSegments (by omega) (by omega) (by omega)
    rw [acked_fillWindow, acked_acceptAck, extent_append]
    omega

/-! ## The flags of the stream -/

/-- Filling the window leaves the end and the error of the stream as they are. -/
theorem streamFlags_fillWindow (s : TCPSender) :
    s.fillWindow.stream.isEof = s.stream.isEof ∧ s.fillWindow.stream.error = s.stream.error := by
  obtain ⟨new, h⟩ := fillWindow_sends s
  exact ⟨h.isEof, h.error⟩

theorem streamFlags_ackReceived (s : TCPSender) (ackno : WrappingInt32) (w : UInt16) :
    (s.ackReceived ackno w).stream.isEof = s.stream.isEof ∧
      (s.ackReceived ackno w).stream.error = s.stream.error := by
  rw [ackReceived_eq]
  split
  · exact ⟨rfl, rfl⟩
  · have h := streamFlags_fillWindow (s.acceptAck ackno w)
    rwa [acceptAck_stream] at h

theorem stream_tick (s : TCPSender) (ms : Nat) : (s.tick ms).stream = s.stream := by
  rcases tick_cases s ms with ⟨_, heq⟩ | ⟨_, _, _, _, -, heq⟩ <;> rw [heq]

/-! ## The end of the stream -/

/-- A stream at its end stays there. -/
theorem eof_fillWindow (h : s.stream.eof = true) : s.fillWindow.stream.eof = true := by
  rw [ByteStream.eof_iff] at h ⊢
  obtain ⟨new, hsends⟩ := fillWindow_sends s
  have hbuf := hsends.buf
  rw [h.2] at hbuf
  exact ⟨hsends.isEof.trans h.1, (List.append_eq_nil_iff.mp hbuf).2⟩

theorem eof_ackReceived (h : s.stream.eof = true) (ackno : WrappingInt32) (w : UInt16) :
    (s.ackReceived ackno w).stream.eof = true := by
  rw [ackReceived_eq]
  split
  · exact h
  · apply eof_fillWindow
    rw [acceptAck_stream]
    exact h

/-- **Filling the window brings an ended stream to its end** exactly if all it has buffered fits, with or
    without the FIN. -/
theorem eof_fillWindow_iff (hfin : s.finFlag = false) (hsyn : s.synFlag = true) :
    s.fillWindow.stream.eof = true ↔ s.stream.isEof = true ∧ s.stream.buf.length ≤ s.room := by
  rcases fillWindow_cases s with ⟨hfin', -⟩ | ⟨-, hsyn', -⟩ | ⟨-, -, new, hfills, htotal⟩
  · rw [hfin] at hfin'; cases hfin'
  · rw [hsyn] at hsyn'; cases hsyn'
  rw [ByteStream.eof_iff, hfills.isEof]
  apply and_congr_right
  intro hend
  have hbuf := congrArg List.length hfills.buf
  rw [List.length_append] at hbuf
  have hextent := extent_of_noSyn (fun seg hseg => (hfills.shape seg hseg).syn) hfills.finLast
  rw [avail, hend, if_pos rfl] at htotal
  constructor
  · intro hnil
    rw [hnil, List.length_nil] at hbuf
    omega
  · intro hle
    by_cases hsent : ∃ seg ∈ new, seg.header.fin = true
    · exact ((ByteStream.eof_iff _).mp (hfills.drained hsent)).2
    · -- without the FIN, what was sent is bytes, and there was room for all of them
      rw [if_neg hsent] at hextent
      apply List.length_eq_zero_iff.mp
      omega

/-- How much an acknowledgment lets `fill_window` send, seen from the state before it. -/
def opens (s : TCPSender) (ackno : WrappingInt32) (w : UInt16) : Nat :=
  if s.finFlag || s.ackBeyond ackno then 0
  else
    usub 32 (max 1 w.toNat)
      (usub 32 s.nextSeqno32.rawValue (if s.ackNew ackno then ackno else s.ackGot).rawValue)

/-- The room after an acknowledgment is what it lets out. -/
theorem room_acceptAck {ackno : WrappingInt32} (hfin : s.finFlag = false) (hbeyond : s.ackBeyond ackno = false)
    (w : UInt16) : (s.acceptAck ackno w).room = s.opens ackno w := by
  rw [opens, hfin, hbeyond, Bool.or_false, if_neg Bool.false_ne_true, room, nextSeqno32, acceptAck_isn,
    acceptAck_nextSeqno, acceptAck_ackGot, acceptAck_trueWindowSize]
  rfl

/-- **An acknowledgment brings an ended stream to its end** exactly if it lets out all that is buffered. -/
theorem eof_ackReceived_iff (hsyn : s.synFlag = true) (ackno : WrappingInt32) (w : UInt16) :
    (s.ackReceived ackno w).stream.eof = true ↔
      s.stream.isEof = true ∧ s.stream.buf.length ≤ s.opens ackno w := by
  have hidle : s.stream.eof = true ↔ s.stream.isEof = true ∧ s.stream.buf.length ≤ 0 := by
    rw [ByteStream.eof_iff, Nat.le_zero, List.length_eq_zero_iff]
  rw [ackReceived_eq]
  cases hbeyond : s.ackBeyond ackno with
  | true =>
      rw [if_pos rfl, opens, hbeyond, Bool.or_true, if_pos rfl]
      exact hidle
  | false =>
      rw [if_neg Bool.false_ne_true]
      cases hfin : s.finFlag with
      | true =>
          have hfin' : (s.acceptAck ackno w).finFlag = true := by rw [acceptAck_finFlag, hfin]
          rw [opens, hfin, Bool.true_or, if_pos rfl, TCPSender.fillWindow, if_pos hfin', acceptAck_stream]
          exact hidle
      | false =>
          have hiff : (s.acceptAck ackno w).fillWindow.stream.eof = true ↔ _ :=
            eof_fillWindow_iff (by rw [acceptAck_finFlag, hfin]) (by rw [acceptAck_synFlag, hsyn])
          rw [hiff, acceptAck_stream, room_acceptAck hfin hbeyond]

/-! ## What is queued -/

/-- From `s` to `s'` nothing is taken from the outbound queue, and what is sent for the first time is
    put there. -/
structure Queues (s s' : TCPSender) : Prop where
  kept : ∀ seg ∈ s.segmentsOut, seg ∈ s'.segmentsOut
  new  : ∀ seg ∈ s'.firstSent, seg ∈ s.firstSent ∨ seg ∈ s'.segmentsOut

theorem Queues.refl (s : TCPSender) : Queues s s := ⟨fun _ h => h, fun _ h => Or.inl h⟩

theorem Queues.trans {s₁ s₂ : TCPSender} (h₁ : Queues s s₁) (h₂ : Queues s₁ s₂) : Queues s s₂ where
  kept := fun seg hseg => h₂.kept seg (h₁.kept seg hseg)
  new  := fun seg hseg => by
    rcases h₂.new seg hseg with hold | hnew
    · exact (h₁.new seg hold).imp id (h₂.kept seg)
    · exact Or.inr hnew

/-- The same segments are added to the queue and to the history. -/
theorem Queues.of_append {s' : TCPSender} {new : List TCPSegment}
    (hqueue : s'.segmentsOut = s.segmentsOut ++ new) (hfirst : s'.firstSent = s.firstSent ++ new) :
    Queues s s' := by
  refine ⟨fun seg hseg => ?_, fun seg hseg => ?_⟩
  · rw [hqueue]
    exact List.mem_append_left _ hseg
  · rw [hfirst] at hseg
    rw [hqueue]
    exact (List.mem_append.mp hseg).imp id (List.mem_append_right _)

theorem queues_fillWindow (s : TCPSender) : Queues s s.fillWindow := by
  obtain ⟨new, h⟩ := fillWindow_sends s
  exact Queues.of_append h.segmentsOut h.firstSent

theorem queues_ackReceived (s : TCPSender) (ackno : WrappingInt32) (w : UInt16) :
    Queues s (s.ackReceived ackno w) := by
  rw [ackReceived_eq]
  split
  · exact Queues.refl s
  · have haccept : Queues s (s.acceptAck ackno w) := by
      refine ⟨fun seg hseg => ?_, fun seg hseg => Or.inl ?_⟩
      · rwa [acceptAck_segmentsOut]
      · rwa [firstSent_acceptAck] at hseg
    exact haccept.trans (queues_fillWindow _)

theorem queues_tick (s : TCPSender) (ms : Nat) : Queues s (s.tick ms) := by
  refine ⟨fun seg hseg => ?_, fun seg hseg => Or.inl ?_⟩
  · rcases tick_cases s ms with ⟨_, heq⟩ | ⟨_, _, _, _, -, heq⟩
    · rw [heq]; exact hseg
    · rw [heq]; exact List.mem_append_left _ hseg
  · rwa [firstSent_tick] at hseg

/-! ## Nothing left unsent -/

/-- With an empty queue, the free window is at least one. -/
theorem room_pos_of_empty (h : AckBound s) (hinv : SenderInv accepted s) (hempty : s.outSegments = []) :
    0 < s.room := by
  have hnext : s.nextSeqno = extent lengthInSequenceSpace s.acked := by
    rw [hinv.next, hinv.queue, hempty, List.append_nil]
  -- everything is acknowledged, so the bounds below and above `ackGot` meet
  have hlow := h.low
  have hlt := s.ackGot.isLt
  have hhigh := h.high (by omega)
  have hraw : s.nextSeqno32.rawValue = s.isn.rawValue + s.nextSeqno := rawValue_wrap_of_lt (by omega)
  have heq : s.nextSeqno32.rawValue = s.ackGot.rawValue := by omega
  rw [room, heq, usub_self, usub_zero]
  omega

/-- **After `fill_window`, an ended stream leaves something outstanding unless the FIN has been sent.** -/
theorem fillWindow_filled (h : AckBound s) (hinv : SenderInv accepted s) : Filled s.fillWindow := by
  intro hend
  rcases fillWindow_cases s with ⟨hfin, heq⟩ | ⟨-, -, heq⟩ | ⟨-, -, new, hfills, htotal⟩
  · rw [heq]; exact Or.inr hfin
  · rw [heq]; exact Or.inl (by simp [sendSegment])
  · left
    rw [hfills.outSegments]
    by_cases hempty : s.outSegments = []
    · -- there is room, and the FIN is still to be sent, so the loop sends something
      have hroom := room_pos_of_empty h hinv hempty
      have havail : 0 < s.avail := by
        rw [hfills.isEof] at hend
        rw [avail, hend, if_pos rfl]
        omega
      rw [hempty, List.nil_append]
      rintro rfl
      rw [extent_nil] at htotal
      omega
    · exact List.append_ne_nil_of_left_ne_nil hempty _

theorem Filled.ackReceived (hf : Filled s) (h : AckBound s) (hinv : SenderInv accepted s)
    (ackno : WrappingInt32) (w : UInt16) : Filled (s.ackReceived ackno w) := by
  rw [ackReceived_eq]
  split
  · exact hf
  · next hb => exact fillWindow_filled (h.acceptAck hinv w (by simpa using hb)) (hinv.acceptAck ackno w)

theorem Filled.tick (h : Filled s) (ms : Nat) : Filled (s.tick ms) := by
  rcases tick_cases s ms with ⟨_, heq⟩ | ⟨_, _, _, _, -, heq⟩ <;>
    · rw [heq]
      exact h

/-- After the FIN `fill_window` does nothing. -/
theorem fillWindow_of_fin (h : s.finFlag = true) : s.fillWindow = s := by
  rw [TCPSender.fillWindow, if_pos h]

/-- Nothing in flight means an empty queue, since every segment has a length. -/
theorem SenderInv.outSegments_eq_nil (h : SenderInv accepted s) (hzero : s.bytesInFlight = 0) :
    s.outSegments = [] := by
  cases hq : s.outSegments with
  | nil => rfl
  | cons seg rest =>
      have hmem : seg ∈ s.firstSent := by
        rw [h.queue, hq]; exact List.mem_append_right _ List.mem_cons_self
      have hpos : 0 < seg.lengthInSequenceSpace := by
        rcases h.shape_of_mem hmem with rfl | hd
        · exact Nat.one_pos
        · exact hd.pos
      rw [h.inFlight, hq, extent_cons] at hzero
      omega

/-- A FIN that has been sent leaves the stream drained, unless more is written. -/
def Drained (s : TCPSender) : Prop := s.finFlag = true → s.stream.buf = []

theorem Drained.fillWindow (h : Drained s) : Drained s.fillWindow := by
  intro hnew
  by_cases hold : s.finFlag = true
  · rw [fillWindow_of_fin hold]; exact h hold
  · have heof := fillWindow_drained (by simpa using hold) hnew
    exact ((ByteStream.eof_iff _).mp heof).2

theorem Drained.ackReceived (h : Drained s) (ackno : WrappingInt32) (w : UInt16) :
    Drained (s.ackReceived ackno w) := by
  rw [ackReceived_eq]
  split
  · exact h
  · refine Drained.fillWindow ?_
    rw [Drained, acceptAck_finFlag, acceptAck_stream]
    exact h

theorem Drained.tick (h : Drained s) (ms : Nat) : Drained (s.tick ms) := by
  rcases tick_cases s ms with ⟨_, heq⟩ | ⟨_, _, _, _, -, heq⟩ <;>
    · rw [heq]
      exact h

/-- **A sender that has sent its FIN and has nothing outstanding is done**: every byte of the stream was
    sent, the sequence numbers used are those of the SYN, the bytes and the FIN, and all is acknowledged. -/
theorem SenderInv.finished (h : SenderInv accepted s) (hd : Drained s) (hfin : s.finFlag = true)
    (hempty : s.outSegments = []) :
    s.bytesInFlight = 0 ∧ s.acked = s.firstSent ∧ s.sentBytes = accepted ∧
      s.nextSeqno = accepted.length + 2 ∧ s.stream.eof = true := by
  have hbytes : s.sentBytes = accepted := by
    have := h.bytes
    rwa [hd hfin, List.append_nil] at this
  obtain ⟨seg, hseg, -⟩ := h.finFlag.mp hfin
  have hsyn := h.synFlag_of_mem hseg
  refine ⟨?_, ?_, hbytes, ?_, ?_⟩
  · rw [h.inFlight, hempty, extent_nil]
  · rw [h.queue, hempty, List.append_nil]
  · rw [h.nextSeqno_eq hsyn, hfin, if_pos rfl, hbytes]
  · exact (ByteStream.eof_iff _).mpr ⟨h.ended hfin, hd hfin⟩

/-! ## All of it together -/

/-- The sender's invariant with what the end of the stream adds to it. -/
structure Settled (accepted : List UInt8) (s : TCPSender) : Prop where
  inv     : SenderInv accepted s
  ack     : AckBound s
  filled  : Filled s
  drained : Drained s

theorem Settled.init (capacity : Nat) (retxTimeout : UInt16) (isn : WrappingInt32) :
    Settled [] (ofConfig capacity retxTimeout isn) where
  inv     := SenderInv.init capacity retxTimeout isn
  ack     := AckBound.init capacity retxTimeout isn
  filled  := fun h => by cases h
  drained := fun h => by cases h

theorem Settled.fillWindow (h : Settled accepted s) : Settled accepted s.fillWindow :=
  ⟨h.inv.fillWindow, h.ack.fillWindow, fillWindow_filled h.ack h.inv, h.drained.fillWindow⟩

/-- Bytes written before the FIN are sent with the rest. -/
theorem Settled.write_fillWindow (h : Settled accepted s) (data : List UInt8) (hfin : s.finFlag = false) :
    Settled (accepted ++ data.take (s.stream.writeLen data.length)) (s.write data).fillWindow := by
  have hack : AckBound (s.write data) := h.ack.congr rfl rfl rfl (le_refl _)
  have hdrained : Drained (s.write data) := fun hf => by rw [TCPSender.write, hfin] at hf; cases hf
  exact ⟨(h.inv.write data).fillWindow, hack.fillWindow, fillWindow_filled hack (h.inv.write data),
    hdrained.fillWindow⟩

theorem Settled.endInput_fillWindow (h : Settled accepted s) : Settled accepted s.endInput.fillWindow := by
  have hack : AckBound s.endInput := h.ack.congr rfl rfl rfl (le_refl _)
  have hdrained : Drained s.endInput := h.drained
  exact ⟨h.inv.endInput.fillWindow, hack.fillWindow, fillWindow_filled hack h.inv.endInput,
    hdrained.fillWindow⟩

theorem Settled.ackReceived (h : Settled accepted s) (ackno : WrappingInt32) (w : UInt16) :
    Settled accepted (s.ackReceived ackno w) :=
  ⟨h.inv.ackReceived ackno w, h.ack.ackReceived h.inv ackno w, h.filled.ackReceived h.ack h.inv ackno w,
    h.drained.ackReceived ackno w⟩

theorem Settled.tick (h : Settled accepted s) (ms : Nat) : Settled accepted (s.tick ms) :=
  ⟨h.inv.tick ms, h.ack.tick ms, h.filled.tick ms, h.drained.tick ms⟩

end TCPSender

end Sponge
