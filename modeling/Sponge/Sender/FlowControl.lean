import Sponge.Sender.Partition

/-!
# `Sender.FlowControl` — staying inside the advertised window

An acknowledgment of the absolute number `a` with window `w` advertises the right edge `a + max 1 w`. The
sender does not keep an edge. It keeps the largest acknowledgment number and the latest window, and computes
the free space as an unsigned difference. That goes wrong in two ways: when the window has shrunk below what
is in flight the difference borrows and the free space is almost `2 ^ 32`, and the window of an old
acknowledgment is counted from the newest acknowledgment number.

`FillOk` is the condition on the state in which the window is filled that rules out both, unless there is
nothing to send or all of it fits anyway. In a run all of whose steps meet it, every segment but the SYN ends
at or before the largest edge advertised so far (`flow_control`).
-/

namespace Sponge

open Lib TCPSegment TCPSender

/-- A sender, with the absolute number behind its `_ackGot` and the largest right edge advertised by the
    acknowledgments received so far. -/
structure Flow where
  sender   : TCPSender
  recorded : Nat
  edge     : Nat

namespace Flow

def ofConfig (capacity : Nat) (retxTimeout : UInt16) (isn : WrappingInt32) : Flow :=
  ⟨TCPSender.ofConfig capacity retxTimeout isn, 0, 0⟩

/-- The absolute number recorded after an acknowledgment of `a`. -/
def recordedAfter (f : Flow) (isn : WrappingInt32) (a : Nat) : Nat :=
  if f.sender.ackBeyond (wrap a isn) = false ∧ f.sender.ackNew (wrap a isn) = true then a else f.recorded

/-- The largest right edge after an acknowledgment of `a` with window `w`. -/
def edgeAfter (f : Flow) (a : Nat) (w : UInt16) : Nat := max f.edge (a + max 1 w.toNat)

/-- Acknowledgment numbers are absolute here, and wrapped for the sender. -/
def step (isn : WrappingInt32) (f : Flow) (op : SenderOp Nat) : Flow where
  sender   := f.sender.step (op.map (wrap · isn))
  recorded := match op with
    | .ackReceived a _ => f.recordedAfter isn a
    | _                => f.recorded
  edge     := match op with
    | .ackReceived a w => f.edgeAfter a w
    | _                => f.edge

/-- No acknowledgment is beyond what was sent. -/
def AckSent (f : Flow) : SenderOp Nat → Prop
  | .ackReceived a _ => a ≤ f.sender.nextSeqno
  | _                => True

/-- Filling the window from the number `recorded` with the window `w` stays at or below `edge`: the loop is
    not reached, there is nothing to send, everything there is to send ends at or below the edge, or the
    sender's own right edge is neither behind what it has sent nor beyond what was advertised. -/
def FillOk (s : TCPSender) (recorded w edge : Nat) : Prop :=
  s.synFlag = false ∨ s.finFlag = true ∨ s.avail = 0 ∨ s.nextSeqno + s.avail ≤ edge ∨
  (s.nextSeqno ≤ recorded + max 1 w ∧ recorded + max 1 w ≤ max 1 edge)

/-- The condition on a step: no acknowledgment beyond what was sent, and `FillOk` where the window is
    filled. -/
def StepOk (isn : WrappingInt32) (f : Flow) : SenderOp Nat → Prop
  | .ackReceived a w => a ≤ f.sender.nextSeqno ∧
      (f.sender.ackBeyond (wrap a isn) = true ∨
        FillOk f.sender (f.recordedAfter isn a) w.toNat (f.edgeAfter a w))
  | .fillWindow      => FillOk f.sender f.recorded f.sender.trueWindowSize.toNat f.edge
  | _                => True

instance (f : Flow) : (op : SenderOp Nat) → Decidable (AckSent f op)
  | .ackReceived a _ => inferInstanceAs (Decidable (a ≤ f.sender.nextSeqno))
  | .write _ | .endInput | .fillWindow | .tick _ => inferInstanceAs (Decidable True)

instance (s : TCPSender) (recorded w edge : Nat) : Decidable (FillOk s recorded w edge) := by
  unfold FillOk; infer_instance

instance (isn : WrappingInt32) (f : Flow) : (op : SenderOp Nat) → Decidable (StepOk isn f op)
  | .ackReceived a w =>
      inferInstanceAs (Decidable (a ≤ f.sender.nextSeqno ∧ (f.sender.ackBeyond (wrap a isn) = true ∨
        FillOk f.sender (f.recordedAfter isn a) w.toNat (f.edgeAfter a w))))
  | .fillWindow =>
      inferInstanceAs (Decidable (FillOk f.sender f.recorded f.sender.trueWindowSize.toNat f.edge))
  | .write _ | .endInput | .tick _ => inferInstanceAs (Decidable True)

/-- Every segment sent but the SYN ends at or before the largest edge. -/
def WithinEdge (f : Flow) : Prop :=
  ∀ before seg later, f.sender.firstSent = before ++ seg :: later → seg.header.syn = false →
    extent lengthInSequenceSpace (before ++ [seg]) ≤ f.edge

/-! ## The free window in absolute numbers -/

/-- The difference of two wrapped numbers less than `2 ^ 32` apart. -/
theorem usub_wrap_wrap {m n : Nat} {isn : WrappingInt32} (hle : m ≤ n) (hlt : n - m < 2 ^ 32) :
    usub 32 (wrap n isn).rawValue (wrap m isn).rawValue = n - m := by
  rw [rawValue_wrap, rawValue_wrap]
  unfold usub
  split <;> omega

/-- With everything sent inside `recorded + max 1 w`, the free window ends there. -/
theorem room_eq {s : TCPSender} {recorded : Nat} (hgot : s.ackGot = wrap recorded s.isn)
    (hle : recorded ≤ s.nextSeqno) (hin : s.nextSeqno ≤ recorded + max 1 s.trueWindowSize.toNat) :
    s.nextSeqno + s.room = recorded + max 1 s.trueWindowSize.toNat := by
  have hw := s.trueWindowSize.toNat_lt
  rw [room, nextSeqno32, hgot, usub_wrap_wrap hle (by omega), usub_of_le (by omega)]
  omega

/-- **`fill_window` stays at or below the edge.** -/
theorem fillWindow_le {s : TCPSender} {accepted : List UInt8} {recorded edge : Nat}
    (hinv : SenderInv accepted s) (hgot : s.ackGot = wrap recorded s.isn) (hle : recorded ≤ s.nextSeqno)
    (hok : FillOk s recorded s.trueWindowSize.toNat edge) (hnext : s.nextSeqno ≤ max 1 edge) :
    s.fillWindow.nextSeqno ≤ max 1 edge := by
  rcases fillWindow_cases s with ⟨-, heq⟩ | ⟨hfin, hsyn, heq⟩ | ⟨hfin, hsyn, new, hfills, htotal⟩
  · rw [heq]; exact hnext
  · have hzero := hinv.next
    rw [hinv.fresh hsyn, extent_nil] at hzero
    rw [heq]
    simp [sendSegment, hzero, synSegment, lengthInSequenceSpace]
  · rw [hfills.nextSeqno, htotal]
    rcases hok with h | h | h | h | ⟨hin, hedge⟩
    · rw [hsyn] at h; cases h
    · rw [hfin] at h; cases h
    · omega
    · omega
    · have := room_eq hgot hle hin
      omega

/-! ## Runs -/

/-- What holds after every run that meets the condition. -/
structure Inv (isn : WrappingInt32) (f : Flow) : Prop where
  sender   : ∃ accepted, SenderInv accepted f.sender
  isn_eq   : f.sender.isn = isn
  ackGot   : f.sender.ackGot = wrap f.recorded isn
  recorded : f.recorded ≤ f.sender.nextSeqno
  next     : f.sender.nextSeqno ≤ max 1 f.edge

theorem nextSeqno_le_fillWindow (s : TCPSender) : s.nextSeqno ≤ s.fillWindow.nextSeqno := by
  obtain ⟨new, h⟩ := fillWindow_sends s
  rw [h.nextSeqno]
  exact Nat.le_add_right _ _

section Step

variable {isn : WrappingInt32} {f : Flow}

theorem Inv.isn_step (h : Inv isn f) (op : SenderOp Nat) : (f.step isn op).sender.isn = isn := by
  obtain ⟨accepted, -⟩ := h.sender
  exact (Feed.isn_step ⟨f.sender, accepted⟩ _).trans h.isn_eq

theorem Inv.sender_step (h : Inv isn f) (op : SenderOp Nat) :
    ∃ accepted, SenderInv accepted (f.step isn op).sender := by
  obtain ⟨accepted, hinv⟩ := h.sender
  exact ⟨_, Feed.senderInv_step (f := ⟨f.sender, accepted⟩) hinv _⟩

/-- An acknowledgment with a window. It may only widen the edge, so what was sent stays below; what the
    refill sends is bounded by `fillWindow_le` at the new edge. -/
theorem Inv.step_ackReceived (h : Inv isn f) {a : Nat} {w : UInt16} (hok : StepOk isn f (.ackReceived a w)) :
    Inv isn (f.step isn (.ackReceived a w)) := by
  obtain ⟨ha, hfill⟩ := hok
  have hisn := h.isn_step (.ackReceived a w)
  have hsender := h.sender_step (.ackReceived a w)
  have hnext : f.sender.nextSeqno ≤ max 1 (f.edgeAfter a w) := by
    have := h.next
    rw [edgeAfter]
    omega
  by_cases hb : f.sender.ackBeyond (wrap a isn) = true
  · -- the acknowledgment is ignored
    have hsame : f.sender.ackReceived (wrap a isn) w = f.sender := by rw [ackReceived_eq, if_pos hb]
    have hold : f.recordedAfter isn a = f.recorded := if_neg (by simp [hb])
    refine ⟨hsender, hisn, ?_, ?_, le_of_eq_of_le (congrArg _ hsame) hnext⟩
    · exact (congrArg _ hsame).trans (h.ackGot.trans (by rw [← hold]; rfl))
    · exact le_of_eq_of_le hold (le_of_le_of_eq h.recorded (congrArg _ hsame.symm))
  · obtain ⟨accepted, hinv⟩ := h.sender
    have hrun : f.sender.ackReceived (wrap a isn) w =
        (f.sender.acceptAck (wrap a isn) w).fillWindow := by rw [ackReceived_eq, if_neg hb]
    have hacc : (f.sender.acceptAck (wrap a isn) w).ackGot = wrap (f.recordedAfter isn a) isn := by
      rw [acceptAck_ackGot, recordedAfter]
      by_cases hn : f.sender.ackNew (wrap a isn) = true
      · rw [if_pos hn, if_pos ⟨by simpa using hb, hn⟩]
      · rw [if_neg hn, if_neg (fun hc => hn hc.2)]; exact h.ackGot
    have hrec : f.recordedAfter isn a ≤ (f.sender.acceptAck (wrap a isn) w).nextSeqno := by
      rw [recordedAfter, acceptAck_nextSeqno]
      split
      · exact ha
      · exact h.recorded
    refine ⟨hsender, hisn, ?_, ?_, le_of_eq_of_le (congrArg _ hrun) ?_⟩
    · exact (congrArg _ hrun).trans ((ackGot_fillWindow _).trans hacc)
    · exact le_trans hrec (le_of_le_of_eq (nextSeqno_le_fillWindow _) (congrArg _ hrun.symm))
    · change _ ≤ max 1 (f.edgeAfter a w)
      refine fillWindow_le (hinv.acceptAck (wrap a isn) w) ?_ hrec ?_ ?_
      · rw [hacc, acceptAck_isn, h.isn_eq]
      · have hfill := hfill.resolve_left hb
        simpa only [FillOk, avail, acceptAck_synFlag, acceptAck_finFlag, acceptAck_stream,
          acceptAck_nextSeqno, acceptAck_trueWindowSize] using hfill
      · rw [acceptAck_nextSeqno]; exact hnext

theorem Inv.step {op : SenderOp Nat} (h : Inv isn f) (hok : StepOk isn f op) :
    Inv isn (f.step isn op) := by
  have hisn := h.isn_step op
  have hsender := h.sender_step op
  cases op with
  | write data => exact ⟨hsender, hisn, h.ackGot, h.recorded, h.next⟩
  | endInput => exact ⟨hsender, hisn, h.ackGot, h.recorded, h.next⟩
  | fillWindow =>
      obtain ⟨accepted, hinv⟩ := h.sender
      have hgot : f.sender.ackGot = wrap f.recorded f.sender.isn := by rw [h.isn_eq]; exact h.ackGot
      refine ⟨hsender, hisn, ?_, ?_, fillWindow_le hinv hgot h.recorded hok h.next⟩
      · exact (ackGot_fillWindow f.sender).trans h.ackGot
      · exact le_trans h.recorded (nextSeqno_le_fillWindow f.sender)
  | tick ms =>
      have hnext : (f.sender.tick ms).nextSeqno = f.sender.nextSeqno := by
        rcases tick_cases f.sender ms with ⟨_, heq⟩ | ⟨_, _, _, _, -, heq⟩ <;> rw [heq]
      refine ⟨hsender, hisn, (ackGot_tick f.sender ms).trans h.ackGot, ?_, ?_⟩
      · exact le_of_le_of_eq h.recorded hnext.symm
      · exact le_of_eq_of_le hnext h.next
  | ackReceived a w => exact h.step_ackReceived hok

end Step

/-- Everything sent being at or below `max 1 edge`, every segment but the SYN is at or below the edge. -/
theorem Inv.withinEdge {isn : WrappingInt32} {f : Flow} (h : Inv isn f) : WithinEdge f := by
  intro before seg later hsplit hsyn
  obtain ⟨accepted, hinv⟩ := h.sender
  have hend : extent lengthInSequenceSpace (before ++ [seg]) ≤ f.sender.nextSeqno := by
    rw [hinv.next, hsplit, extent_append, extent_append, extent_cons, extent_cons, extent_nil]
    omega
  have hnext := h.next
  suffices 2 ≤ extent lengthInSequenceSpace (before ++ [seg]) by omega
  -- the SYN comes first, so the segment ends at two or more
  cases hs : f.sender.synFlag with
  | false =>
      rw [hinv.fresh hs] at hsplit
      exact absurd hsplit.symm (by simp)
  | true =>
      obtain ⟨rest, hrest, hdata⟩ := hinv.opened hs
      rw [hrest] at hsplit
      cases before with
      | nil =>
          rw [← (List.cons.inj hsplit).1] at hsyn
          cases hsyn
      | cons first before =>
          obtain ⟨hfirst, htail⟩ := List.cons.inj hsplit
          have hpos := (hdata seg (htail ▸ List.mem_append_right _ List.mem_cons_self)).pos
          have hone : first.lengthInSequenceSpace = 1 := by rw [← hfirst]; rfl
          rw [extent_append, extent_cons, extent_cons, extent_nil]
          omega

/-- **Flow control.** In every run whose acknowledgments are not beyond what was sent, and in which the
    window is only filled in states that meet `FillOk`, every segment but the SYN ends at or before the
    largest right edge advertised so far, at every moment. -/
theorem flow_control (capacity : Nat) (retxTimeout : UInt16) (isn : WrappingInt32)
    (ops : List (SenderOp Nat))
    (h : Guarded (step isn) (StepOk isn) (ofConfig capacity retxTimeout isn) ops) :
    ∀ pre, pre <+: ops → WithinEdge (run (step isn) (ofConfig capacity retxTimeout isn) pre) := by
  intro pre hpre
  have hinit : Inv isn (ofConfig capacity retxTimeout isn) :=
    ⟨⟨[], SenderInv.init _ _ _⟩, rfl, (wrap_zero isn).symm, Nat.zero_le _, Nat.zero_le _⟩
  exact ((h.of_isPrefix hpre).invariant (Inv isn) hinit fun _ _ hi hok => hi.step hok).withinEdge

/-- A window that closes to what is in flight and opens again. -/
theorem flow_control_reopened :
    Guarded (step (.ofRaw 5)) (StepOk (.ofRaw 5)) (ofConfig 20 1000 (.ofRaw 5))
      [.fillWindow, .ackReceived 1 4, .write [1, 2, 3, 4, 5, 6], .fillWindow, .ackReceived 3 2,
        .ackReceived 5 3] ∧
    WithinEdge (run (step (.ofRaw 5)) (ofConfig 20 1000 (.ofRaw 5))
      [.fillWindow, .ackReceived 1 4, .write [1, 2, 3, 4, 5, 6], .fillWindow, .ackReceived 3 2,
        .ackReceived 5 3]) :=
  ⟨by decide +kernel, flow_control 20 1000 (.ofRaw 5) _ (by decide +kernel) _ (List.prefix_refl _)⟩

/-- The window shrinks from ten to three with ten bytes in flight; the free space borrows, and the next
    byte goes out beyond the edge. -/
theorem window_overrun_after_shrink :
    ¬ ∀ (capacity : Nat) (retxTimeout : UInt16) (isn : WrappingInt32) (ops : List (SenderOp Nat)),
      Guarded (step isn) AckSent (ofConfig capacity retxTimeout isn) ops →
      WithinEdge (run (step isn) (ofConfig capacity retxTimeout isn) ops) := by
  intro h
  have hover := h 20 1000 (.ofRaw 0)
    [.fillWindow, .ackReceived 1 10, .write [1, 2, 3, 4, 5, 6, 7, 8, 9, 10], .fillWindow,
      .ackReceived 1 3, .write [11], .fillWindow] (by decide +kernel)
    [synSegment (.ofRaw 0),
      { header := { seqno := .ofRaw 1 }, payload := [1, 2, 3, 4, 5, 6, 7, 8, 9, 10] }]
    { header := { seqno := .ofRaw 11 }, payload := [11] } [] (by decide +kernel) rfl
  revert hover
  decide +kernel

end Flow

end Sponge
