import Sponge.Sender.Partition

/-!
# `Sender.Backoff` — the timeout and the count of retransmissions

The timeout lives in the timer, the count of consecutive retransmissions beside it. Both are changed together or
not at all: a new acknowledgment resets both, a retransmission outside a zero window doubles the one and counts
the other, and filling the window touches neither. So the timeout is the initial one doubled as often as the
count says (`Backs`), as long as the doubling stays inside 32 bits.
-/

namespace Sponge

open Lib

namespace TCPSender

variable {s : TCPSender}

/-! ## Filling the window -/

@[simp] theorem rto_sendSegment (s : TCPSender) (seg : TCPSegment) :
    (s.sendSegment seg).timer.rto = s.timer.rto := by
  unfold sendSegment
  dsimp only
  split <;> rfl

@[simp] theorem timer_takeSegment (s : TCPSender) (remain : Nat) :
    (s.takeSegment remain).1.timer = s.timer := by
  rcases takeSegment_cases s remain with ⟨-, -, heq⟩ | ⟨-, heq⟩ <;> rw [heq]

theorem rto_fillLoop (s : TCPSender) : s.fillLoop.1.timer.rto = s.timer.rto := by
  induction s using fillLoop.induct with
  | case1 s hgo hempty => rw [fillLoop, if_pos hgo, if_pos hempty, timer_takeSegment]
  | case2 s hgo hlen ih =>
      rw [fillLoop, if_pos hgo, if_neg hlen, ih, rto_sendSegment, timer_takeSegment]
  | case3 s hstop => rw [fillLoop, if_neg hstop]

theorem rto_fillWindow (s : TCPSender) : s.fillWindow.timer.rto = s.timer.rto := by
  unfold fillWindow
  split
  · rfl
  · split
    · exact rto_sendSegment _ _
    · -- the window is set to one and back around the loop, the timer is not touched
      dsimp only
      split <;> split <;> exact rto_fillLoop _

theorem timeout_fillWindow (s : TCPSender) :
    s.fillWindow.initialRetransmissionTimeout = s.initialRetransmissionTimeout := by
  obtain ⟨new, h⟩ := fillWindow_sends s
  exact h.timeout

theorem retx_fillWindow (s : TCPSender) :
    s.fillWindow.consecutiveRetransmission = s.consecutiveRetransmission := by
  obtain ⟨new, h⟩ := fillWindow_sends s
  exact h.retx

/-! ## Acknowledgments -/

/-- A new acknowledgment number resets both. -/
theorem backoff_acceptAck_of_new {ackno : WrappingInt32} (w : UInt16) (h : s.ackNew ackno = true) :
    (s.acceptAck ackno w).timer.rto = s.initialRetransmissionTimeout ∧
      (s.acceptAck ackno w).consecutiveRetransmission = 0 := by
  have hnew : (popLoop ackno s.outSegments s).ackNew ackno = true := by
    rw [popLoop_eq rfl]; exact h
  rw [acceptAck, recordAck, if_pos hnew, popLoop_eq rfl]
  refine ⟨?_, rfl⟩
  dsimp only
  split <;> rfl

/-- An old one leaves the timer as it is. -/
theorem timer_acceptAck_of_old {ackno : WrappingInt32} (w : UInt16) (h : s.ackNew ackno = false) :
    (s.acceptAck ackno w).timer = s.timer ∧
      (s.acceptAck ackno w).consecutiveRetransmission = s.consecutiveRetransmission := by
  have hold : ¬ (popLoop ackno s.outSegments s).ackNew ackno = true := by
    rw [popLoop_eq rfl, Bool.not_eq_true]; exact h
  rw [acceptAck, recordAck, if_neg hold, popLoop_eq rfl]
  exact ⟨rfl, rfl⟩

/-! ## The clock -/

@[simp] theorem rto_passTime (t : RETimer) (passed : Nat) : (t.passTime passed).rto = t.rto := by
  unfold RETimer.passTime
  dsimp only
  split
  · rfl
  · split <;> rfl

/-- A tick leaves both as they are, or it sends a segment again, doubles the one and counts the other. -/
theorem backoff_tick (s : TCPSender) (ms : Nat) :
    ((s.tick ms).timer.rto = s.timer.rto ∧
      (s.tick ms).consecutiveRetransmission = s.consecutiveRetransmission) ∨
    ((s.tick ms).timer.rto = s.timer.rto * 2 % 2 ^ 32 ∧
      (s.tick ms).consecutiveRetransmission = (s.consecutiveRetransmission + 1) % 2 ^ 16 ∧
      (s.tick ms).segmentsOut ≠ []) := by
  unfold tick
  dsimp only
  split
  · exact Or.inl ⟨rto_passTime _ _, rfl⟩
  · split
    · simp only [retransmit]
      split
      · right
        refine ⟨?_, rfl, List.append_ne_nil_of_right_ne_nil _ (List.cons_ne_nil _ _)⟩
        simp only [RETimer.start, RETimer.resetTime, RETimer.doubleRTO, rto_passTime]
      · exact Or.inl ⟨rto_passTime _ _, rfl⟩
    · exact Or.inl ⟨rto_passTime _ _, rfl⟩

theorem timeout_tick (s : TCPSender) (ms : Nat) :
    (s.tick ms).initialRetransmissionTimeout = s.initialRetransmissionTimeout := by
  rcases tick_cases s ms with ⟨_, heq⟩ | ⟨_, _, _, _, -, heq⟩ <;> rw [heq]

/-! ## Exact doubling -/

/-- The timeout is `timeout`, doubled once for each consecutive retransmission. -/
structure Backs (timeout : Nat) (s : TCPSender) : Prop where
  initial : s.initialRetransmissionTimeout = timeout
  rto     : s.timer.rto = timeout * 2 ^ s.consecutiveRetransmission

variable {timeout : Nat}

theorem Backs.init (capacity : Nat) (retxTimeout : UInt16) (isn : WrappingInt32) :
    Backs retxTimeout.toNat (ofConfig capacity retxTimeout isn) where
  initial := rfl
  rto     := (Nat.mul_one _).symm

theorem Backs.fillWindow (h : Backs timeout s) : Backs timeout s.fillWindow where
  initial := (timeout_fillWindow s).trans h.initial
  rto     := by rw [rto_fillWindow, retx_fillWindow, h.rto]

theorem Backs.ackReceived (h : Backs timeout s) (ackno : WrappingInt32) (w : UInt16) :
    Backs timeout (s.ackReceived ackno w) := by
  rw [ackReceived_eq]
  split
  · exact h
  · apply Backs.fillWindow
    refine ⟨(acceptAck_timeout s ackno w).trans h.initial, ?_⟩
    cases hnew : s.ackNew ackno with
    | true =>
        obtain ⟨hrto, hretx⟩ := backoff_acceptAck_of_new w hnew
        rw [hrto, hretx, h.initial, Nat.pow_zero, Nat.mul_one]
    | false =>
        obtain ⟨htimer, hretx⟩ := timer_acceptAck_of_old w hnew
        rw [htimer, hretx, h.rto]

/-- While the count is small a tick doubles exactly. -/
theorem Backs.tick {m : Nat} (h : Backs timeout s) (hcount : s.consecutiveRetransmission ≤ m)
    (hm : m + 1 < 2 ^ 16) (hfits : timeout * 2 ^ (m + 1) < 2 ^ 32) (ms : Nat) :
    Backs timeout (s.tick ms) ∧ (s.tick ms).consecutiveRetransmission ≤ m + 1 := by
  have hinitial := (timeout_tick s ms).trans h.initial
  rcases backoff_tick s ms with ⟨hrto, hretx⟩ | ⟨hrto, hretx, -⟩
  · refine ⟨⟨hinitial, by rw [hrto, hretx, h.rto]⟩, ?_⟩
    rw [hretx]
    omega
  · have hnext : (s.consecutiveRetransmission + 1) % 2 ^ 16 = s.consecutiveRetransmission + 1 :=
      Nat.mod_eq_of_lt (by omega)
    have hdouble : s.timer.rto * 2 = timeout * 2 ^ (s.consecutiveRetransmission + 1) := by
      rw [h.rto, Nat.pow_succ, Nat.mul_assoc]
    have hlt : s.timer.rto * 2 < 2 ^ 32 := by
      rw [hdouble]
      apply lt_of_le_of_lt _ hfits
      exact Nat.mul_le_mul_left _ (Nat.pow_le_pow_right (by decide) (by omega))
    rw [hnext] at hretx
    refine ⟨⟨hinitial, ?_⟩, ?_⟩
    · rw [hrto, hretx, Nat.mod_eq_of_lt hlt, hdouble]
    · rw [hretx]
      omega

end TCPSender

end Sponge
