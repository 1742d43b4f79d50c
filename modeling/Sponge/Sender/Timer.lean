import Sponge.Sender.Backoff

/-!
# `Sender.Timer` — when the timer expires

The timer runs from the construction of the sender on. A tick with nothing outstanding may stop it, but a first
transmission sets it to zero only if it had stopped, so the time it has been running idle counts against the segment
that is sent then.

`Clock` measures what the timer should measure: the ticks since the latest of a first transmission with nothing
outstanding, a new acknowledgment, and a retransmission. It also keeps what the timer showed at that moment. The
timer always shows the sum of the two (`Timed`), so it goes off early if and only if the second is not zero
(`never_premature_iff`).
-/

namespace Sponge

open Lib

/-! ## The timer -/

namespace RETimer

/-- The timer after a segment was sent: started from zero, unless it is running. -/
def armed (t : RETimer) : RETimer := if t.isRunning = false then t.resetTime.start else t

theorem armed_of_running {t : RETimer} (h : t.isRunning = true) : t.armed = t := if_neg (by simp [h])

theorem isRunning_armed (t : RETimer) : t.armed.isRunning = true := by
  unfold armed
  split
  · rfl
  · next h => simpa using h

/-- What the timer counts from when a segment is sent. -/
theorem time_armed (t : RETimer) : t.armed.time = if t.isRunning then t.time else 0 := by
  unfold armed
  cases t.isRunning <;> rfl

/-- Time passes on a running timer: it stops, or it shows the sum. -/
theorem passTime_of_running {t : RETimer} (h : t.isRunning = true) (passed : Nat) :
    t.passTime passed = if uadd 32 t.time passed ≥ t.rto then { t with isRunning := false, time := 0 }
      else { t with time := uadd 32 t.time passed } := by
  rw [passTime, if_neg (by simp [h])]

/-- The timer never shows a full timeout. -/
structure Sound (t : RETimer) : Prop where
  fits  : t.rto < 2 ^ 32
  below : t.time < t.rto ∨ t.time = 0

variable {t : RETimer}

theorem Sound.time_lt (h : Sound t) : t.time < 2 ^ 32 := by
  have hfits := h.fits
  rcases h.below with hlt | hzero
  · omega
  · omega

theorem Sound.armed (h : Sound t) : Sound t.armed := by
  unfold RETimer.armed
  split
  · exact ⟨h.fits, Or.inr rfl⟩
  · exact h

theorem Sound.passTime (h : Sound t) (passed : Nat) : Sound (t.passTime passed) := by
  cases hrun : t.isRunning with
  | false =>
      rw [RETimer.passTime, if_pos hrun]
      exact h
  | true =>
      rw [passTime_of_running hrun]
      split
      · exact ⟨h.fits, Or.inr rfl⟩
      · next hlt => exact ⟨h.fits, Or.inl (Nat.not_le.mp hlt)⟩

end RETimer

namespace TCPSender

variable {s : TCPSender}

/-! ## Sending and the timer -/

theorem outSegments_round (s : TCPSender) :
    s.round.outSegments = s.outSegments ++ [(s.takeSegment s.remain).2] := by
  unfold round
  rcases takeSegment_cases s s.remain with ⟨-, -, heq⟩ | ⟨-, heq⟩ <;> rw [heq] <;> rfl

theorem timer_round (s : TCPSender) : s.round.timer = s.timer.armed := by
  show (s.takeSegment s.remain).1.timer.armed = _
  rw [timer_takeSegment]

theorem timer_fillLoop (s : TCPSender) :
    (s.fillLoop.1.outSegments = s.outSegments ∧ s.fillLoop.1.timer = s.timer) ∨
      (s.fillLoop.1.outSegments ≠ [] ∧ s.fillLoop.1.timer = s.timer.armed) := by
  induction s using fillLoop.induct with
  | case1 s hgo hempty =>
      left
      rw [fillLoop, if_pos hgo, if_pos hempty]
      refine ⟨?_, timer_takeSegment _ _⟩
      rcases takeSegment_cases s s.remain with ⟨-, -, heq⟩ | ⟨-, heq⟩ <;> rw [heq]
  | case2 s hgo hlen ih =>
      right
      rw [fillLoop, if_pos hgo, if_neg hlen]
      change (s.round.fillLoop.1.outSegments = s.round.outSegments ∧ s.round.fillLoop.1.timer = s.round.timer) ∨
        (s.round.fillLoop.1.outSegments ≠ [] ∧ s.round.fillLoop.1.timer = s.round.timer.armed) at ih
      show s.round.fillLoop.1.outSegments ≠ [] ∧ s.round.fillLoop.1.timer = _
      rw [timer_round] at ih
      rcases ih with ⟨hout, htimer⟩ | ⟨hout, htimer⟩
      · refine ⟨?_, htimer⟩
        rw [hout, outSegments_round]
        exact List.append_ne_nil_of_right_ne_nil _ (List.cons_ne_nil _ _)
      · refine ⟨hout, ?_⟩
        rw [htimer, RETimer.armed_of_running (RETimer.isRunning_armed _)]
  | case3 s hstop =>
      left
      rw [fillLoop, if_neg hstop]
      exact ⟨rfl, rfl⟩

/-- **The timer and `fill_window`**: if something is sent, the timer is started unless it was running. -/
theorem timer_fillWindow (s : TCPSender) :
    (s.fillWindow.outSegments = s.outSegments ∧ s.fillWindow.timer = s.timer) ∨
      (s.fillWindow.outSegments ≠ [] ∧ s.fillWindow.timer = s.timer.armed) := by
  unfold fillWindow
  split
  · exact Or.inl ⟨rfl, rfl⟩
  · split
    · exact Or.inr ⟨List.append_ne_nil_of_right_ne_nil _ (List.cons_ne_nil _ _), rfl⟩
    · dsimp only
      split <;> split <;> exact timer_fillLoop _

/-! ## Retransmissions -/

/-- The tick sends the oldest outstanding segment again. -/
def Retransmits (s : TCPSender) (ms : Nat) : Prop :=
  ∃ seg, s.outSegments.head? = some seg ∧ (s.tick ms).segmentsOut = s.segmentsOut ++ [seg]

theorem segmentsOut_retransmit (s : TCPSender) (seg : TCPSegment) :
    (s.retransmit seg).segmentsOut = s.segmentsOut ++ [seg] := by
  unfold retransmit
  dsimp only
  split <;> rfl

/-- A tick retransmits if and only if something is outstanding and the timer expires. -/
theorem retransmits_iff (s : TCPSender) (ms : Nat) :
    s.Retransmits ms ↔ s.outSegments ≠ [] ∧ (s.timer.passTime (ms % 2 ^ 32)).isRunning = false := by
  unfold Retransmits tick
  cases s.outSegments with
  | nil => simp
  | cons seg rest =>
      dsimp only
      split
      · next hexpired =>
          exact iff_of_true ⟨seg, rfl, segmentsOut_retransmit _ seg⟩ ⟨List.cons_ne_nil _ _, hexpired⟩
      · next hrunning =>
          refine iff_of_false ?_ fun h => hrunning h.2
          rintro ⟨again, -, hout⟩
          exact List.cons_ne_nil _ _ (List.append_right_eq_self.mp hout.symm)

instance (s : TCPSender) (ms : Nat) : Decidable (s.Retransmits ms) := decidable_of_iff _ (s.retransmits_iff ms).symm

/-- A tick that retransmits. -/
theorem tick_of_retransmits {ms : Nat} (h : s.Retransmits ms) :
    ∃ seg rest, s.outSegments = seg :: rest ∧
      s.tick ms = retransmit { s with timer := s.timer.passTime (ms % 2 ^ 32) } seg := by
  obtain ⟨hout, hexpired⟩ := (s.retransmits_iff ms).mp h
  cases hq : s.outSegments with
  | nil => exact absurd hq hout
  | cons seg rest =>
      refine ⟨seg, rest, rfl, ?_⟩
      unfold tick
      simp only [hq, hexpired, if_true]

/-- Any other tick only makes the timer run on. -/
theorem tick_of_not_retransmits {ms : Nat} (h : ¬ s.Retransmits ms) :
    s.tick ms = { s with timer := s.timer.passTime (ms % 2 ^ 32) } := by
  rw [retransmits_iff] at h
  unfold tick
  dsimp only
  cases hq : s.outSegments with
  | nil => rfl
  | cons seg rest =>
      have hrunning : ¬ (s.timer.passTime (ms % 2 ^ 32)).isRunning = false := fun hexpired =>
        h ⟨by rw [hq]; exact List.cons_ne_nil _ _, hexpired⟩
      exact if_neg hrunning

/-- After a retransmission the timer runs from zero. -/
theorem timer_retransmit (s : TCPSender) (seg : TCPSegment) :
    (s.retransmit seg).timer.time = 0 ∧ (s.retransmit seg).timer.isRunning = true ∧
      ((s.retransmit seg).timer.rto = s.timer.rto ∨ (s.retransmit seg).timer.rto = s.timer.rto * 2 % 2 ^ 32) := by
  unfold retransmit
  dsimp only
  split
  · exact ⟨rfl, rfl, Or.inr rfl⟩
  · exact ⟨rfl, rfl, Or.inl rfl⟩

/-! ## What the timer shows -/

/-- The timer of a sender is in order, and it runs whenever something is outstanding. -/
structure TimerInv (s : TCPSender) : Prop where
  initial : s.initialRetransmissionTimeout < 2 ^ 32
  sound   : s.timer.Sound
  running : s.outSegments ≠ [] → s.timer.isRunning = true

theorem TimerInv.init (capacity : Nat) (retxTimeout : UInt16) (isn : WrappingInt32) :
    TimerInv (ofConfig capacity retxTimeout isn) where
  initial := lt_trans retxTimeout.toNat_lt (by decide)
  sound := ⟨lt_trans retxTimeout.toNat_lt (by decide), Or.inr rfl⟩
  running := fun _ => rfl

theorem TimerInv.fillWindow (h : TimerInv s) : TimerInv s.fillWindow where
  initial := (timeout_fillWindow s).trans_lt h.initial
  sound := by
    rcases timer_fillWindow s with ⟨-, htimer⟩ | ⟨-, htimer⟩
    · rw [htimer]
      exact h.sound
    · rw [htimer]
      exact h.sound.armed
  running := by
    intro hne
    rcases timer_fillWindow s with ⟨hout, htimer⟩ | ⟨-, htimer⟩
    · rw [htimer]
      exact h.running (hout ▸ hne)
    · rw [htimer]
      exact RETimer.isRunning_armed _

/-- A new acknowledgment number sets the timer to zero and starts it if something is left. -/
theorem timer_acceptAck_of_new {ackno : WrappingInt32} (w : UInt16) (h : s.ackNew ackno = true) :
    (s.acceptAck ackno w).timer.time = 0 ∧
      ((s.acceptAck ackno w).outSegments ≠ [] → (s.acceptAck ackno w).timer.isRunning = true) := by
  have hnew : (popLoop ackno s.outSegments s).ackNew ackno = true := by
    rw [popLoop_eq rfl]; exact h
  rw [acceptAck, recordAck, if_pos hnew]
  dsimp only
  split
  · next hempty => exact ⟨rfl, fun hne => absurd (List.isEmpty_iff.mp hempty) hne⟩
  · exact ⟨rfl, fun _ => rfl⟩

/-- What is left outstanding was so before. -/
theorem outSegments_ne_nil_of_acceptAck {ackno : WrappingInt32} {w : UInt16}
    (h : (s.acceptAck ackno w).outSegments ≠ []) : s.outSegments ≠ [] := by
  intro hnil
  rw [acceptAck_outSegments, hnil] at h
  exact h rfl

theorem TimerInv.acceptAck (h : TimerInv s) (ackno : WrappingInt32) (w : UInt16) :
    TimerInv (s.acceptAck ackno w) := by
  cases hnew : s.ackNew ackno with
  | true =>
      obtain ⟨hzero, hrunning⟩ := timer_acceptAck_of_new w hnew
      obtain ⟨hrto, -⟩ := backoff_acceptAck_of_new w hnew
      refine ⟨(acceptAck_timeout s ackno w).trans_lt h.initial, ⟨?_, Or.inr hzero⟩, hrunning⟩
      rw [hrto]
      exact h.initial
  | false =>
      obtain ⟨htimer, -⟩ := timer_acceptAck_of_old w hnew
      refine ⟨(acceptAck_timeout s ackno w).trans_lt h.initial, ?_, ?_⟩
      · rw [htimer]
        exact h.sound
      · intro hne
        rw [htimer]
        exact h.running (outSegments_ne_nil_of_acceptAck hne)

theorem TimerInv.tick (h : TimerInv s) (ms : Nat) : TimerInv (s.tick ms) := by
  have hinitial : (s.tick ms).initialRetransmissionTimeout < 2 ^ 32 := (timeout_tick s ms).trans_lt h.initial
  by_cases hretx : s.Retransmits ms
  · obtain ⟨seg, rest, -, heq⟩ := tick_of_retransmits hretx
    obtain ⟨hzero, hrunning, hrto⟩ := timer_retransmit { s with timer := s.timer.passTime (ms % 2 ^ 32) } seg
    rw [← heq] at hzero hrunning hrto
    refine ⟨hinitial, ⟨?_, Or.inr hzero⟩, fun _ => hrunning⟩
    have hfits := (h.sound.passTime (ms % 2 ^ 32)).fits
    rcases hrto with hrto | hrto
    · rw [hrto]
      exact hfits
    · rw [hrto]
      exact Nat.mod_lt _ (by decide)
  · refine ⟨hinitial, ?_, fun hne => ?_⟩
    · rw [tick_of_not_retransmits hretx]
      exact h.sound.passTime _
    · rw [tick_of_not_retransmits hretx] at hne ⊢
      by_contra hstopped
      exact hretx ((s.retransmits_iff ms).mpr ⟨hne, by simpa using hstopped⟩)

/-! ## The periods -/

/-- A first transmission made when nothing was outstanding, by a call of `fill_window`: what the timer counts from
    then on. -/
def opening (s : TCPSender) : Option Nat :=
  if s.outSegments = [] ∧ s.fillWindow.outSegments ≠ [] then some (if s.timer.isRunning then s.timer.time else 0)
  else none

/-- The operation begins a new period, with the timer at the given value. -/
def period (s : TCPSender) : SenderOp WrappingInt32 → Option Nat
  | .write _ | .endInput => none
  | .fillWindow          => s.opening
  | .ackReceived ackno w =>
    if s.ackBeyond ackno then none
    else (s.acceptAck ackno w).opening.or (if s.ackNew ackno then some 0 else none)
  | .tick ms             => if s.Retransmits ms then some 0 else none

end TCPSender

/-- The time an operation takes. -/
def SenderOp.duration {α : Type} : SenderOp α → Nat
  | .tick ms => ms
  | _        => 0

/-- A sender, the ticks since its last period began, and what the timer showed then. -/
structure Clock where
  sender  : TCPSender
  since   : Nat
  carried : Nat

namespace Clock

open TCPSender

def ofConfig (capacity : Nat) (retxTimeout : UInt16) (isn : WrappingInt32) : Clock :=
  ⟨TCPSender.ofConfig capacity retxTimeout isn, 0, 0⟩

def step (c : Clock) (op : SenderOp WrappingInt32) : Clock where
  sender  := c.sender.step op
  since   := if (c.sender.period op).isSome then 0 else c.since + op.duration
  carried := (c.sender.period op).getD c.carried

/-- The clock after a run. -/
def after (capacity : Nat) (retxTimeout : UInt16) (isn : WrappingInt32) (ops : List (SenderOp WrappingInt32)) : Clock :=
  run step (ofConfig capacity retxTimeout isn) ops

theorem sender_run (c : Clock) (ops : List (SenderOp WrappingInt32)) :
    (run step c ops).sender = run TCPSender.step c.sender ops := by
  induction ops generalizing c with
  | nil => rfl
  | cons op ops ih => exact ih (c.step op)

/-- While something is outstanding the timer shows what it began with and the time since. -/
def Shows (s : TCPSender) (carried since : Nat) : Prop :=
  s.outSegments ≠ [] → s.timer.time = (carried + since) % 2 ^ 32

variable {s : TCPSender} {carried since : Nat}

/-- Filling the window goes on with the period, or begins a new one. -/
theorem Shows.fillWindow (h : Shows s carried since) (hinv : TimerInv s) :
    Shows s.fillWindow (s.opening.getD carried) (if s.opening.isSome then 0 else since) := by
  intro hne
  by_cases hopen : s.outSegments = [] ∧ s.fillWindow.outSegments ≠ []
  · -- the timer was started from zero, or it goes on from where it was
    have htimer : s.fillWindow.timer = s.timer.armed := by
      rcases timer_fillWindow s with ⟨hout, -⟩ | ⟨-, htimer⟩
      · exact absurd (hout.trans hopen.1) hne
      · exact htimer
    have hlt := hinv.sound.armed.time_lt
    rw [opening, if_pos hopen, htimer]
    rw [RETimer.time_armed] at hlt ⊢
    exact (Nat.mod_eq_of_lt hlt).symm
  · have hout : s.outSegments ≠ [] := fun hnil => hopen ⟨hnil, hne⟩
    have htimer : s.fillWindow.timer = s.timer := by
      rcases timer_fillWindow s with ⟨-, htimer⟩ | ⟨-, htimer⟩
      · exact htimer
      · rw [htimer, RETimer.armed_of_running (hinv.running hout)]
    rw [opening, if_neg hopen, htimer]
    exact h hout

theorem Shows.ackReceived (h : Shows s carried since) (hinv : TimerInv s) (ackno : WrappingInt32) (w : UInt16) :
    Shows (s.ackReceived ackno w) ((s.period (.ackReceived ackno w)).getD carried)
      (if (s.period (.ackReceived ackno w)).isSome then 0 else since) := by
  rw [ackReceived_eq, period]
  split
  · exact h
  · have hinvAck := hinv.acceptAck ackno w
    cases hnew : s.ackNew ackno with
    | true =>
        obtain ⟨hzero, -⟩ := timer_acceptAck_of_new w hnew
        have hack : Shows (s.acceptAck ackno w) 0 0 := fun _ => hzero
        have hfill := hack.fillWindow hinvAck
        cases hopen : (s.acceptAck ackno w).opening with
        | none =>
            rw [hopen] at hfill
            exact hfill
        | some t =>
            rw [hopen] at hfill
            exact hfill
    | false =>
        obtain ⟨htimer, -⟩ := timer_acceptAck_of_old w hnew
        have hack : Shows (s.acceptAck ackno w) carried since := by
          intro hne
          rw [htimer]
          exact h (outSegments_ne_nil_of_acceptAck hne)
        have hfill := hack.fillWindow hinvAck
        simp only [Bool.false_eq_true, if_false, Option.or_none]
        exact hfill

theorem Shows.tick (h : Shows s carried since) (hinv : TimerInv s) (ms : Nat) :
    Shows (s.tick ms) ((s.period (.tick ms)).getD carried)
      (if (s.period (.tick ms)).isSome then 0 else since + ms) := by
  intro hne
  rw [period]
  by_cases hretx : s.Retransmits ms
  · obtain ⟨seg, rest, -, heq⟩ := tick_of_retransmits hretx
    rw [if_pos hretx, heq]
    exact (timer_retransmit _ seg).1
  · rw [if_neg hretx]
    rw [tick_of_not_retransmits hretx] at hne ⊢
    have hout : s.outSegments ≠ [] := hne
    have hshows := h hout
    have hrunning := hinv.running hout
    rw [retransmits_iff] at hretx
    rw [RETimer.passTime_of_running hrunning] at hretx ⊢
    split
    · next hexpired =>
        rw [if_pos hexpired] at hretx
        exact absurd ⟨hout, rfl⟩ hretx
    · show uadd 32 s.timer.time (ms % 2 ^ 32) = (carried + (since + ms)) % 2 ^ 32
      rw [hshows, uadd]
      omega

/-- What holds of a clock after every run. -/
structure Timed (c : Clock) : Prop where
  timer : TimerInv c.sender
  shows : Shows c.sender c.carried c.since

theorem Timed.step {c : Clock} (h : Timed c) (op : SenderOp WrappingInt32) : Timed (c.step op) := by
  cases op with
  | write data => exact ⟨⟨h.timer.initial, h.timer.sound, h.timer.running⟩, h.shows⟩
  | endInput => exact ⟨⟨h.timer.initial, h.timer.sound, h.timer.running⟩, h.shows⟩
  | fillWindow => exact ⟨h.timer.fillWindow, h.shows.fillWindow h.timer⟩
  | ackReceived ackno w =>
      refine ⟨?_, h.shows.ackReceived h.timer ackno w⟩
      show TimerInv (c.sender.ackReceived ackno w)
      rw [ackReceived_eq]
      split
      · exact h.timer
      · exact (h.timer.acceptAck ackno w).fillWindow
  | tick ms => exact ⟨h.timer.tick ms, h.shows.tick h.timer ms⟩

theorem timed_after (capacity : Nat) (retxTimeout : UInt16) (isn : WrappingInt32)
    (ops : List (SenderOp WrappingInt32)) : Timed (after capacity retxTimeout isn ops) := by
  refine run_invariant ops Timed ⟨TimerInv.init _ _ _, ?_⟩ fun c op h => h.step op
  exact fun hne => absurd rfl hne

/-! ## Premature retransmissions -/

/-- A tick of at most `2 ^ 31` retransmits when the timer reaches its timeout. A sum that wraps is below it again. -/
theorem retransmits_iff_le {ms : Nat} (h : TimerInv s) (hms : ms ≤ 2 ^ 31) :
    s.Retransmits ms ↔ s.outSegments ≠ [] ∧ s.timer.rto ≤ s.timer.time + ms ∧ s.timer.time + ms < 2 ^ 32 := by
  have hfits := h.sound.fits
  have hbelow := h.sound.below
  rw [retransmits_iff]
  refine and_congr_right fun hout => ?_
  have hmod : ms % 2 ^ 32 = ms := Nat.mod_eq_of_lt (by omega)
  rw [RETimer.passTime_of_running (h.running hout), hmod]
  unfold uadd
  split
  · next hexpired =>
      refine iff_of_true rfl ?_
      omega
  · next hlt =>
      refine iff_of_false (by simp [h.running hout]) ?_
      omega

/-- **When no retransmission is premature.** In every state of every run, each tick that retransmits does so only
    after a full timeout since its period began, if and only if the timer shows no more than the time since then, or
    is too far from its timeout. It shows what it began the period with and the time since. -/
theorem never_premature_iff (capacity : Nat) (retxTimeout : UInt16) (isn : WrappingInt32)
    (ops : List (SenderOp WrappingInt32)) :
    let s := run TCPSender.step (TCPSender.ofConfig capacity retxTimeout isn) ops
    let c := after capacity retxTimeout isn ops
    ((∀ ms, ms ≤ 2 ^ 31 → s.Retransmits ms → s.timer.rto ≤ c.since + ms) ↔
      s.outSegments = [] ∨ s.timer.time ≤ c.since ∨ s.timer.time + 2 ^ 31 < s.timer.rto) ∧
    (s.outSegments ≠ [] → s.timer.time = (c.carried + c.since) % 2 ^ 32) := by
  intro s c
  have hs : c.sender = s := sender_run (ofConfig capacity retxTimeout isn) ops
  obtain ⟨hinv, hshows⟩ := timed_after capacity retxTimeout isn ops
  change TimerInv c.sender at hinv
  change Shows c.sender c.carried c.since at hshows
  rw [hs] at hinv hshows
  have hbelow := hinv.sound.below
  have hfits := hinv.sound.fits
  refine ⟨⟨fun hnever => ?_, fun hcond ms hms hretx => ?_⟩, hshows⟩
  · -- the tick that takes the timer exactly to its timeout
    by_contra hcond
    rw [not_or, not_or] at hcond
    obtain ⟨hout, hcarried, hnear⟩ := hcond
    have hms : s.timer.rto - s.timer.time ≤ 2 ^ 31 := by omega
    have hlate := hnever _ hms ((retransmits_iff_le hinv hms).mpr ⟨hout, by omega, by omega⟩)
    omega
  · obtain ⟨hout, hle, -⟩ := (retransmits_iff_le hinv hms).mp hretx
    rcases hcond with hnil | hclock | hfar
    · exact absurd hnil hout
    · omega
    · omega

/-- A second's idle time less a millisecond, then the SYN: it is sent again after one millisecond. -/
theorem premature_after_idle : ¬ ∀ (capacity : Nat) (retxTimeout : UInt16) (isn : WrappingInt32)
    (ops : List (SenderOp WrappingInt32)) (ms : Nat), (∀ t, .tick t ∈ ops → t ≤ 2 ^ 31) → ms ≤ 2 ^ 31 →
    (run TCPSender.step (TCPSender.ofConfig capacity retxTimeout isn) ops).Retransmits ms →
    (run TCPSender.step (TCPSender.ofConfig capacity retxTimeout isn) ops).timer.rto ≤
      (after capacity retxTimeout isn ops).since + ms := by
  intro h
  have hlate := h 64000 1000 (.ofRaw 0) [.tick 999, .fillWindow] 1 (by simp) (by decide) (by decide +kernel)
  revert hlate
  decide +kernel

end Clock

end Sponge
