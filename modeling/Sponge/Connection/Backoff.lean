import Sponge.Connection.Endpoint
import Sponge.Connection.Silent
import Sponge.Sender.Backoff

/-!
# `Connection.Backoff` — the retransmission budget of a connection

Only `tick` lets the count of consecutive retransmissions grow, by one, and only on an active connection. The tick
that takes it past `MAX_RETX_ATTEMPTS` resets the connection (`tick_stuck`), and from then on the clock is ignored.
So the count never gets past that by more than one, the timeout is doubled at most nine times, and a 16-bit initial
timeout doubled nine times fits into 32 bits (`retransmission_budget`).
-/

namespace Sponge

open Lib TCPSender

namespace TCPConnection

variable {c : TCPConnection} {timeout : UInt16}

/-- Too many retransmissions: what `tick` asks after the sender had its turn. -/
def stuck (s : TCPSender) : Bool := decide (s.consecutiveRetransmission > TCPConfig.maxRetxAttempts)

/-! ## The tick that gives up -/

theorem resetIfStuck_of_stuck (h : stuck c.sender = true) :
    c.resetIfStuck = sendseg { c with rstSet := true } := if_pos (of_decide_eq_true h)

theorem resetIfStuck_of_not_stuck (h : stuck c.sender = false) : c.resetIfStuck = c :=
  if_neg (of_decide_eq_false h)

/-- `sendseg` with the reset flag set leaves the connection inactive. -/
theorem sendseg_active_of_rst (h : c.rstSet = true) : c.sendseg.active = false := by
  rw [sendseg_eq]
  apply cleanShutdown_active
  rw [afterSend, h, Bool.not_true, Bool.and_false]

/-- A tick of an active connection whose sender has tried too often is one call of `sendseg` with the reset flag
    set. -/
theorem tick_stuck {ms : Nat} (hact : c.active = true) (h : stuck (c.sender.tick ms) = true) :
    c.tick ms = (sendseg { c.elapse ms with rstSet := true }).cleanShutdown := by
  have hoff : (sendseg { c.elapse ms with rstSet := true }).cleanShutdown.active = false :=
    cleanShutdown_active (sendseg_active_of_rst rfl)
  rw [tick, if_neg (by rw [hact]; exact Bool.noConfusion)]
  dsimp only
  rw [resetIfStuck_of_stuck h, if_pos hoff]

/-- `clean_shutdown` does not stop a connection that has something to send. -/
theorem cleanShutdown_active_of_queue (hact : c.active = true) (hqueue : c.sender.segmentsOut.isEmpty = false) :
    c.cleanShutdown.active = true := by
  by_contra hoff
  rw [Bool.not_eq_true] at hoff
  rcases cleanShutdown_inactive _ hoff with hold | ⟨-, hnil⟩
  · exact absurd (hact.symm.trans hold) Bool.noConfusion
  · rw [hnil] at hqueue
    cases hqueue

/-- Any other tick of an active connection sends what the sender has queued, if anything. -/
theorem tick_not_stuck {ms : Nat} (hact : c.active = true) (h : stuck (c.sender.tick ms) = false) :
    c.tick ms = if (c.sender.tick ms).segmentsOut.isEmpty then (c.elapse ms).cleanShutdown
      else (c.elapse ms).cleanShutdown.sendseg := by
  rw [tick, if_neg (by rw [hact]; exact Bool.noConfusion)]
  dsimp only
  rw [resetIfStuck_of_not_stuck h, cleanShutdown_sender]
  change (if _ then _ else if (c.sender.tick ms).segmentsOut.isEmpty then _ else _) = _
  cases hqueue : (c.sender.tick ms).segmentsOut.isEmpty with
  | true => exact ite_self _
  | false =>
      have hstill : (c.elapse ms).cleanShutdown.active = true := cleanShutdown_active_of_queue hact hqueue
      rw [hstill, if_neg Bool.noConfusion]

theorem stamp_rst (r : TCPReceiver) (seg : TCPSegment) : (stamp r true seg).header.rst = true := by
  rw [stamp]
  cases r.ackno <;> rfl

/-- The connection has given up between `c` and `c'`: it is inactive, both streams are in error, and a segment with
    RST has been pushed. -/
structure GivesUp (c c' : TCPConnection) : Prop where
  inactive : c'.active = false
  outbound : c'.sender.stream.error = true
  inbound  : c'.inboundStream.error = true
  reset    : ∃ new, c'.segmentsOut = c.segmentsOut ++ new ∧ ∃ seg ∈ new, seg.header.rst = true

theorem givesUp_tick {ms : Nat} (hact : c.active = true) (h : stuck (c.sender.tick ms) = true) :
    GivesUp c (c.tick ms) := by
  rw [tick_stuck hact h]
  have hh := Handled.sendseg { c.elapse ms with rstSet := true }
  constructor
  · exact cleanShutdown_active (sendseg_active_of_rst rfl)
  · rw [cleanShutdown_sender, hh.stream_error]
    rfl
  · rw [inboundStream, cleanShutdown_receiver, hh.streamOut_error]
    rfl
  · rw [cleanShutdown_segmentsOut, sendseg_segmentsOut]
    obtain ⟨seg, hseg⟩ := List.exists_mem_of_ne_nil _ (pending_ne_nil { c.elapse ms with rstSet := true })
    exact ⟨_, rfl, _, List.mem_map_of_mem hseg, stamp_rst _ seg⟩

/-! ## The budget -/

/-- The timeout is exactly doubled for each retransmission, there are at most nine of them, and at most eight while
    the connection is active. -/
structure Budget (timeout : UInt16) (c : TCPConnection) : Prop where
  backs : Backs timeout.toNat c.sender
  total : c.sender.consecutiveRetransmission ≤ TCPConfig.maxRetxAttempts + 1
  live  : c.active = true → c.sender.consecutiveRetransmission ≤ TCPConfig.maxRetxAttempts

theorem Budget.init (cfg : TCPConfig) (randomIsn : WrappingInt32) :
    Budget cfg.rtTimeout (ofConfig cfg randomIsn) where
  backs := Backs.init _ _ _
  total := Nat.zero_le _
  live  := fun _ => Nat.zero_le _

/-- The queue and the error flag do not matter. -/
theorem Handled.backs {c' : TCPConnection} {s : TCPSender} {r : TCPReceiver} {failed : Bool} {n m : Nat}
    (h : Handled c s r failed c') (hs : Backs n s ∧ s.consecutiveRetransmission ≤ m) :
    Backs n c'.sender ∧ c'.sender.consecutiveRetransmission ≤ m :=
  h.transport (P := fun s => Backs n s ∧ s.consecutiveRetransmission ≤ m)
    (fun _ _ hs => ⟨⟨hs.1.initial, hs.1.rto⟩, hs.2⟩) (fun _ hs => ⟨⟨hs.1.initial, hs.1.rto⟩, hs.2⟩) hs

theorem retx_ackReceived_le (s : TCPSender) (ackno : WrappingInt32) (w : UInt16) :
    (s.ackReceived ackno w).consecutiveRetransmission ≤ s.consecutiveRetransmission := by
  rw [ackReceived_eq]
  split
  · exact le_refl _
  · rw [retx_fillWindow]
    cases hnew : s.ackNew ackno with
    | true => rw [(backoff_acceptAck_of_new w hnew).2]; exact Nat.zero_le _
    | false => rw [(timer_acceptAck_of_old w hnew).2]

/-- An operation that is not a tick does not add to the count. -/
theorem backs_senderAfter {m : Nat} (op : Op) (hop : ∀ ms, op ≠ .tick ms) (hs : Backs timeout.toNat c.sender)
    (hm : c.sender.consecutiveRetransmission ≤ m) :
    Backs timeout.toNat (c.senderAfter op) ∧ (c.senderAfter op).consecutiveRetransmission ≤ m := by
  refine senderAfter_rule
    (P := fun s => Backs timeout.toNat s ∧ s.consecutiveRetransmission ≤ m) op ⟨hs, hm⟩ ?_ ?_ ?_ ?_ ?_
  · intro s hs
    rw [retx_fillWindow]
    exact ⟨hs.1.fillWindow, hs.2⟩
  · intro data _
    have hwrite : Backs timeout.toNat (c.sender.write data) := ⟨hs.initial, hs.rto⟩
    rw [retx_fillWindow]
    exact ⟨hwrite.fillWindow, hm⟩
  · intro _
    have hend : Backs timeout.toNat c.sender.endInput := ⟨hs.initial, hs.rto⟩
    rw [retx_fillWindow]
    exact ⟨hend.fillWindow, hm⟩
  · intro s seg _ _ hs
    exact ⟨hs.1.ackReceived _ _, (retx_ackReceived_le s _ _).trans hs.2⟩
  · intro ms htick
    exact absurd htick (hop ms)

/-- Nine doublings of a 16-bit timeout stay inside 32 bits. -/
theorem timeout_fits (timeout : UInt16) : timeout.toNat * 2 ^ (TCPConfig.maxRetxAttempts + 1) < 2 ^ 32 := by
  have hlt := timeout.toNat_lt
  have hnine : 2 ^ (TCPConfig.maxRetxAttempts + 1) = 512 := rfl
  rw [hnine]
  omega

/-- On an active connection the count after a tick is the sender's own. -/
theorem retx_tick {ms : Nat} (hact : c.active = true) :
    (c.tick ms).sender.consecutiveRetransmission = (c.sender.tick ms).consecutiveRetransmission := by
  obtain ⟨failed, hh⟩ := Handled.tick c ms
  rw [hh.sender, senderAfter, if_pos hact]
  cases failed <;> rfl

/-- **A tick that ends past `MAX_RETX_ATTEMPTS` gives up.** -/
theorem givesUp_of_retx {ms : Nat} (hact : c.active = true)
    (h : TCPConfig.maxRetxAttempts < (c.tick ms).sender.consecutiveRetransmission) : GivesUp c (c.tick ms) := by
  rw [retx_tick hact] at h
  exact givesUp_tick hact (decide_eq_true h)

theorem Budget.tick (h : Budget timeout c) (ms : Nat) : Budget timeout (c.tick ms) := by
  by_cases hact : c.active = true
  · obtain ⟨hbacks, htotal⟩ := h.backs.tick (h.live hact) (by decide) (timeout_fits timeout) ms
    obtain ⟨failed, hh⟩ := Handled.tick c ms
    rw [senderAfter, if_pos hact] at hh
    obtain ⟨hbacks', htotal'⟩ := hh.backs ⟨hbacks, htotal⟩
    refine ⟨hbacks', htotal', ?_⟩
    intro hstill
    by_contra hmore
    rw [(givesUp_of_retx hact (Nat.not_le.mp hmore)).inactive] at hstill
    cases hstill
  · rw [tick_inactive (by simpa using hact)]
    exact h

theorem Budget.step (h : Budget timeout c) (op : Op) : Budget timeout (c.step op) := by
  by_cases htick : ∃ ms, op = .tick ms
  · obtain ⟨ms, rfl⟩ := htick
    exact h.tick ms
  · have hop : ∀ ms, op ≠ .tick ms := fun ms heq => htick ⟨ms, heq⟩
    obtain ⟨failed, hh⟩ := handled_step c op
    obtain ⟨hbacks, htotal⟩ := hh.backs (backs_senderAfter op hop h.backs h.total)
    refine ⟨hbacks, htotal, ?_⟩
    intro hstill
    have hact : c.active = true := by
      by_contra hoff
      rw [active_step op (by simpa using hoff)] at hstill
      cases hstill
    exact (hh.backs (backs_senderAfter op hop h.backs (h.live hact))).2

theorem budget_run (cfg : TCPConfig) (randomIsn : WrappingInt32) (ops : List Op) :
    Budget cfg.rtTimeout (run step (ofConfig cfg randomIsn) ops) :=
  run_invariant ops (Budget cfg.rtTimeout) (Budget.init cfg randomIsn) fun _ op h => h.step op

/-- **The retransmission budget and the backoff stay exact.** In every run the timeout is the configured one times
    two to the number of consecutive retransmissions, as a number and not modulo `2 ^ 32`. There are never more
    than `MAX_RETX_ATTEMPTS + 1` of them, not more than `MAX_RETX_ATTEMPTS` while the connection is active, and
    the tick that gets past `MAX_RETX_ATTEMPTS` gives up. -/
theorem retransmission_budget (cfg : TCPConfig) (randomIsn : WrappingInt32) (ops : List Op) :
    let c := run step (ofConfig cfg randomIsn) ops
    c.sender.timer.rto = cfg.rtTimeout.toNat * 2 ^ c.sender.consecutiveRetransmission ∧
    c.sender.timer.rto < 2 ^ 32 ∧
    c.sender.consecutiveRetransmission ≤ TCPConfig.maxRetxAttempts + 1 ∧
    (c.active = true → c.sender.consecutiveRetransmission ≤ TCPConfig.maxRetxAttempts) ∧
    ∀ ms, c.sender.consecutiveRetransmission ≤ TCPConfig.maxRetxAttempts →
      TCPConfig.maxRetxAttempts < (c.tick ms).sender.consecutiveRetransmission → GivesUp c (c.tick ms) := by
  intro c
  have h : Budget cfg.rtTimeout c := budget_run cfg randomIsn ops
  refine ⟨h.backs.rto, ?_, h.total, h.live, ?_⟩
  · rw [h.backs.rto]
    apply lt_of_le_of_lt _ (timeout_fits cfg.rtTimeout)
    exact Nat.mul_le_mul_left _ (Nat.pow_le_pow_right (by decide) h.total)
  · intro ms hbefore hafter
    by_cases hact : c.active = true
    · exact givesUp_of_retx hact hafter
    · -- the clock of an inactive connection stands still
      rw [tick_inactive (by simpa using hact)] at hafter
      exact absurd hbefore (Nat.not_le.mpr hafter)

/-- Nine timeouts of an unanswered SYN: the last tick gives up. -/
theorem retransmission_budget_unanswered :
    let c := run step (ofConfig {} (.ofRaw 0))
      [.connect, .tick 1000, .tick 2000, .tick 4000, .tick 8000, .tick 16000, .tick 32000, .tick 64000, .tick 128000]
    c.sender.timer.rto = 256000 ∧ GivesUp c (c.tick 256000) := by
  intro c
  have h := retransmission_budget {} (.ofRaw 0)
    [.connect, .tick 1000, .tick 2000, .tick 4000, .tick 8000, .tick 16000, .tick 32000, .tick 64000, .tick 128000]
  exact ⟨h.1.trans (by decide +kernel), h.2.2.2.2 256000 (by decide +kernel) (by decide +kernel)⟩

end TCPConnection

end Sponge
