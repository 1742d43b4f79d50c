import Sponge.Connection.Effect

/-!
# `Connection.Silent` — what a connection that has stopped still sends

Only `tick` and `segment_received` look at `_active`. The three operations of the application go on to `sendseg`,
which makes up an empty segment when there is nothing to send. So a connection that has stopped never becomes
active again, and it is silent if and only if the application leaves it alone (`silent_iff`).
-/

namespace Sponge

open Lib

namespace TCPConnection

variable {c : TCPConnection}

/-- The operations of the application that send. -/
def Op.sends : Op → Bool
  | .connect | .write _ | .endInputStream          => true
  | .tick _ | .segmentReceived _ | .readInbound _  => false

/-! ## A step of an inactive connection -/

theorem cleanShutdown_active (h : c.active = false) : c.cleanShutdown.active = false := by
  unfold cleanShutdown
  dsimp only
  split_ifs <;> first | rfl | exact h

theorem sendseg_active (h : c.active = false) : c.sendseg.active = false := by
  rw [sendseg_eq]
  apply cleanShutdown_active
  rw [afterSend, h, Bool.false_and]

/-- The clock and the network are ignored. -/
theorem tick_inactive (h : c.active = false) (ms : Nat) : c.tick ms = c := by
  rw [tick, if_pos h]

theorem segmentReceived_inactive (h : c.active = false) (seg : TCPSegment) : c.segmentReceived seg = c := by
  rw [segmentReceived, if_pos h]

/-- What has stopped does not start again. -/
theorem active_step (op : Op) (h : c.active = false) : (c.step op).active = false := by
  cases op with
  | connect => exact sendseg_active h
  | write data => exact sendseg_active h
  | endInputStream => exact sendseg_active h
  | tick ms =>
      show (c.tick ms).active = false
      rw [tick_inactive h]
      exact h
  | segmentReceived seg =>
      show (c.segmentReceived seg).active = false
      rw [segmentReceived_inactive h]
      exact h
  | readInbound len => exact h

theorem sendseg_segmentsOut_ne (c : TCPConnection) : c.sendseg.segmentsOut ≠ c.segmentsOut := by
  rw [sendseg_segmentsOut]
  intro hsame
  have hnil := List.map_eq_nil_iff.mp (List.append_right_eq_self.mp hsame)
  exact c.pending_ne_nil hnil

/-- The operations that send do so whether the connection is active or not; the others do not. -/
theorem segmentsOut_step_iff (op : Op) (h : c.active = false) :
    (c.step op).segmentsOut = c.segmentsOut ↔ op.sends = false := by
  cases op with
  | connect => exact iff_of_false (sendseg_segmentsOut_ne { c with sender := _ }) Bool.noConfusion
  | write data => exact iff_of_false (sendseg_segmentsOut_ne { c with sender := _ }) Bool.noConfusion
  | endInputStream =>
      exact iff_of_false (sendseg_segmentsOut_ne { c with sender := _, closedByApp := true }) Bool.noConfusion
  | tick ms =>
      refine iff_of_true ?_ rfl
      show (c.tick ms).segmentsOut = c.segmentsOut
      rw [tick_inactive h]
  | segmentReceived seg =>
      refine iff_of_true ?_ rfl
      show (c.segmentReceived seg).segmentsOut = c.segmentsOut
      rw [segmentReceived_inactive h]
  | readInbound len => exact iff_of_true rfl rfl

/-! ## Whatever comes after -/

theorem active_run (ops : List Op) (h : c.active = false) : (run step c ops).active = false :=
  run_invariant ops (fun c : TCPConnection => c.active = false) h fun _ op h => active_step op h

/-- **A connection that has stopped stays so, and it is silent if and only if the application neither connects
    nor writes nor ends its stream.** -/
theorem silent_iff (cfg : TCPConfig) (randomIsn : WrappingInt32) (ops more : List Op)
    (h : (run step (ofConfig cfg randomIsn) ops).active = false) :
    let c := run step (ofConfig cfg randomIsn) ops
    (∀ mid, mid <+: more → (run step c mid).active = false) ∧
    ((∀ mid, mid <+: more → (run step c mid).segmentsOut = c.segmentsOut) ↔
      ∀ op ∈ more, op.sends = false) := by
  intro c
  refine ⟨fun mid _ => active_run mid h, ?_⟩
  constructor
  · intro hsame op hop
    obtain ⟨before, rest, rfl⟩ := List.append_of_mem hop
    have hstay := hsame before (List.prefix_append _ _)
    have hnext := hsame (before ++ [op]) ⟨rest, by simp⟩
    rw [run_append, ← hstay] at hnext
    exact (segmentsOut_step_iff op (active_run before h)).mp hnext
  · intro hquiet mid hp
    have hinv : (run step c mid).active = false ∧ (run step c mid).segmentsOut = c.segmentsOut := by
      refine run_history mid (fun _ (c' : TCPConnection) => c'.active = false ∧
        c'.segmentsOut = c.segmentsOut) ⟨h, rfl⟩ ?_
      intro hist c' op hc hp'
      have hop := hquiet op ((hp'.trans hp).subset (List.mem_append_right _ List.mem_cons_self))
      exact ⟨active_step op hc.1, ((segmentsOut_step_iff op hc.1).mpr hop).trans hc.2⟩
    exact hinv.2

/-- The peer answers our SYN with a reset. -/
def resetByPeer : List Op :=
  [.connect, .segmentReceived { header := { rst := true, ack := true, ackno := .ofRaw 1 } }]

theorem silent_after_reset :
    (run step (run step (ofConfig {} (.ofRaw 0)) resetByPeer)
      [.tick 5000, .segmentReceived { header := { syn := true } }, .readInbound 1]).segmentsOut =
      (run step (ofConfig {} (.ofRaw 0)) resetByPeer).segmentsOut :=
  (silent_iff {} (.ofRaw 0) resetByPeer
    [.tick 5000, .segmentReceived { header := { syn := true } }, .readInbound 1]
    (by decide +kernel)).2.mpr (by decide) _ (List.prefix_refl _)

/-- Ending the stream of a connection that was reset pushes one more segment. -/
theorem silent_not_always : ¬ ∀ (cfg : TCPConfig) (randomIsn : WrappingInt32) (ops more : List Op),
    (run step (ofConfig cfg randomIsn) ops).active = false →
    ∀ mid, mid <+: more → (run step (run step (ofConfig cfg randomIsn) ops) mid).segmentsOut =
      (run step (ofConfig cfg randomIsn) ops).segmentsOut := by
  intro h
  have hsame := h {} (.ofRaw 0) resetByPeer [.endInputStream] (by decide +kernel) [.endInputStream]
    (List.prefix_refl _)
  revert hsame
  decide +kernel

end TCPConnection

end Sponge
