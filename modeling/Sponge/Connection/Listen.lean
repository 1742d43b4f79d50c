import Sponge.Connection.Silent

/-!
# `Connection.Listen` — what a listening connection lets in

Until it is opened a connection keeps out every segment without SYN, and nothing but its clocks moves (`unopened`). A
segment with both SYN and RST gets in: `_syn_set` is raised and our own SYN queued before the RST flag is looked at,
so the guard that should drop it no longer holds and the connection is reset. So a connection goes on listening if
and only if no SYN at all arrives (`listening_iff`).
-/

namespace Sponge

open Lib

namespace TCPConnection

/-- Active in LISTEN, both streams in order, nothing sent. -/
structure Listening (c : TCPConnection) : Prop where
  active : c.active = true
  state : c.state = .ofState .listen
  inbound : c.inboundStream.error = false
  outbound : c.sender.stream.error = false
  silent : c.segmentsOut = []

/-- What should leave a listening connection alone: time, reads, and segments that are not a real SYN. -/
def Op.ignorable : Op → Bool
  | .connect | .write _ | .endInputStream => false
  | .tick _ | .readInbound _              => true
  | .segmentReceived seg                  => !seg.header.syn || seg.header.rst

/-! ## A connection that was not opened -/

/-- A new connection some time later. -/
def unopened (cfg : TCPConfig) (randomIsn : WrappingInt32) (elapsed : Nat) (timer : RETimer) : TCPConnection :=
  let c := ofConfig cfg randomIsn
  { c with timeSinceLastSegmentReceived := elapsed, sender := { c.sender with timer } }

section Unopened

variable (cfg : TCPConfig) (randomIsn : WrappingInt32) (elapsed : Nat) (timer : RETimer)

theorem listening_unopened : Listening (unopened cfg randomIsn elapsed timer) where
  active := rfl
  state := rfl
  inbound := rfl
  outbound := rfl
  silent := rfl

/-- There is nothing to retransmit and no stream has ended. -/
theorem tick_unopened (ms : Nat) : (unopened cfg randomIsn elapsed timer).tick ms =
    unopened cfg randomIsn (uadd 64 elapsed ms) (timer.passTime (ms % 2 ^ 32)) := by
  have helapse : (unopened cfg randomIsn elapsed timer).elapse ms =
      unopened cfg randomIsn (uadd 64 elapsed ms) (timer.passTime (ms % 2 ^ 32)) := rfl
  have hstuck : ∀ t tm, (unopened cfg randomIsn t tm).resetIfStuck = unopened cfg randomIsn t tm := fun _ _ => rfl
  have hclean : ∀ t tm, (unopened cfg randomIsn t tm).cleanShutdown = unopened cfg randomIsn t tm := by
    intro t tm
    have hopen : (unopened cfg randomIsn t tm).receiver.streamOut.inputEnded = false := rfl
    simp [cleanShutdown, hopen]
  have hactive : ¬ (unopened cfg randomIsn elapsed timer).active = false := Bool.noConfusion
  rw [tick, if_neg hactive, helapse, hstuck, hclean]
  rfl

theorem readInbound_unopened (len : Nat) :
    ((unopened cfg randomIsn elapsed timer).readInbound len).2 = unopened cfg randomIsn elapsed timer := by
  cases len with
  | zero => rfl
  | succ len => rfl

/-- Nothing without SYN moves more than the clocks. -/
theorem step_unopened {op : Op} (hop : op.ignorable = true) (hsyn : op.isSyn = false) :
    ∃ elapsed' timer', (unopened cfg randomIsn elapsed timer).step op = unopened cfg randomIsn elapsed' timer' := by
  cases op with
  | connect => cases hop
  | write data => cases hop
  | endInputStream => cases hop
  | tick ms => exact ⟨_, _, tick_unopened cfg randomIsn elapsed timer ms⟩
  | segmentReceived seg => exact ⟨_, _, segmentReceived_of_not_admits hsyn⟩
  | readInbound len => exact ⟨_, _, readInbound_unopened cfg randomIsn elapsed timer len⟩

/-- A SYN with RST is let in and resets the connection. -/
theorem step_unopened_syn {op : Op} (hop : op.ignorable = true) (hsyn : op.isSyn = true) :
    ((unopened cfg randomIsn elapsed timer).step op).active = false := by
  cases op with
  | segmentReceived seg =>
      have hseg : seg.header.syn = true := hsyn
      have hrst : seg.header.rst = true := by
        rw [Op.ignorable, hseg, Bool.not_true, Bool.false_or] at hop
        exact hop
      have hadmits : (unopened cfg randomIsn elapsed timer).admits seg = true := hseg
      show ((unopened cfg randomIsn elapsed timer).segmentReceived seg).active = false
      rw [segmentReceived_of_rst hadmits hrst]
      rfl
  | connect => cases hsyn
  | write data => cases hsyn
  | endInputStream => cases hsyn
  | tick ms => cases hsyn
  | readInbound len => cases hsyn

end Unopened

/-! ## Runs -/

/-- **What becomes of a listening connection**: only its clocks move until the first SYN, which ends it. -/
theorem unopened_run (cfg : TCPConfig) (randomIsn : WrappingInt32) (ops : List Op)
    (hops : ∀ op ∈ ops, op.ignorable = true) :
    ((∀ op ∈ ops, op.isSyn = false) ∧
      ∃ elapsed timer, run step (ofConfig cfg randomIsn) ops = unopened cfg randomIsn elapsed timer) ∨
    ((∃ op ∈ ops, op.isSyn = true) ∧ (run step (ofConfig cfg randomIsn) ops).active = false) := by
  refine run_history ops (fun hist (c : TCPConnection) =>
    ((∀ op ∈ hist, op.isSyn = false) ∧ ∃ elapsed timer, c = unopened cfg randomIsn elapsed timer) ∨
    ((∃ op ∈ hist, op.isSyn = true) ∧ c.active = false)) (Or.inl ⟨nofun, _, _, rfl⟩) ?_
  intro hist c op hinv hpart
  have hop := hops op (hpart.subset (List.mem_append_right _ List.mem_cons_self))
  rcases hinv with ⟨hquiet, elapsed, timer, rfl⟩ | ⟨⟨syn, hmem, hsyn⟩, hactive⟩
  · cases hsyn : op.isSyn with
    | false =>
        refine Or.inl ⟨?_, step_unopened cfg randomIsn elapsed timer hop hsyn⟩
        intro op' hmem
        rcases List.mem_append.mp hmem with hold | hnew
        · exact hquiet op' hold
        · rw [List.mem_singleton.mp hnew]
          exact hsyn
    | true =>
        exact Or.inr ⟨⟨op, List.mem_append_right _ List.mem_cons_self, hsyn⟩,
          step_unopened_syn cfg randomIsn elapsed timer hop hsyn⟩
  · exact Or.inr ⟨⟨syn, List.mem_append_left _ hmem, hsyn⟩, active_step op hactive⟩

/-- **A connection goes on listening exactly as long as no SYN arrives**, whatever other segments do; one with RST
    is not ignored. -/
theorem listening_iff (cfg : TCPConfig) (randomIsn : WrappingInt32) (ops : List Op)
    (hops : ∀ op ∈ ops, op.ignorable = true) :
    Listening (run step (ofConfig cfg randomIsn) ops) ↔ ∀ op ∈ ops, op.isSyn = false := by
  rcases unopened_run cfg randomIsn ops hops with ⟨hquiet, elapsed, timer, hunopened⟩ | ⟨⟨op, hmem, hsyn⟩, hactive⟩
  · rw [hunopened]
    exact iff_of_true (listening_unopened cfg randomIsn elapsed timer) hquiet
  · refine iff_of_false (fun h => ?_) (fun h => ?_)
    · rw [h.active] at hactive
      cases hactive
    · rw [h op hmem] at hsyn
      cases hsyn

/-- Resets, acknowledgments and a FIN are kept out. -/
theorem listening_without_syn :
    Listening (run step (ofConfig {} (.ofRaw 0))
      [.segmentReceived { header := { rst := true, ack := true } }, .tick 100000,
        .segmentReceived { header := { ack := true, fin := true }, payload := [1] }]) :=
  (listening_iff {} (.ofRaw 0) _ (by decide)).mpr (by decide)

/-- One segment with SYN and RST resets a listening connection. -/
theorem listening_not_always : ¬ ∀ (cfg : TCPConfig) (randomIsn : WrappingInt32) (ops : List Op),
    (∀ op ∈ ops, op.ignorable = true) → Listening (run step (ofConfig cfg randomIsn) ops) := by
  intro h
  have hactive := (h {} (.ofRaw 0) [.segmentReceived { header := { syn := true, rst := true } }] (by decide)).active
  revert hactive
  decide +kernel

end TCPConnection

end Sponge
