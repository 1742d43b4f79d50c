import Mathlib

/-!
# `Lib.Run` — runs of a deterministic machine under a guard

A machine is a step function `step : σ → ι → σ`; a run is a fold over a list of inputs. Restrictions on the
environment (a window that is respected, a message that was really sent) are a guard `ok : σ → ι → Prop`
on the state before each step, collected along the run by `Guarded`.

There is one rule for each shape of invariant: `Guarded.history` for an invariant that also speaks about
the inputs so far, `Guarded.invariant` for one about the state alone, `run_invariant` when no guard is
needed, `run_history` when the inputs are restricted as a list. `Guarded.imp` trades one guard for another.
-/

namespace Lib

variable {σ ι : Type} (step : σ → ι → σ) (ok : σ → ι → Prop)

/-- The state after a list of inputs. -/
def run (s : σ) (ops : List ι) : σ := ops.foldl step s

/-- Every input of the list meets the guard in the state it arrives in. -/
def Guarded : σ → List ι → Prop
  | _, []        => True
  | s, op :: ops => ok s op ∧ Guarded (step s op) ops

instance Guarded.decidable [∀ s op, Decidable (ok s op)] :
    (s : σ) → (ops : List ι) → Decidable (Guarded step ok s ops)
  | _, []        => .isTrue trivial
  | s, op :: ops => @instDecidableAnd _ _ _ (Guarded.decidable (step s op) ops)

@[simp] theorem run_nil (s : σ) : run step s [] = s := rfl

@[simp] theorem run_cons (s : σ) (op : ι) (ops : List ι) :
    run step s (op :: ops) = run step (step s op) ops := rfl

theorem run_append (s : σ) (ops ops' : List ι) :
    run step s (ops ++ ops') = run step (run step s ops) ops' := List.foldl_append

variable {step ok}

theorem Guarded.append {s : σ} {ops ops' : List ι} :
    Guarded step ok s (ops ++ ops') ↔
      Guarded step ok s ops ∧ Guarded step ok (run step s ops) ops' := by
  induction ops generalizing s with
  | nil => simp [Guarded]
  | cons op ops ih => simp only [List.cons_append, Guarded, ih, run_cons, and_assoc]

/-- A guarded run is guarded up to every moment of it. -/
theorem Guarded.of_isPrefix {s : σ} {ops ops' : List ι} (h : Guarded step ok s ops') (hp : ops <+: ops') :
    Guarded step ok s ops := by
  obtain ⟨t, rfl⟩ := hp
  exact (Guarded.append.mp h).1

/-- A run is guarded if and only if each of its inputs meets the guard where it arrives. -/
theorem Guarded.iff_forall {s : σ} {ops : List ι} :
    Guarded step ok s ops ↔ ∀ hist op, hist ++ [op] <+: ops → ok (run step s hist) op := by
  constructor
  · intro h hist op hp
    exact (Guarded.append.mp (h.of_isPrefix hp)).2.1
  · intro h
    induction ops generalizing s with
    | nil => trivial
    | cons op ops ih =>
        refine ⟨h [] op (by simp), ih ?_⟩
        intro hist op' hp
        exact h (op :: hist) op' (List.cons_prefix_cons.mpr ⟨rfl, hp⟩)

/-- The rule for invariants over the inputs so far and the state. -/
theorem Guarded.history {s : σ} {ops : List ι} (h : Guarded step ok s ops)
    (Inv : List ι → σ → Prop) (hinit : Inv [] s)
    (hstep : ∀ hist s op, Inv hist s → ok s op → Inv (hist ++ [op]) (step s op)) :
    Inv ops (run step s ops) := by
  induction ops using List.reverseRecOn with
  | nil => exact hinit
  | append_singleton ops op ih =>
      obtain ⟨hpre, hlast⟩ := Guarded.append.mp h
      rw [run_append]
      exact hstep ops _ op (ih hpre) hlast.1

/-- The rule for invariants over the state alone. -/
theorem Guarded.invariant {s : σ} {ops : List ι} (h : Guarded step ok s ops) (Inv : σ → Prop)
    (hinit : Inv s) (hstep : ∀ s op, Inv s → ok s op → Inv (step s op)) : Inv (run step s ops) :=
  h.history (fun _ => Inv) hinit fun _ => hstep

/-- A guard may be replaced by another that follows from it together with an invariant. -/
theorem Guarded.imp {ok' : σ → ι → Prop} {s : σ} {ops : List ι} (h : Guarded step ok s ops) (Inv : σ → Prop)
    (hinit : Inv s) (hok : ∀ s op, Inv s → ok s op → ok' s op)
    (hstep : ∀ s op, Inv s → ok s op → Inv (step s op)) : Guarded step ok' s ops := by
  induction ops generalizing s with
  | nil => trivial
  | cons op ops ih => exact ⟨hok s op hinit h.1, ih h.2 (hstep s op hinit h.1)⟩

/-- The rule when the restriction is on the list of inputs as a whole: the step may use that the inputs so
    far, with the present one, begin that list. -/
theorem run_history {s : σ} (ops : List ι) (Inv : List ι → σ → Prop) (hinit : Inv [] s)
    (hstep : ∀ hist s op, Inv hist s → hist ++ [op] <+: ops → Inv (hist ++ [op]) (step s op)) :
    Inv ops (run step s ops) := by
  induction ops using List.reverseRecOn with
  | nil => exact hinit
  | append_singleton ops op ih =>
      rw [run_append]
      refine hstep ops _ op (ih fun hist s op' h hp => ?_) (List.prefix_refl _)
      exact hstep hist s op' h (hp.trans (List.prefix_append _ _))

/-- The rule without a guard. -/
theorem run_invariant {s : σ} (ops : List ι) (Inv : σ → Prop) (hinit : Inv s)
    (hstep : ∀ s op, Inv s → Inv (step s op)) : Inv (run step s ops) := by
  induction ops generalizing s with
  | nil => exact hinit
  | cons op ops ih => exact ih (hstep s op hinit)

end Lib
