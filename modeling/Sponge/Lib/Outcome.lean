import Mathlib

/-!
# `Lib.Outcome` — how a computation with state and exceptions ends

A computation in `EStateM ε σ` leaves a state behind also when it throws. `Ends r Q E` says how a result came about:
the computation returned, with `Q` of the value and the state, or it threw, with `E` of the exception and the state.
`Ends.bind` is the rule of sequencing and `Ends.mono` the one of consequence; `zoom` runs a computation on a part of
the state. `Threw` is for the one who finds the exception and the state afterwards.
-/

namespace Lib

variable {ε σ τ α β : Type}

/-- The result is a value and a state with `Q`, or an exception and a state with `E`. -/
def Ends (r : EStateM.Result ε σ α) (Q : α → σ → Prop) (E : ε → σ → Prop) : Prop :=
  match r with
  | .ok a s    => Q a s
  | .error e s => E e s

section Rules

variable {Q Q' : α → σ → Prop} {E E' : ε → σ → Prop}

theorem Ends.mono {r : EStateM.Result ε σ α} (h : Ends r Q E) (hQ : ∀ a s, Q a s → Q' a s)
    (hE : ∀ e s, E e s → E' e s) : Ends r Q' E' := by
  cases r with
  | ok a s => exact hQ a s h
  | error e s => exact hE e s h

theorem Ends.bind {m : EStateM ε σ α} {f : α → EStateM ε σ β} {R : β → σ → Prop} {s : σ} (h : Ends (m s) Q E)
    (hf : ∀ a s, Q a s → Ends (f a s) R E) : Ends ((m >>= f) s) R E := by
  show Ends (EStateM.bind m f s) R E
  unfold EStateM.bind
  cases hm : m s with
  | ok a s' =>
      rw [hm] at h
      exact hf a s' h
  | error e s' =>
      rw [hm] at h
      exact h

/-- More may be said about the value and the state on the side. -/
theorem Ends.and {r : EStateM.Result ε σ α} (h : Ends r Q E) (h' : Ends r Q' E') :
    Ends r (fun a s => Q a s ∧ Q' a s) E := by
  cases r with
  | ok a s => exact ⟨h, h'⟩
  | error e s => exact h

/-- Every result ends as it does. -/
theorem Ends.self (r : EStateM.Result ε σ α) : Ends r (fun a s => r = .ok a s) (fun e s => r = .error e s) := by
  cases r with
  | ok a s => exact rfl
  | error e s => exact rfl

/-- The result itself may be remembered. -/
theorem Ends.and_self {r : EStateM.Result ε σ α} (h : Ends r Q E) :
    Ends r (fun a s => Q a s ∧ r = .ok a s) (fun e s => E e s ∧ r = .error e s) := by
  cases r with
  | ok a s => exact ⟨h, rfl⟩
  | error e s => exact ⟨h, rfl⟩

theorem Ends.of_ok {m : EStateM ε σ α} {s s' : σ} {a : α} (h : Ends (m s) Q E) (hm : m s = .ok a s') : Q a s' := by
  rw [hm] at h
  exact h

/-- The computation has thrown `e`, and `s` is what it has left. -/
def Threw (m : EStateM ε σ α) (e : ε) (s : σ) : Prop := ∃ s₀, m s₀ = .error e s

theorem Threw.of_ends {m : EStateM ε σ α} {e : ε} {s : σ} (h : Threw m e s) (hm : ∀ s, Ends (m s) Q E) : E e s := by
  obtain ⟨s₀, hres⟩ := h
  have hends := hm s₀
  rw [hres] at hends
  exact hends

end Rules

/-! ## Parts of the state -/

/-- Run a computation on the part `view s` of the state `s`, and put back what it leaves. -/
def zoom (view : σ → τ) (put : τ → σ → σ) (m : EStateM ε τ α) : EStateM ε σ α := fun s =>
  match m (view s) with
  | .ok a t    => .ok a (put t s)
  | .error e t => .error e (put t s)

theorem Ends.zoom {view : σ → τ} {m : EStateM ε τ α} {Q : α → τ → Prop} {E : ε → τ → Prop} (put : τ → σ → σ) (s : σ)
    (h : Ends (m (view s)) Q E) :
    Ends (Lib.zoom view put m s) (fun a s' => ∃ t, s' = put t s ∧ Q a t) (fun e s' => ∃ t, s' = put t s ∧ E e t) := by
  unfold Lib.zoom
  cases hm : m (view s) with
  | ok a t =>
      rw [hm] at h
      exact ⟨t, rfl, h⟩
  | error e t =>
      rw [hm] at h
      exact ⟨t, rfl, h⟩

/-- What is said of the exceptions alone does not depend on where the computation runs. -/
theorem Ends.zoom_throws {view : σ → τ} {m : EStateM ε τ α} {E : ε → Prop} (put : τ → σ → σ) (s : σ)
    (h : Ends (m (view s)) (fun _ _ => True) (fun e _ => E e)) :
    Ends (Lib.zoom view put m s) (fun _ _ => True) (fun e _ => E e) := by
  refine (h.zoom put s).mono (fun _ _ _ => trivial) ?_
  rintro e _ ⟨t, -, he⟩
  exact he

end Lib
