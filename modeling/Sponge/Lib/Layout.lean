import Mathlib

/-!
# `Lib.Layout` — items laid end to end

A list of items, each with a length, occupies consecutive intervals: the first one starts at a given
position, every other one where its predecessor ends. `Laid len P n l` says that, laid out this way from `n`
on, every item satisfies `P` at its own position. `extent` is the total length.
-/

namespace Lib

variable {α : Type} (len : α → Nat) (P : Nat → α → Prop)

/-- The total length of a list of items. -/
def extent (l : List α) : Nat := (l.map len).sum

/-- Laid end to end from position `n`, every item satisfies `P` where it starts. -/
def Laid : Nat → List α → Prop
  | _, []     => True
  | n, a :: l => P n a ∧ Laid (n + len a) l

@[simp] theorem extent_nil : extent len ([] : List α) = 0 := rfl

@[simp] theorem extent_cons (a : α) (l : List α) : extent len (a :: l) = len a + extent len l := by
  simp [extent]

@[simp] theorem extent_append (l l' : List α) :
    extent len (l ++ l') = extent len l + extent len l' := by
  simp [extent]

variable {len P} {n : Nat} {l l' : List α}

/-- Items that all have a length have no extent only if there are none. -/
theorem extent_eq_zero_iff (hpos : ∀ a ∈ l, 0 < len a) : extent len l = 0 ↔ l = [] := by
  cases l with
  | nil => exact iff_of_true rfl rfl
  | cons a l =>
      have ha := hpos a List.mem_cons_self
      refine iff_of_false ?_ (List.cons_ne_nil a l)
      rw [extent_cons]
      omega

theorem laid_append : Laid len P n (l ++ l') ↔ Laid len P n l ∧ Laid len P (n + extent len l) l' := by
  induction l generalizing n with
  | nil => simp [Laid]
  | cons a l ih => simp only [List.cons_append, Laid, ih, extent_cons, and_assoc, Nat.add_assoc]

/-- In every split of the list, the item after the first part starts at its extent. -/
theorem laid_iff :
    Laid len P n l ↔ ∀ pre a post, l = pre ++ a :: post → P (n + extent len pre) a := by
  constructor
  · rintro h pre a post rfl
    exact (laid_append.mp h).2.1
  · intro h
    induction l generalizing n with
    | nil => trivial
    | cons a l ih =>
        refine ⟨h [] a l rfl, ih fun pre b post heq => ?_⟩
        have := h (a :: pre) b post (by rw [heq]; rfl)
        rwa [extent_cons, ← Nat.add_assoc] at this

/-- Every item has a position inside the extent of the whole. -/
theorem Laid.of_mem {a : α} (h : Laid len P n l) (ha : a ∈ l) :
    ∃ m, n ≤ m ∧ m + len a ≤ n + extent len l ∧ P m a := by
  obtain ⟨pre, post, rfl⟩ := List.append_of_mem ha
  refine ⟨n + extent len pre, by omega, ?_, laid_iff.mp h pre a post rfl⟩
  rw [extent_append, extent_cons]
  omega

end Lib
