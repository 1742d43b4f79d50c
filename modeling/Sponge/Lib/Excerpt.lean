import Mathlib

/-!
# `Lib.Excerpt` — excerpts of a list, taken at a position

`Excerpt M S n cs` says that `cs` is what the list `S` holds from position `n` on. The bound `M` restricts
the promise to positions below `M`; above it nothing is said, which lets an excerpt lie about positions
that a caller never looks at. With `n ≤ S.length < M` the promise covers all of `cs` (`length_le`).
-/

namespace Lib

variable {α : Type} {M n : Nat} {S S' cs : List α}

/-- Below position `M`, the elements of `cs` are those of `S` from position `n` on. -/
def Excerpt (M : Nat) (S : List α) (n : Nat) (cs : List α) : Prop :=
  ∀ (j : Nat) (c : α), cs[j]? = some c → n + j < M → S[n + j]? = some c

namespace Excerpt

theorem nil : Excerpt M S n [] := by intro j c hj; simp at hj

/-- A slice of the list is an excerpt of it. -/
theorem of_slice (M n k : Nat) (S : List α) : Excerpt M S n ((S.drop n).take k) := by
  intro j c hj _
  rw [List.getElem?_take] at hj
  split_ifs at hj
  rwa [List.getElem?_drop] at hj

theorem take (h : Excerpt M S n cs) (k : Nat) : Excerpt M S n (cs.take k) := by
  intro j c hj hlt
  rw [List.getElem?_take] at hj
  split_ifs at hj
  exact h j c hj hlt

theorem drop (h : Excerpt M S n cs) (k : Nat) : Excerpt M S (n + k) (cs.drop k) := by
  intro j c hj hlt
  rw [List.getElem?_drop] at hj
  have := h (k + j) c hj (by omega)
  rwa [show n + k + j = n + (k + j) by omega]

/-- Excerpts survive when the list grows at its end. -/
theorem mono (h : Excerpt M S n cs) (hS : S <+: S') : Excerpt M S' n cs := by
  intro j c hj hlt
  obtain ⟨t, rfl⟩ := hS
  have hold := h j c hj hlt
  rwa [List.getElem?_append_left (List.getElem?_eq_some_iff.mp hold).1]

/-- An excerpt that lies inside an initial part is one of that part. -/
theorem restrict (h : Excerpt M S' n cs) (hS : S <+: S') (hlen : n + cs.length ≤ S.length) : Excerpt M S n cs := by
  intro j c hj hlt
  have hget := h j c hj hlt
  have hin : n + j < S.length := by
    have := (List.getElem?_eq_some_iff.mp hj).1
    omega
  obtain ⟨t, rfl⟩ := hS
  rwa [List.getElem?_append_left hin] at hget

/-- An excerpt that starts inside a list shorter than the bound ends inside it. -/
theorem length_le (h : Excerpt M S n cs) (hn : n ≤ S.length) (hM : S.length < M) :
    n + cs.length ≤ S.length := by
  -- position by position: each element of `cs` shows that `S` is one longer
  have hstep : ∀ j, j ≤ cs.length → n + j ≤ S.length := by
    intro j
    induction j with
    | zero => intro _; omega
    | succ j ih =>
        intro hj
        have hlt : j < cs.length := hj
        have hget := h j cs[j] (List.getElem?_eq_getElem hlt) (by have := ih (by omega); omega)
        have := (List.getElem?_eq_some_iff.mp hget).1
        omega
  exact hstep cs.length (le_refl _)

/-- Appending an excerpt to the part before it gives a longer initial part. -/
theorem take_append (h : Excerpt M S n cs) (hn : n ≤ S.length) (hM : S.length < M) :
    S.take n ++ cs = S.take (n + cs.length) := by
  have hlen := h.length_le hn hM
  have hpre : cs <+: S.drop n := by
    rw [List.prefix_iff_getElem?]
    intro j hj
    rw [List.getElem?_drop]
    exact h j cs[j] (List.getElem?_eq_getElem hj) (by omega)
  rw [List.take_add, ← List.prefix_iff_eq_take.mp hpre]

end Excerpt

end Lib
