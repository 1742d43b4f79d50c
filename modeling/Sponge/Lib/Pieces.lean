import Mathlib

/-!
# `Lib.Pieces` — dropping the front of a string in pieces

A string is kept as a list of pieces of some type `π`, with a function `items` that says what is in a piece.
`dropFront` removes `n` items: whole pieces as long as they are used up, and then the front of one.

Whatever the pieces are, the loop does to their contents what `dropPieces` does to a list of lists
(`dropFront_simulates`), and that is `List.drop` on the concatenation (`flatten_dropPieces`).
-/

namespace Lib

variable {π ε α : Type}

/-- Remove `n` items from the front. `cut` removes fewer items than there are from a single piece. -/
def dropFront (size : π → Nat) (cut : (p : π) → (n : Nat) → n < size p → Except ε π) (tooShort : ε) :
    List π → Nat → Except ε (List π)
  | l,      0     => .ok l
  | [],     _ + 1 => .error tooShort
  | p :: l, n + 1 =>
      if h : n + 1 < size p then (cut p (n + 1) h).map (· :: l)
      else dropFront size cut tooShort l (n + 1 - size p)

/-- The same on lists. -/
def dropPieces (tooShort : ε) (l : List (List α)) (n : Nat) : Except ε (List (List α)) :=
  dropFront List.length (fun p n _ => .ok (p.drop n)) tooShort l n

/-- `size` and `cut` are what they should be, for pieces that contain `items`. -/
structure Cuts (items : π → List α) (size : π → Nat) (cut : (p : π) → (n : Nat) → n < size p → Except ε π) : Prop where
  size_eq : ∀ p, size p = (items p).length
  cut_eq  : ∀ p n h, (cut p n h).map items = .ok ((items p).drop n)

section Equations

variable {size : π → Nat} {cut : (p : π) → (n : Nat) → n < size p → Except ε π} {tooShort : ε}
variable {p : π} {l : List π} {n : Nat}

@[simp] theorem dropFront_zero (l : List π) : dropFront size cut tooShort l 0 = .ok l := by
  cases l <;> rfl

theorem dropFront_of_lt (hpos : 0 < n) (h : n < size p) :
    dropFront size cut tooShort (p :: l) n = (cut p n h).map (· :: l) := by
  obtain ⟨m, rfl⟩ := Nat.exists_eq_succ_of_ne_zero hpos.ne'
  rw [dropFront, dif_pos h]

theorem dropFront_of_le (hpos : 0 < n) (h : size p ≤ n) :
    dropFront size cut tooShort (p :: l) n = dropFront size cut tooShort l (n - size p) := by
  obtain ⟨m, rfl⟩ := Nat.exists_eq_succ_of_ne_zero hpos.ne'
  rw [dropFront, dif_neg (Nat.not_lt.mpr h)]

end Equations

/-- **The loop on any pieces is the loop on their contents.** -/
theorem dropFront_simulates {items : π → List α} {size : π → Nat}
    {cut : (p : π) → (n : Nat) → n < size p → Except ε π} (hcuts : Cuts items size cut) (tooShort : ε)
    (l : List π) (n : Nat) :
    (dropFront size cut tooShort l n).map (List.map items) = dropPieces tooShort (l.map items) n := by
  induction l generalizing n with
  | nil => cases n <;> rfl
  | cons p l ih =>
      rcases Nat.eq_zero_or_pos n with rfl | hpos
      · rw [dropFront_zero, dropPieces, dropFront_zero]
        rfl
      · rw [dropPieces, List.map_cons]
        rcases Nat.lt_or_ge n (size p) with hlt | hge
        · have hcut := hcuts.cut_eq p n hlt
          rw [dropFront_of_lt hpos hlt, dropFront_of_lt hpos (hcuts.size_eq p ▸ hlt)]
          cases hp : cut p n hlt with
          | error e => rw [hp] at hcut; exact nomatch hcut
          | ok p' =>
              rw [hp] at hcut
              have hitems : items p' = (items p).drop n := Except.ok.inj hcut
              show Except.ok (items p' :: l.map items) = Except.ok ((items p).drop n :: l.map items)
              rw [hitems]
        · rw [dropFront_of_le hpos hge, dropFront_of_le hpos (hcuts.size_eq p ▸ hge), ih, ← hcuts.size_eq p]
          rfl

/-- **Dropping from the pieces is dropping from the concatenation**, if that is long enough. -/
theorem flatten_dropPieces (tooShort : ε) {l : List (List α)} {n : Nat} (h : n ≤ l.flatten.length) :
    ∃ l', dropPieces tooShort l n = .ok l' ∧ l'.flatten = l.flatten.drop n := by
  induction l generalizing n with
  | nil =>
      obtain rfl : n = 0 := Nat.le_zero.mp h
      exact ⟨[], rfl, rfl⟩
  | cons p l ih =>
      rcases Nat.eq_zero_or_pos n with rfl | hpos
      · exact ⟨p :: l, dropFront_zero _, rfl⟩
      · rw [List.flatten_cons] at h ⊢
        rcases Nat.lt_or_ge n p.length with hlt | hge
        · refine ⟨p.drop n :: l, dropFront_of_lt hpos hlt, ?_⟩
          rw [List.flatten_cons, List.drop_append_of_le_length hlt.le]
        · rw [List.length_append] at h
          obtain ⟨l', hl', hflat⟩ := ih (n := n - p.length) (by omega)
          refine ⟨l', (dropFront_of_le hpos hge).trans hl', ?_⟩
          rw [hflat, List.drop_append, List.drop_of_length_le hge, List.nil_append]

/-- Otherwise all the pieces are used up before the end. -/
theorem dropPieces_of_lt (tooShort : ε) {l : List (List α)} {n : Nat} (h : l.flatten.length < n) :
    dropPieces tooShort l n = .error tooShort := by
  induction l generalizing n with
  | nil =>
      obtain ⟨m, rfl⟩ := Nat.exists_eq_add_of_lt h
      rfl
  | cons p l ih =>
      rw [List.flatten_cons, List.length_append] at h
      exact (dropFront_of_le (by omega) (by omega)).trans (ih (by omega))

/-! ## In terms of the contents -/

section Contents

variable {items : π → List α} {size : π → Nat} {cut : (p : π) → (n : Nat) → n < size p → Except ε π}
variable {l : List π} {n : Nat}

/-- **What the loop leaves** are the contents without the first `n` items. -/
theorem dropFront_ok (hcuts : Cuts items size cut) (tooShort : ε) (h : n ≤ (l.flatMap items).length) :
    ∃ l', dropFront size cut tooShort l n = .ok l' ∧ l'.flatMap items = (l.flatMap items).drop n := by
  have hsim := dropFront_simulates hcuts tooShort l n
  obtain ⟨pieces, hpieces, hflat⟩ := flatten_dropPieces tooShort (l := l.map items) h
  rw [hpieces] at hsim
  cases hl : dropFront size cut tooShort l n with
  | error e => rw [hl] at hsim; exact nomatch hsim
  | ok l' =>
      rw [hl] at hsim
      have hitems : l'.map items = pieces := Except.ok.inj hsim
      refine ⟨l', rfl, ?_⟩
      show (l'.map items).flatten = (l.map items).flatten.drop n
      rw [hitems, hflat]

/-- It fails if and only if there are fewer than `n` items. -/
theorem dropFront_error_iff (hcuts : Cuts items size cut) (tooShort : ε) :
    dropFront size cut tooShort l n = .error tooShort ↔ (l.flatMap items).length < n := by
  constructor
  · intro herror
    by_contra hle
    obtain ⟨l', hl', -⟩ := dropFront_ok hcuts tooShort (Nat.not_lt.mp hle)
    exact nomatch herror.symm.trans hl'
  · intro hlt
    have hsim := dropFront_simulates hcuts tooShort l n
    rw [dropPieces_of_lt tooShort (l := l.map items) hlt] at hsim
    cases hl : dropFront size cut tooShort l n with
    | error e => rw [hl] at hsim; exact congrArg _ (Except.error.inj hsim)
    | ok l' => rw [hl] at hsim; exact nomatch hsim

end Contents

end Lib
