import Mathlib

/-!
# `Lib.OnesComplement` — sums with end-around carry

`foldCarry B x` adds the part of `x` above the base `B` to the part below until nothing is above. That keeps `x`
modulo `B - 1` and makes nothing but zero out of zero, so a number together with the complement of its fold always
folds to `B - 1`, the other zero (`foldCarry_complement`): the reason why a checksum verifies. It does not matter
whether the carries are put back after every addition or at the end (`foldl_carryAdd`).

`byteSum` adds up bytes as the two halves of 16-bit words. It may be taken in pieces (`byteSum_append`), and
`byteSum_le` bounds it.
-/

namespace Lib

variable {B x : Nat}

/-- Add the part above the base to the part below, until nothing is above. -/
def foldCarry (B x : Nat) : Nat :=
  if 1 < B ∧ B ≤ x then foldCarry B (x / B + x % B) else x
termination_by x
decreasing_by
  rename_i h
  have hpos : 0 < x / B := Nat.div_pos h.2 (by omega)
  have hsplit := Nat.div_add_mod x B
  have hdiv : 2 * (x / B) ≤ B * (x / B) := Nat.mul_le_mul_right _ h.1
  omega

theorem foldCarry_of_lt (h : x < B) : foldCarry B x = x := by
  rw [foldCarry, if_neg (by omega)]

theorem foldCarry_of_le (hB : 1 < B) (h : B ≤ x) : foldCarry B x = foldCarry B (x / B + x % B) := by
  rw [foldCarry, if_pos ⟨hB, h⟩]

/-- What holds below the base, and of a number if of the next one, holds of every number. -/
theorem foldCarry_induction {P : Nat → Prop} (hB : 1 < B) (hbelow : ∀ x, x < B → P x)
    (habove : ∀ x, B ≤ x → P (x / B + x % B) → P x) (x : Nat) : P x := by
  induction x using foldCarry.induct B with
  | case1 x h ih => exact habove x h.2 ih
  | case2 x h => exact hbelow x (by omega)

theorem foldCarry_lt (hB : 1 < B) (x : Nat) : foldCarry B x < B := by
  induction x using foldCarry_induction hB with
  | hbelow x h => rwa [foldCarry_of_lt h]
  | habove x h ih => rwa [foldCarry_of_le hB h]

theorem foldCarry_le (hB : 1 < B) (x : Nat) : foldCarry B x ≤ x := by
  induction x using foldCarry_induction hB with
  | hbelow x h => rw [foldCarry_of_lt h]
  | habove x h ih =>
      rw [foldCarry_of_le hB h]
      have hsplit := Nat.div_add_mod x B
      have hdiv : x / B ≤ B * (x / B) := Nat.le_mul_of_pos_left _ (by omega)
      omega

/-- The base is one more than a multiple of `B - 1`, so moving the carry around changes nothing modulo that. -/
theorem foldCarry_modEq (hB : 1 < B) (x : Nat) : foldCarry B x ≡ x [MOD B - 1] := by
  induction x using foldCarry_induction hB with
  | hbelow x h => rw [foldCarry_of_lt h]
  | habove x h ih =>
      rw [foldCarry_of_le hB h]
      refine ih.trans ?_
      have hbase : B ≡ 1 [MOD B - 1] := ((Nat.modEq_iff_dvd' (by omega)).mpr (dvd_refl (B - 1))).symm
      calc x / B + x % B ≡ x / B * B + x % B [MOD B - 1] := by
            simpa using (hbase.symm.mul_left (x / B)).add_right (x % B)
        _ = x := by rw [mul_comm]; exact Nat.div_add_mod x B

theorem foldCarry_pos (hB : 1 < B) (h : 0 < x) : 0 < foldCarry B x := by
  revert h
  induction x using foldCarry_induction hB with
  | hbelow x h => rw [foldCarry_of_lt h]; exact id
  | habove x h ih =>
      intro _
      rw [foldCarry_of_le hB h]
      exact ih (Nat.add_pos_left (Nat.div_pos h (by omega)) _)

/-- The fold of a positive multiple of `B - 1` is `B - 1` itself. -/
theorem foldCarry_eq_of_dvd (hB : 1 < B) (hpos : 0 < x) (hdvd : B - 1 ∣ x) : foldCarry B x = B - 1 := by
  have hlt := foldCarry_lt hB x
  have hfold : B - 1 ∣ foldCarry B x :=
    (Nat.modEq_zero_iff_dvd.mp ((foldCarry_modEq hB x).trans (Nat.modEq_zero_iff_dvd.mpr hdvd)))
  exact Nat.le_antisymm (by omega) (Nat.le_of_dvd (foldCarry_pos hB hpos) hfold)

/-- **A number and the complement of its fold together fold to `B - 1`.** -/
theorem foldCarry_complement (hB : 1 < B) (x : Nat) : foldCarry B (x + (B - 1 - foldCarry B x)) = B - 1 := by
  have hlt := foldCarry_lt hB x
  have hle := foldCarry_le hB x
  apply foldCarry_eq_of_dvd hB
  · omega
  · apply Nat.modEq_zero_iff_dvd.mp
    calc x + (B - 1 - foldCarry B x) ≡ foldCarry B x + (B - 1 - foldCarry B x) [MOD B - 1] :=
          (foldCarry_modEq hB x).symm.add_right _
      _ = B - 1 := by omega
      _ ≡ 0 [MOD B - 1] := Nat.modEq_zero_iff_dvd.mpr (dvd_refl _)

/-- **What folds to `B - 1`**: the positive multiples of it. -/
theorem foldCarry_eq_pred_iff (hB : 1 < B) : foldCarry B x = B - 1 ↔ 0 < x ∧ B - 1 ∣ x := by
  constructor
  · intro h
    have hmod := foldCarry_modEq hB x
    rw [h] at hmod
    refine ⟨?_, Nat.modEq_zero_iff_dvd.mp (hmod.symm.trans (Nat.modEq_zero_iff_dvd.mpr (dvd_refl _)))⟩
    by_contra hzero
    rw [Nat.eq_zero_of_not_pos hzero, foldCarry_of_lt (by omega)] at h
    omega
  · exact fun h => foldCarry_eq_of_dvd hB h.1 h.2

/-- Two digits that complete the same number are equal, or they are the two zeros. -/
theorem eq_of_foldCarry_add {c c' : Nat} (hB : 1 < B) (hc : c ≤ B - 1) (hc' : c' ≤ B - 1)
    (h : foldCarry B (x + c) = B - 1) (h' : foldCarry B (x + c') = B - 1) :
    c = c' ∨ (c = 0 ∧ c' = B - 1) ∨ (c = B - 1 ∧ c' = 0) := by
  obtain ⟨-, k, hk⟩ := (foldCarry_eq_pred_iff hB).mp h
  obtain ⟨-, k', hk'⟩ := (foldCarry_eq_pred_iff hB).mp h'
  rcases Nat.lt_trichotomy k k' with hlt | heq | hlt
  · -- the sums are at least `B - 1` apart, and the digits cannot be further apart than that
    have hstep : (B - 1) * (k + 1) ≤ (B - 1) * k' := Nat.mul_le_mul_left _ hlt
    rw [Nat.mul_add, Nat.mul_one] at hstep
    right; left
    constructor <;> omega
  · rw [heq] at hk
    left
    omega
  · have hstep : (B - 1) * (k' + 1) ≤ (B - 1) * k := Nat.mul_le_mul_left _ hlt
    rw [Nat.mul_add, Nat.mul_one] at hstep
    right; right
    constructor <;> omega

/-- Numbers that agree modulo `B - 1` have the same fold, unless only one of them is zero. -/
theorem foldCarry_congr {y : Nat} (hB : 1 < B) (hmod : x ≡ y [MOD B - 1]) (hzero : x = 0 ↔ y = 0) :
    foldCarry B x = foldCarry B y := by
  have hx := foldCarry_lt hB x
  have hy := foldCarry_lt hB y
  have hfold : foldCarry B x ≡ foldCarry B y [MOD B - 1] :=
    (foldCarry_modEq hB x).trans (hmod.trans (foldCarry_modEq hB y).symm)
  rcases Nat.eq_zero_or_pos x with hx0 | hxpos
  · rw [hx0, hzero.mp hx0]
  · have hypos : 0 < y := Nat.pos_of_ne_zero fun h => hxpos.ne' (hzero.mpr h)
    have hfx := foldCarry_pos hB hxpos
    have hfy := foldCarry_pos hB hypos
    -- both folds lie between one and `B - 1`, where no two numbers agree modulo `B - 1`
    have hpred : foldCarry B x - 1 ≡ foldCarry B y - 1 [MOD B - 1] := by
      apply Nat.ModEq.add_right_cancel' 1
      rwa [Nat.sub_add_cancel hfx, Nat.sub_add_cancel hfy]
    have heq := hpred.eq_of_lt_of_lt (by omega) (by omega)
    omega

/-! ## Adding digit by digit -/

/-- Addition of two digits; the carry is put back in at once. -/
def carryAdd (B x y : Nat) : Nat := (x + y) / B + (x + y) % B

theorem carryAdd_eq_foldCarry {y : Nat} (hB : 1 < B) (hx : x < B) (hy : y < B) :
    carryAdd B x y = foldCarry B (x + y) := by
  rw [carryAdd]
  rcases Nat.lt_or_ge (x + y) B with hlt | hge
  · rw [foldCarry_of_lt hlt, Nat.div_eq_of_lt hlt, Nat.mod_eq_of_lt hlt, Nat.zero_add]
  · have hdiv : (x + y) / B = 1 := Nat.div_eq_of_lt_le (by omega) (by omega)
    have hsplit := Nat.div_add_mod (x + y) B
    rw [hdiv, Nat.mul_one] at hsplit
    rw [foldCarry_of_le hB hge, hdiv, foldCarry_of_lt (by omega)]

theorem foldCarry_add (hB : 1 < B) (x y : Nat) : foldCarry B (foldCarry B x + y) = foldCarry B (x + y) := by
  apply foldCarry_congr hB ((foldCarry_modEq hB x).add_right y)
  have hle := foldCarry_le hB x
  constructor
  · intro h
    by_contra hne
    rcases Nat.eq_zero_or_pos x with rfl | hpos
    · omega
    · have hfold := foldCarry_pos hB hpos
      omega
  · intro h
    omega

/-- **The carries may be put back at any time**: after every addition, or once at the end. -/
theorem foldl_carryAdd (hB : 1 < B) {ws : List Nat} (hws : ∀ w ∈ ws, w < B) (x : Nat) :
    ws.foldl (carryAdd B) (foldCarry B x) = foldCarry B (x + ws.sum) := by
  induction ws generalizing x with
  | nil => rfl
  | cons w ws ih =>
      have hw : w < B := hws w List.mem_cons_self
      have hrest : ∀ w' ∈ ws, w' < B := fun w' h => hws w' (List.mem_cons_of_mem _ h)
      rw [List.foldl_cons, carryAdd_eq_foldCarry hB (foldCarry_lt hB x) hw, foldCarry_add hB, ih hrest, List.sum_cons,
        Nat.add_assoc]

/-! ## Sums of bytes -/

/-- The sum of the bytes as the high and low halves of words; `low` tells which half comes first. -/
def byteSum (low : Bool) : List UInt8 → Nat
  | []      => 0
  | b :: bs => (if low then b.toNat else b.toNat * 256) + byteSum (!low) bs

theorem byteSum_append (low : Bool) (bs bs' : List UInt8) :
    byteSum low (bs ++ bs') = byteSum low bs + byteSum (xor low (bs.length % 2 == 1)) bs' := by
  induction bs generalizing low with
  | nil => simp [byteSum]
  | cons b bs ih =>
      have hparity : xor (!low) (bs.length % 2 == 1) = xor low ((b :: bs).length % 2 == 1) := by
        rw [List.length_cons]
        rcases Nat.mod_two_eq_zero_or_one bs.length with h | h <;> cases low <;> simp [Nat.add_mod, h]
      rw [List.cons_append, byteSum, ih, hparity, byteSum, Nat.add_assoc]

/-- After an even number of bytes the next one is again a high half. -/
theorem byteSum_append_of_even {bs : List UInt8} (h : bs.length % 2 = 0) (bs' : List UInt8) :
    byteSum false (bs ++ bs') = byteSum false bs + byteSum false bs' := by
  rw [byteSum_append, h]
  rfl

theorem byteSum_pos {b : UInt8} {bs : List UInt8} (low : Bool) (hmem : b ∈ bs) (hb : b ≠ 0) :
    0 < byteSum low bs := by
  induction bs generalizing low with
  | nil => cases hmem
  | cons a bs ih =>
      rw [byteSum]
      rcases List.mem_cons.mp hmem with rfl | hrest
      · have hpos : 0 < b.toNat := Nat.pos_of_ne_zero fun h => hb (UInt8.toNat_inj.mp h)
        cases low
        · exact Nat.add_pos_left (Nat.mul_pos hpos (by decide)) _
        · exact Nat.add_pos_left hpos _
      · exact Nat.add_pos_right _ (ih (!low) hrest)

theorem byteSum_le (low : Bool) (bs : List UInt8) :
    byteSum low bs ≤ if low then 255 * ((bs.length + 1) / 2) + 65280 * (bs.length / 2)
      else 65280 * ((bs.length + 1) / 2) + 255 * (bs.length / 2) := by
  induction bs generalizing low with
  | nil => cases low <;> simp [byteSum]
  | cons b bs ih =>
      have hb : b.toNat < 256 := b.toNat_lt
      have hrest := ih (!low)
      rw [byteSum, List.length_cons]
      cases low <;> simp only [Bool.not_true, Bool.not_false, if_true, Bool.false_eq_true, if_false] at hrest ⊢ <;>
        omega

/-! ## Words -/

/-- The bytes as words; an odd last byte is filled up with zero. -/
def words : List UInt8 → List Nat
  | []           => []
  | [x]          => [x.toNat * 256]
  | x :: y :: bs => (x.toNat * 256 + y.toNat) :: words bs

theorem byteSum_eq_sum_words : ∀ bs : List UInt8, byteSum false bs = (words bs).sum
  | []           => rfl
  | [x]          => rfl
  | x :: y :: bs => by
      have ih := byteSum_eq_sum_words bs
      show x.toNat * 256 + (y.toNat + byteSum false bs) = (x.toNat * 256 + y.toNat) + (words bs).sum
      rw [ih, Nat.add_assoc]

theorem lt_of_mem_words : ∀ {bs : List UInt8} {w : Nat}, w ∈ words bs → w < 65536
  | [x], w, h => by
      have hx := x.toNat_lt
      have hw : w = x.toNat * 256 := List.mem_singleton.mp h
      omega
  | x :: y :: bs, w, h => by
      have hx := x.toNat_lt
      have hy := y.toNat_lt
      rcases List.mem_cons.mp h with rfl | hrest
      · omega
      · exact lt_of_mem_words hrest

end Lib
