import Mathlib

/-!
# `Lib.Machine` — fixed-width arithmetic

A `w`-bit unsigned number is kept as a `Nat`. Only the operations that can leave the range say so:
`uadd` drops the carry, `usub` borrows `2 ^ w`. Both agree with the plain `Nat` operation as long as
nothing leaves the range (`uadd_of_lt`, `usub_of_le`), which is what most proofs use. `toSigned` reads a
`w`-bit pattern as a two's complement number.

Where a program converts between integer types, the types of the library stand for them; the last section says
when a conversion loses nothing.
-/

namespace Lib

/-- Unsigned `w`-bit addition: the carry out of bit `w - 1` is lost. -/
def uadd (w a b : Nat) : Nat := (a + b) % 2 ^ w

/-- Unsigned `w`-bit subtraction: a negative difference borrows `2 ^ w`. -/
def usub (w a b : Nat) : Nat := if b ≤ a then a - b else 2 ^ w + a - b

/-- The `w`-bit pattern `x` read as a two's complement number. -/
def toSigned (w x : Nat) : Int :=
  if x % 2 ^ w < 2 ^ (w - 1) then (x % 2 ^ w : Nat) else (x % 2 ^ w : Nat) - (2 ^ w : Nat)

variable {w a b : Nat}

theorem uadd_of_lt (h : a + b < 2 ^ w) : uadd w a b = a + b := Nat.mod_eq_of_lt h

theorem usub_of_le (h : b ≤ a) : usub w a b = a - b := if_pos h

@[simp]
theorem usub_zero : usub w a 0 = a := by simp [usub]

@[simp]
theorem usub_self : usub w a a = 0 := by simp [usub]

/-- Subtraction as a remainder, for proofs in which it is not known whether it borrows. -/
theorem usub_eq_mod (ha : a < 2 ^ w) (hb : b ≤ 2 ^ w) : usub w a b = (a + 2 ^ w - b) % 2 ^ w := by
  unfold usub
  split
  · next hle =>
      have hsplit : a + 2 ^ w - b = a - b + 2 ^ w := by omega
      rw [hsplit, Nat.add_mod_right, Nat.mod_eq_of_lt (by omega)]
  · next hlt => rw [Nat.add_comm, Nat.mod_eq_of_lt (by omega)]

/-- A difference of two `w`-bit numbers is a `w`-bit number. -/
theorem usub_lt (ha : a < 2 ^ w) : usub w a b < 2 ^ w := by
  unfold usub
  split <;> omega

/-! ## Conversions -/

/-- A number below `2 ^ 31` survives the way through 32 bits. -/
theorem toInt64_toInt32 {x : Int64} (hpos : 0 ≤ x.toInt) (hlt : x.toInt < 2 ^ 31) : x.toInt32.toInt64 = x := by
  rw [← Int64.toInt_inj, Int32.toInt_toInt64, Int64.toInt_toInt32]
  exact Int.bmod_eq_of_le (by omega) (by omega)

theorem toNat_toUInt64 {x : Int64} (hpos : 0 ≤ x.toInt) : x.toUInt64.toNat = x.toInt.toNat := by
  have hvalue := BitVec.toInt_eq_toNat_cond x.toBitVec
  rw [Int64.toInt_toBitVec, Int64.toNat_toBitVec] at hvalue
  have hlt := x.toUInt64.toNat_lt
  split at hvalue <;> omega

end Lib
