import Mathlib

/-!
# `Lib.BigEndian` — numbers as bytes in network order

`toBytes len n` are the `len` low bytes of `n`, most significant first, and `ofBytes` reads them back
(`ofBytes_toBytes`). The bytes of the number that was read are the bytes it was read from (`toBytes_ofBytes`).
-/

namespace Lib

/-- The `len` low bytes of `n`, most significant first. -/
def toBytes : Nat → Nat → List UInt8
  | 0,       _ => []
  | len + 1, n => UInt8.ofNat (n / 256 ^ len) :: toBytes len n

/-- The number with these bytes, most significant first. -/
def ofBytes : List UInt8 → Nat
  | []      => 0
  | b :: bs => b.toNat * 256 ^ bs.length + ofBytes bs

@[simp] theorem length_toBytes (len n : Nat) : (toBytes len n).length = len := by
  induction len with
  | zero => rfl
  | succ len ih => rw [toBytes, List.length_cons, ih]

theorem ofBytes_lt (bs : List UInt8) : ofBytes bs < 256 ^ bs.length := by
  induction bs with
  | nil => exact Nat.one_pos
  | cons b bs ih =>
      have hb : b.toNat + 1 ≤ 256 := b.toNat_lt
      calc b.toNat * 256 ^ bs.length + ofBytes bs
          < b.toNat * 256 ^ bs.length + 256 ^ bs.length := Nat.add_lt_add_left ih _
        _ = (b.toNat + 1) * 256 ^ bs.length := by ring
        _ ≤ 256 * 256 ^ bs.length := Nat.mul_le_mul_right _ hb
        _ = 256 ^ (b :: bs).length := by rw [List.length_cons, pow_succ']

theorem ofBytes_toBytes (len n : Nat) : ofBytes (toBytes len n) = n % 256 ^ len := by
  induction len with
  | zero => exact (Nat.mod_one n).symm
  | succ len ih =>
      have hbyte : (UInt8.ofNat (n / 256 ^ len)).toNat = n / 256 ^ len % 256 := UInt8.toNat_ofNat'
      rw [toBytes, ofBytes, length_toBytes, ih, hbyte, pow_succ, Nat.mod_mul, Nat.mul_comm, Nat.add_comm]

/-- Only the low bytes of a number matter. -/
theorem toBytes_add_mul (len n k : Nat) : toBytes len (k * 256 ^ len + n) = toBytes len n := by
  induction len generalizing k with
  | zero => rfl
  | succ len ih =>
      have hpow : k * 256 ^ (len + 1) = k * 256 * 256 ^ len := by rw [pow_succ']; ring
      have hhead : (k * 256 * 256 ^ len + n) / 256 ^ len = k * 256 + n / 256 ^ len := by
        rw [Nat.add_comm, Nat.add_mul_div_right _ _ (Nat.pow_pos (by decide)), Nat.add_comm]
      have hbyte : UInt8.ofNat (k * 256 + n / 256 ^ len) = UInt8.ofNat (n / 256 ^ len) := by
        apply UInt8.toNat_inj.mp
        rw [UInt8.toNat_ofNat', UInt8.toNat_ofNat']
        exact Nat.mul_add_mod_self_right k 256 _
      rw [toBytes, toBytes, hpow, hhead, hbyte, ih]

/-- Reading is exact: the bytes are those of the number read. -/
theorem toBytes_ofBytes (bs : List UInt8) : toBytes bs.length (ofBytes bs) = bs := by
  induction bs with
  | nil => rfl
  | cons b bs ih =>
      have hlt := ofBytes_lt bs
      have hpos : 0 < 256 ^ bs.length := Nat.pow_pos (by decide)
      have hhead : (b.toNat * 256 ^ bs.length + ofBytes bs) / 256 ^ bs.length = b.toNat := by
        rw [Nat.add_comm, Nat.add_mul_div_right _ _ hpos, Nat.div_eq_of_lt hlt, Nat.zero_add]
      rw [ofBytes, List.length_cons, toBytes, hhead, toBytes_add_mul, ih, UInt8.ofNat_toNat]

end Lib
