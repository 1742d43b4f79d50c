import Sponge.Lib.OnesComplement
import Sponge.Wire.Parser

/-!
# `Wire.Checksum` — the Internet checksum

Bytes are added to a 32-bit sum as the halves of 16-bit words; `value` folds the carries back in and complements.
The carries out of the sum itself are lost (`toNat_sum_add_mod`). As long as there are none, this is arithmetic modulo
`65535` (`toNat_sum_add`, `toNat_value`), and bytes that contain their own checksum verify (`value_verifies`).
-/

namespace Sponge

open Lib

structure InternetChecksum where
  sum    : UInt32
  parity : Bool := false
deriving DecidableEq

namespace InternetChecksum

def ofSum (initialSum : UInt32) : InternetChecksum := { sum := initialSum }

/-- The body of the loop of `add`. -/
def addByte (c : InternetChecksum) (byte : UInt8) : InternetChecksum :=
  let val : UInt16 := if c.parity then byte.toUInt16 else byte.toUInt16 <<< 8
  { sum := c.sum + val.toUInt32, parity := !c.parity }

def add (c : InternetChecksum) (data : Buffer) : InternetChecksum := data.foldl addByte c

/-- One round of folding, as a number. -/
theorem toNat_foldRound (ret : UInt32) :
    ((ret >>> 16) + (ret &&& 0xffff)).toNat = ret.toNat / 65536 + ret.toNat % 65536 := by
  have hret := ret.toNat_lt
  have hlow : (ret &&& 0xffff).toNat = ret.toNat % 65536 := by
    rw [UInt32.toNat_and]
    exact Nat.and_two_pow_sub_one_eq_mod _ 16
  have hhigh : (ret >>> 16).toNat = ret.toNat / 65536 := by
    rw [UInt32.toNat_shiftRight]
    exact Nat.shiftRight_eq_div_pow _ 16
  rw [UInt32.toNat_add, hlow, hhigh]
  omega

/-- The loop of `value`. -/
def foldLoop (ret : UInt32) : UInt32 :=
  if ret > 0xffff then foldLoop ((ret >>> 16) + (ret &&& 0xffff)) else ret
termination_by ret.toNat
decreasing_by
  rename_i h
  have hbig : 65535 < ret.toNat := h
  rw [toNat_foldRound]
  omega

def value (c : InternetChecksum) : UInt16 := (~~~ foldLoop c.sum).toUInt16

/-! ## The sum -/

variable {c : InternetChecksum}

theorem add_append (c : InternetChecksum) (data data' : Buffer) : c.add (data ++ data') = (c.add data).add data' :=
  List.foldl_append

theorem toNat_sum_addByte (c : InternetChecksum) (byte : UInt8) :
    (c.addByte byte).sum.toNat = (c.sum.toNat + if c.parity then byte.toNat else byte.toNat * 256) % 2 ^ 32 := by
  have hbyte := byte.toNat_lt
  have hval : (if c.parity then byte.toUInt16 else byte.toUInt16 <<< 8).toNat =
      if c.parity then byte.toNat else byte.toNat * 256 := by
    split
    · rfl
    · rw [UInt16.toNat_shiftLeft]
      show byte.toNat <<< 8 % 2 ^ 16 = byte.toNat * 256
      rw [Nat.shiftLeft_eq]
      omega
  rw [addByte, UInt32.toNat_add]
  show (c.sum.toNat + (if c.parity then byte.toUInt16 else byte.toUInt16 <<< 8).toNat) % 2 ^ 32 = _
  rw [hval]

/-- **What is added.** The sum wraps around at 32 bits. -/
theorem toNat_sum_add_mod (c : InternetChecksum) (data : Buffer) :
    (c.add data).sum.toNat = (c.sum.toNat + byteSum c.parity data) % 2 ^ 32 := by
  induction data generalizing c with
  | nil => exact (Nat.mod_eq_of_lt c.sum.toNat_lt).symm
  | cons byte data ih =>
      have hrest : ((c.addByte byte).add data).sum.toNat = _ := ih (c.addByte byte)
      have hparity : (c.addByte byte).parity = !c.parity := rfl
      rw [toNat_sum_addByte, hparity, Nat.mod_add_mod, Nat.add_assoc] at hrest
      exact hrest

/-- If there is room for it, nothing is lost. -/
theorem toNat_sum_add {data : Buffer} (h : c.sum.toNat + byteSum c.parity data < 2 ^ 32) :
    (c.add data).sum.toNat = c.sum.toNat + byteSum c.parity data := by
  rw [toNat_sum_add_mod, Nat.mod_eq_of_lt h]

/-- There is room for a pseudo-checksum and `65535` bytes. -/
theorem byteSum_fits {s : UInt32} (hs : s.toNat < 2 ^ 31) {data : Buffer} (hlen : data.length ≤ 65535) :
    s.toNat + byteSum false data < 2 ^ 32 := by
  have hsum := byteSum_le false data
  rw [if_neg Bool.false_ne_true] at hsum
  omega

/-! ## The value -/

theorem toNat_foldLoop (ret : UInt32) : (foldLoop ret).toNat = foldCarry 65536 ret.toNat := by
  induction ret using foldLoop.induct with
  | case1 ret h ih =>
      have hbig : 65535 < ret.toNat := h
      rw [foldLoop, if_pos h, ih, toNat_foldRound, foldCarry_of_le (by decide) hbig]
  | case2 ret h =>
      have hsmall : ¬ 65535 < ret.toNat := h
      rw [foldLoop, if_neg h, foldCarry_of_lt (by omega)]

theorem toNat_value (c : InternetChecksum) : c.value.toNat = 65535 - foldCarry 65536 c.sum.toNat := by
  have hfold := toNat_foldLoop c.sum
  have hlt := foldCarry_lt (B := 65536) (by decide) c.sum.toNat
  rw [value, UInt32.toNat_toUInt16, UInt32.toNat_not, hfold]
  show (2 ^ 32 - 1 - foldCarry 65536 c.sum.toNat) % 2 ^ 16 = _
  omega

theorem value_eq_zero_iff (c : InternetChecksum) : c.value = 0 ↔ foldCarry 65536 c.sum.toNat = 65535 := by
  have hlt := foldCarry_lt (B := 65536) (by decide) c.sum.toNat
  rw [← UInt16.toNat_inj, toNat_value]
  show 65535 - foldCarry 65536 c.sum.toNat = 0 ↔ _
  omega

/-! ## A checksum verifies -/

/-- A word at an even place contributes its value. -/
theorem byteSum_word {pre : Buffer} (heven : pre.length % 2 = 0) (word : UInt16) (post : Buffer) :
    byteSum false (pre ++ (toBytes 2 word.toNat ++ post)) =
      byteSum false (pre ++ (toBytes 2 0 ++ post)) + word.toNat := by
  have hword := word.toNat_lt
  have htwo : ∀ n, n < 2 ^ 16 → byteSum false (toBytes 2 n) = n := by
    intro n hn
    simp only [toBytes, byteSum, UInt8.toNat_ofNat', Bool.not_false, Bool.false_eq_true, if_false, if_true]
    omega
  have htwoEven : ∀ n, (toBytes 2 n).length % 2 = 0 := fun n => by rw [length_toBytes]
  rw [byteSum_append_of_even heven, byteSum_append_of_even heven, byteSum_append_of_even (htwoEven _),
    byteSum_append_of_even (htwoEven _), htwo _ hword, htwo 0 (by decide)]
  omega

/-- **Bytes with their checksum in them verify.** The checksum is taken with zero in its place. -/
theorem value_verifies {s : UInt32} (hs : s.toNat < 2 ^ 31) {pre post : Buffer} (heven : pre.length % 2 = 0)
    (hlen : (pre ++ (toBytes 2 0 ++ post)).length ≤ 65535) :
    ((ofSum s).add (pre ++
      (toBytes 2 ((ofSum s).add (pre ++ (toBytes 2 0 ++ post))).value.toNat ++ post))).value = 0 := by
  generalize hword : ((ofSum s).add (pre ++ (toBytes 2 0 ++ post))).value = word
  have hlen' : (pre ++ (toBytes 2 word.toNat ++ post)).length ≤ 65535 := by
    simpa only [List.length_append, length_toBytes] using hlen
  have hzero := toNat_sum_add (c := ofSum s) (byteSum_fits hs hlen)
  have hfull := toNat_sum_add (c := ofSum s) (byteSum_fits hs hlen')
  have hcksum := toNat_value ((ofSum s).add (pre ++ (toBytes 2 0 ++ post)))
  rw [hword, hzero] at hcksum
  rw [value_eq_zero_iff, hfull]
  show foldCarry 65536 (s.toNat + byteSum false (pre ++ (toBytes 2 word.toNat ++ post))) = 65535
  rw [byteSum_word heven, ← Nat.add_assoc, hcksum]
  exact foldCarry_complement (by decide) _

end InternetChecksum

end Sponge
