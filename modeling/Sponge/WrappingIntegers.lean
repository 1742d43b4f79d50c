import Sponge.Lib.Machine

/-!
# `WrappingIntegers` — 32-bit sequence numbers relative to an initial sequence number

`wrap` sends a 64-bit absolute sequence number to the 32-bit number on the wire, `unwrap` recovers an
absolute number from it with the help of a checkpoint. The code computes with shifts, a mask and signed
absolute values; the lemmas here bring that down to `/` and `%` by `2 ^ 32`, so that every later proof is
linear arithmetic.

The main results are `unwrap_eq`, a closed form of `unwrap`, and `unwrap_nearest`: `unwrap` returns the
number with the right offset that is nearest to the checkpoint, so an absolute number less than `2 ^ 31` away
from it survives the round trip (`unwrap_wrap`).
-/

namespace Sponge

open Lib

/-- A 32-bit integer, expressed relative to an arbitrary initial sequence number (ISN). -/
structure WrappingInt32 where
  rawValue : Nat
  isLt : rawValue < 2 ^ 32
deriving DecidableEq, Repr

namespace WrappingInt32

/-- The constructor from a raw value: the conversion to `uint32_t` keeps the low 32 bits. -/
def ofRaw (n : Nat) : WrappingInt32 := ⟨n % 2 ^ 32, Nat.mod_lt _ (by decide)⟩

instance : Inhabited WrappingInt32 := ⟨ofRaw 0⟩

/-- The point `b` steps past `a`. -/
def add (a : WrappingInt32) (b : Nat) : WrappingInt32 := ofRaw (a.rawValue + b)

@[simp]
theorem rawValue_ofRaw (n : Nat) : (ofRaw n).rawValue = n % 2 ^ 32 := rfl

@[simp]
theorem rawValue_add (a : WrappingInt32) (b : Nat) :
    (a.add b).rawValue = (a.rawValue + b) % 2 ^ 32 := rfl

@[ext]
theorem ext {a b : WrappingInt32} (h : a.rawValue = b.rawValue) : a = b := by
  cases a; cases b; simp_all

theorem add_add (a : WrappingInt32) (b c : Nat) : (a.add b).add c = a.add (b + c) := by
  ext; simp only [rawValue_add]; omega

end WrappingInt32

/-! ## `wrap` and `unwrap`, as the source computes them -/

/-- Transform a 64-bit absolute sequence number into a 32-bit relative one: the low 32 bits of `n`, cut
    out by two shifts, plus the ISN. -/
def wrap (n : Nat) (isn : WrappingInt32) : WrappingInt32 :=
  WrappingInt32.ofRaw (((n <<< 32) % 2 ^ 64) >>> 32 + isn.rawValue)

/-- `abs(int64_t(x - y))` on 64-bit operands. -/
def absDiff64 (x y : Nat) : Nat := (toSigned 64 (usub 64 x y)).natAbs

/-- Transform a 32-bit relative sequence number into a 64-bit absolute one: among `ans`, `ans + 2 ^ 32`
    and `ans - 2 ^ 32`, the one closest to `checkpoint`. -/
def unwrap (n isn : WrappingInt32) (checkpoint : Nat) : Nat :=
  let backPart := usub 32 n.rawValue isn.rawValue
  let prePart := checkpoint &&& 0xFFFFFFFF00000000
  let ans := uadd 64 prePart backPart
  -- ties go to the block of the checkpoint, and there is no block below the first
  if absDiff64 (uadd 64 ans (2 ^ 32)) checkpoint < absDiff64 ans checkpoint then
    uadd 64 ans (2 ^ 32)
  else if 2 ^ 32 ≤ ans ∧ absDiff64 (usub 64 ans (2 ^ 32)) checkpoint < absDiff64 ans checkpoint then
    usub 64 ans (2 ^ 32)
  else ans

/-! ## `wrap` is addition modulo `2 ^ 32` -/

@[simp]
theorem rawValue_wrap (n : Nat) (isn : WrappingInt32) :
    (wrap n isn).rawValue = (n + isn.rawValue) % 2 ^ 32 := by
  simp only [wrap, WrappingInt32.rawValue_ofRaw, Nat.shiftLeft_eq, Nat.shiftRight_eq_div_pow]
  omega

theorem wrap_eq_add (n : Nat) (isn : WrappingInt32) : wrap n isn = isn.add n := by
  ext; simp only [rawValue_wrap, WrappingInt32.rawValue_add]; omega

@[simp]
theorem wrap_zero (isn : WrappingInt32) : wrap 0 isn = isn := by
  ext; have := isn.isLt; simp only [rawValue_wrap]; omega

/-- Advancing a wrapped number is wrapping the advanced number. -/
theorem wrap_add (n k : Nat) (isn : WrappingInt32) : (wrap n isn).add k = wrap (n + k) isn := by
  rw [wrap_eq_add, wrap_eq_add, WrappingInt32.add_add]

/-- Moving the ISN moves every wrapped number by the same amount. -/
theorem wrap_isn_add (n d : Nat) (isn : WrappingInt32) : wrap n (isn.add d) = (wrap n isn).add d := by
  ext; simp only [rawValue_wrap, WrappingInt32.rawValue_add]; omega

/-- Without a wrap the raw value is the plain sum. -/
theorem rawValue_wrap_of_lt {n : Nat} {isn : WrappingInt32} (h : isn.rawValue + n < 2 ^ 32) :
    (wrap n isn).rawValue = isn.rawValue + n := by
  rw [rawValue_wrap]; omega

/-! ## A closed form of `unwrap` -/

/-- Masking with `0xFFFFFFFF00000000` clears the low half. -/
theorem and_highMask {c : Nat} (h : c < 2 ^ 64) :
    c &&& 0xFFFFFFFF00000000 = c / 2 ^ 32 * 2 ^ 32 := by
  rw [show (0xFFFFFFFF00000000 : Nat) = (2 ^ 32 - 1) <<< 32 by decide,
    ← Nat.shiftRight_eq_div_pow, ← Nat.shiftLeft_eq]
  apply Nat.eq_of_testBit_eq
  intro i
  simp only [Nat.testBit_and, Nat.testBit_shiftLeft, Nat.testBit_shiftRight,
    Nat.testBit_two_pow_sub_one]
  by_cases hlo : i ≥ 32
  · have hi : 32 + (i - 32) = i := by omega
    by_cases hhi : i < 64
    · simp [hlo, hi, show i - 32 < 32 by omega]
    · -- bits from 64 on are zero in `c`
      have hz : c.testBit i = false :=
        Nat.testBit_lt_two_pow (lt_of_lt_of_le h (Nat.pow_le_pow_right (by omega) (by omega)))
      simp [hi, hz]
  · simp [hlo]

/-- For operands less than `2 ^ 63` apart, `absDiff64` is the distance. -/
theorem absDiff64_eq {x y : Nat} (h : x < y + 2 ^ 63) (h' : y < x + 2 ^ 63) :
    absDiff64 x y = (x - y) + (y - x) := by
  unfold absDiff64 toSigned usub
  split <;> split <;> omega

/-- **Closed form of `unwrap`.** With `b` the offset of `n` from the ISN and the checkpoint split at
    bit 32, the block of the checkpoint is kept unless the neighbouring block is strictly closer. -/
theorem unwrap_eq (n isn : WrappingInt32) {c : Nat} (hc : c < 2 ^ 64 - 2 ^ 32) :
    unwrap n isn c =
      let b := usub 32 n.rawValue isn.rawValue
      if b + 2 ^ 31 < c % 2 ^ 32 then c / 2 ^ 32 * 2 ^ 32 + b + 2 ^ 32
      else if 2 ^ 32 ≤ c ∧ c % 2 ^ 32 + 2 ^ 31 < b then c / 2 ^ 32 * 2 ^ 32 + b - 2 ^ 32
      else c / 2 ^ 32 * 2 ^ 32 + b := by
  have hb : usub 32 n.rawValue isn.rawValue < 2 ^ 32 := usub_lt n.isLt
  simp only [unwrap, and_highMask (show c < 2 ^ 64 by omega)]
  generalize usub 32 n.rawValue isn.rawValue = b at hb
  -- from here on only the block `p` and the position `r` of the checkpoint in it matter
  have hblock : c / 2 ^ 32 * 2 ^ 32 = 0 ∨ 2 ^ 32 ≤ c / 2 ^ 32 * 2 ^ 32 := by omega
  have hlast : c / 2 ^ 32 * 2 ^ 32 ≤ 2 ^ 64 - 2 ^ 33 := by omega
  have hsplit : c = c / 2 ^ 32 * 2 ^ 32 + c % 2 ^ 32 := by omega
  have hr : c % 2 ^ 32 < 2 ^ 32 := Nat.mod_lt _ (by decide)
  generalize c / 2 ^ 32 * 2 ^ 32 = p at hblock hlast hsplit
  generalize c % 2 ^ 32 = r at hsplit hr
  subst hsplit
  have hans : uadd 64 p b = p + b := uadd_of_lt (by omega)
  have hup : uadd 64 (p + b) (2 ^ 32) = p + b + 2 ^ 32 := uadd_of_lt (by omega)
  have hdown : absDiff64 (p + b) (p + r) = (p + b - (p + r)) + (p + r - (p + b)) :=
    absDiff64_eq (by omega) (by omega)
  have hnext : absDiff64 (p + b + 2 ^ 32) (p + r) =
      (p + b + 2 ^ 32 - (p + r)) + (p + r - (p + b + 2 ^ 32)) := absDiff64_eq (by omega) (by omega)
  rw [hans, hup, hdown, hnext]
  by_cases hlow : 2 ^ 32 ≤ p + b
  · have hprev : absDiff64 (p + b - 2 ^ 32) (p + r) =
        (p + b - 2 ^ 32 - (p + r)) + (p + r - (p + b - 2 ^ 32)) :=
      absDiff64_eq (by omega) (by omega)
    rw [usub_of_le hlow, hprev]
    split_ifs <;> omega
  · split_ifs <;> omega

/-! ## What `unwrap` returns -/

/-- What `unwrap` returns has the offset of `n` from the ISN. -/
theorem unwrap_mod (n isn : WrappingInt32) {c : Nat} (hc : c < 2 ^ 64 - 2 ^ 32) :
    unwrap n isn c % 2 ^ 32 = usub 32 n.rawValue isn.rawValue := by
  have hb : usub 32 n.rawValue isn.rawValue < 2 ^ 32 := usub_lt n.isLt
  rw [unwrap_eq n isn hc]
  simp only
  split_ifs <;> omega

/-- The result is at most half a block away from the checkpoint, except that there is no block below the
    first. -/
theorem unwrap_bounds (n isn : WrappingInt32) {c : Nat} (hc : c < 2 ^ 64 - 2 ^ 32) :
    c ≤ unwrap n isn c + 2 ^ 31 ∧ (unwrap n isn c ≤ c + 2 ^ 31 ∨ unwrap n isn c < 2 ^ 32) := by
  have hb : usub 32 n.rawValue isn.rawValue < 2 ^ 32 := usub_lt n.isLt
  rw [unwrap_eq n isn hc]
  simp only
  split_ifs <;> omega

/-- Subtracting the ISN undoes `wrap`, up to the block. -/
theorem usub_wrap (v : Nat) (isn : WrappingInt32) :
    usub 32 (wrap v isn).rawValue isn.rawValue = v % 2 ^ 32 := by
  have hisn := isn.isLt
  rw [rawValue_wrap]
  unfold usub
  split <;> omega

/-- **The round trip.** An absolute number less than `2 ^ 31` away from the checkpoint is recovered. -/
theorem unwrap_wrap {v c : Nat} (isn : WrappingInt32) (hc : c < 2 ^ 64 - 2 ^ 32)
    (hlo : c < v + 2 ^ 31) (hhi : v < c + 2 ^ 31) : unwrap (wrap v isn) isn c = v := by
  have hmod := unwrap_mod (wrap v isn) isn hc
  obtain ⟨hbelow, habove⟩ := unwrap_bounds (wrap v isn) isn hc
  -- two numbers of one class that are both that close to the checkpoint are equal
  rw [usub_wrap] at hmod
  omega

/-- Below `2 ^ 32` the only other answer is one block too high, and it is given for old numbers only. -/
theorem unwrap_wrap_of_lt {v c : Nat} (isn : WrappingInt32) (hv : v < 2 ^ 32) (hc : c < 2 ^ 32) :
    unwrap (wrap v isn) isn c = if v + 2 ^ 31 < c then v + 2 ^ 32 else v := by
  rw [unwrap_eq _ _ (by omega), usub_wrap]
  simp only
  split_ifs <;> omega

/-- From a checkpoint below `2 ^ 32` the result is near it, whatever the numbers. -/
theorem unwrap_lt (n isn : WrappingInt32) {c : Nat} (hc : c < 2 ^ 32) : unwrap n isn c < 2 ^ 33 := by
  obtain ⟨-, habove⟩ := unwrap_bounds n isn (by omega : c < 2 ^ 64 - 2 ^ 32)
  omega

/-! ## The nearest representative -/

/-- Every number with the offset of `n` from the ISN is wrapped to `n`. -/
theorem wrap_of_mod {r : Nat} {n isn : WrappingInt32}
    (h : r % 2 ^ 32 = usub 32 n.rawValue isn.rawValue) : wrap r isn = n := by
  have hn := n.isLt
  have hisn := isn.isLt
  ext
  rw [rawValue_wrap]
  unfold usub at h
  split at h <;> omega

/-- **`unwrap` finds the nearest representative.** From every checkpoint below `2 ^ 64 - 2 ^ 32` the result is
    a 64-bit number that is wrapped to `n`, and no number of the same class is strictly closer to the
    checkpoint. So a number less than `2 ^ 31` away from the checkpoint survives the round trip. -/
theorem unwrap_nearest (n isn : WrappingInt32) (checkpoint : Nat) (hc : checkpoint < 2 ^ 64 - 2 ^ 32) :
    let r := unwrap n isn checkpoint
    r < 2 ^ 64 ∧ wrap r isn = n ∧
    (∀ x : Nat, x ≡ r [MOD 2 ^ 32] → |(r : ℤ) - checkpoint| ≤ |(x : ℤ) - checkpoint|) ∧
    ∀ v : Nat, |(v : ℤ) - checkpoint| < 2 ^ 31 → unwrap (wrap v isn) isn checkpoint = v := by
  intro r
  have hmod := unwrap_mod n isn hc
  obtain ⟨hlow, hhigh⟩ := unwrap_bounds n isn hc
  have hb : usub 32 n.rawValue isn.rawValue < 2 ^ 32 := usub_lt n.isLt
  simp only [Int.abs_eq_natAbs]
  refine ⟨by omega, wrap_of_mod hmod, ?_, ?_⟩
  · -- any other number of the class is a whole block away from `r`, and so on or past the other side
    intro x hx
    have hx : x % 2 ^ 32 = r % 2 ^ 32 := hx
    omega
  · intro v hv
    apply unwrap_wrap isn hc
    · omega
    · omega

/-- A tie at distance `2 ^ 31`, in the second block. -/
theorem unwrap_nearest_tie :
    let r := unwrap (.ofRaw 5) (.ofRaw 5) (2 ^ 33 + 2 ^ 31)
    r < 2 ^ 64 ∧ wrap r (.ofRaw 5) = .ofRaw 5 ∧
    (∀ x : Nat, x ≡ r [MOD 2 ^ 32] →
      |(r : ℤ) - (2 ^ 33 + 2 ^ 31 : Nat)| ≤ |(x : ℤ) - (2 ^ 33 + 2 ^ 31 : Nat)|) ∧
    ∀ v : Nat, |(v : ℤ) - (2 ^ 33 + 2 ^ 31 : Nat)| < 2 ^ 31 →
      unwrap (wrap v (.ofRaw 5)) (.ofRaw 5) (2 ^ 33 + 2 ^ 31) = v :=
  unwrap_nearest (.ofRaw 5) (.ofRaw 5) (2 ^ 33 + 2 ^ 31) (by decide)

end Sponge
