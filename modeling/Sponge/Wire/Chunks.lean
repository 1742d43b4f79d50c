import Sponge.Wire.Checksum

/-!
# `Wire.Chunks` — the Internet checksum of a string in pieces

A segment is serialized in pieces, and its checksum is taken by adding one piece after the other. The parity of the
sum remembers whether the last word is still open, so it makes no difference where the string is cut, even within
a word (`addAll_eq`). `chunks_value` is the value in closed form; `toNat_value_ones` says that it is the complement
of the ones' complement sum of the words, in which every single addition puts its carry back.
-/

namespace Sponge

open Lib

namespace InternetChecksum

/-- The strings added one by one. -/
def addAll (c : InternetChecksum) (pieces : List Buffer) : InternetChecksum := pieces.foldl add c

/-- **Only the concatenation counts.** -/
theorem addAll_eq (c : InternetChecksum) (pieces : List Buffer) : c.addAll pieces = c.add pieces.flatten := by
  induction pieces generalizing c with
  | nil => rfl
  | cons piece pieces ih =>
      rw [List.flatten_cons, add_append]
      exact ih (c.add piece)

variable {s : UInt32} {data : Buffer}

/-- Within the admitted sizes the register holds the exact sum of the words. -/
theorem toNat_sum_words (hs : s.toNat < 2 ^ 31) (hlen : data.length ≤ 65535) :
    ((ofSum s).add data).sum.toNat = s.toNat + (words data).sum := by
  rw [← byteSum_eq_sum_words]
  exact toNat_sum_add (c := ofSum s) (byteSum_fits hs hlen)

theorem toNat_value_words (hs : s.toNat < 2 ^ 31) (hlen : data.length ≤ 65535) :
    ((ofSum s).add data).value.toNat = 0xffff - foldCarry 0x10000 (s.toNat + (words data).sum) := by
  rw [toNat_value, toNat_sum_words hs hlen]

/-- **The value is the complement of the ones' complement sum**: the words are added one by one, each time with the
    carry out of the highest bit added to the lowest. -/
theorem toNat_value_ones (hs : s.toNat < 2 ^ 31) (hlen : data.length ≤ 65535) :
    ((ofSum s).add data).value.toNat =
      0xffff - (words data).foldl (carryAdd 0x10000) (foldCarry 0x10000 s.toNat) := by
  rw [toNat_value_words hs hlen, foldl_carryAdd (by decide) fun _ => lt_of_mem_words]

/-! ## The loop of `value` -/

/-- The body of the loop of `value`. -/
def foldRound (ret : UInt32) : UInt32 := (ret >>> 16) + (ret &&& 0xffff)

/-- The loop ended after `n` rounds: its condition held before each of them and not after the last. -/
structure EndsAfter (n : Nat) (ret : UInt32) : Prop where
  goes  : ∀ m, m < n → 0xffff < foldRound^[m] ret
  stops : foldRound^[n] ret ≤ 0xffff

theorem foldLoop_of_endsAfter {n : Nat} {ret : UInt32} (h : EndsAfter n ret) : foldLoop ret = foldRound^[n] ret := by
  induction n generalizing ret with
  | zero =>
      have hstops : ¬ 0xffff < ret := UInt32.not_lt.mpr h.stops
      rw [foldLoop, if_neg hstops]
      rfl
  | succ n ih =>
      have hgoes : 0xffff < ret := h.goes 0 (Nat.succ_pos n)
      have hnext : EndsAfter n (foldRound ret) := ⟨fun m hm => h.goes (m + 1) (Nat.succ_lt_succ hm), h.stops⟩
      rw [foldLoop, if_pos hgoes]
      exact ih hnext

/-- The first round leaves at most one carry, and adding that in leaves none. -/
theorem exists_endsAfter (ret : UInt32) : ∃ n, n ≤ 2 ∧ EndsAfter n ret := by
  have hret := ret.toNat_lt
  have hfirst : (foldRound ret).toNat = ret.toNat / 65536 + ret.toNat % 65536 := toNat_foldRound ret
  have hsecond : (foldRound (foldRound ret)).toNat = (foldRound ret).toNat / 65536 + (foldRound ret).toNat % 65536 :=
    toNat_foldRound (foldRound ret)
  by_cases h0 : 0xffff < ret
  · by_cases h1 : 0xffff < foldRound ret
    · have h2 : (foldRound (foldRound ret)).toNat ≤ 0xffff := by omega
      refine ⟨2, le_refl 2, ?_, h2⟩
      intro m hm
      interval_cases m
      · exact h0
      · exact h1
    · refine ⟨1, one_le_two, ?_, UInt32.not_lt.mp h1⟩
      intro m hm
      interval_cases m
      exact h0
  · exact ⟨0, Nat.zero_le 2, by simp, UInt32.not_lt.mp h0⟩

/-! ## The whole -/

/-- **The checksum of a string in pieces.** The value is `0xffff` minus the fold of the initial sum and the words of
    the concatenation; other pieces with the same concatenation give the same value; at every moment, with some of
    the pieces added and part of the next, the register holds the exact sum; and the loop of `value` ends after at
    most two rounds. -/
theorem chunks_value (s : UInt32) (hs : s.toNat < 2 ^ 31) (pieces : List Buffer)
    (hlen : (pieces.map List.length).sum ≤ 65535) :
    ((ofSum s).addAll pieces).value.toNat =
        0xffff - foldCarry 0x10000 (s.toNat + (words pieces.flatten).sum) ∧
      (∀ pieces', pieces'.flatten = pieces.flatten →
        ((ofSum s).addAll pieces').value = ((ofSum s).addAll pieces).value) ∧
      (∀ done part, done.flatten ++ part <+: pieces.flatten →
        (((ofSum s).addAll done).add part).sum.toNat = s.toNat + (words (done.flatten ++ part)).sum) ∧
      ∃ n, n ≤ 2 ∧ EndsAfter n ((ofSum s).addAll pieces).sum ∧
        foldLoop ((ofSum s).addAll pieces).sum = foldRound^[n] ((ofSum s).addAll pieces).sum := by
  have hflat : pieces.flatten.length ≤ 65535 := by rwa [List.length_flatten]
  refine ⟨?_, ?_, ?_, ?_⟩
  · rw [addAll_eq]
    exact toNat_value_words hs hflat
  · intro pieces' hsame
    rw [addAll_eq, addAll_eq, hsame]
  · intro done part hmoment
    rw [addAll_eq, ← add_append]
    exact toNat_sum_words hs (hmoment.length_le.trans hflat)
  · obtain ⟨n, hn, hends⟩ := exists_endsAfter ((ofSum s).addAll pieces).sum
    exact ⟨n, hn, hends, foldLoop_of_endsAfter hends⟩

/-- Cuts within words, and an odd byte at the end: the words are `0xffff`, `0x8001` and `0xaa00`. -/
theorem chunks_value_odd_cuts :
    ((ofSum 0x1ffff).addAll [[0xff], [0xff, 0x80], [], [0x01, 0xaa]]).value = 0xd5fc := by
  have hvalue := (chunks_value 0x1ffff (by decide) [[0xff], [0xff, 0x80], [], [0x01, 0xaa]] (by decide)).1
  have hsum : (0x1ffff : UInt32).toNat +
      (words (List.flatten [[0xff], [0xff, 0x80], [], [0x01, 0xaa]])).sum = 0x429ff := by decide
  have hfold : foldCarry 0x10000 0x429ff = 0x2a03 := by
    rw [foldCarry_of_le (by decide) (by decide), foldCarry_of_lt (by decide)]
  rw [hsum, hfold] at hvalue
  exact UInt16.toNat_inj.mp hvalue

end InternetChecksum

end Sponge
