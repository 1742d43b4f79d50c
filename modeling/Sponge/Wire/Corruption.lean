import Sponge.Wire.Accept

/-!
# `Wire.Corruption` — what the checksum detects

A sum verifies when it is a positive multiple of `65535` (`foldCarry_eq_pred_iff`). Two words that both complete a
sum to one can therefore only be equal or the two representations of zero (`eq_of_foldCarry_add`), so replacing a
single word is always noticed, whether it is a word of the segment or half of an address of the pseudo-header.
-/

namespace Sponge

open Lib InternetChecksum

/-- Two words that differ, and not only as `0x0000` and `0xffff` do. -/
structure Differ (w w' : Nat) : Prop where
  ne : w ≠ w'
  notZeroOnes : ¬ (w = 0 ∧ w' = 0xffff)
  notOnesZero : ¬ (w = 0xffff ∧ w' = 0)

/-- One aligned word of the bytes is replaced by one that differs. -/
def OneWord (b b' : Buffer) : Prop :=
  b'.length = b.length ∧ ∃ before w w' after,
    words b = before ++ w :: after ∧ words b' = before ++ w' :: after ∧ Differ w w'

/-- One half of an address is replaced by one that differs. -/
def OneHalf (addr addr' : UInt32) : Prop :=
  (Differ (addr >>> 16).toNat (addr' >>> 16).toNat ∧ addr' &&& 0xffff = addr &&& 0xffff) ∨
    (addr' >>> 16 = addr >>> 16 ∧ Differ (addr &&& 0xffff).toNat (addr' &&& 0xffff).toNat)

/-! ## One word of a sum -/

section Sum

variable {x w w' : Nat}

/-- No two different words complete a sum. -/
theorem Differ.not_both (h : Differ w w') (hw : w < 65536) (hw' : w' < 65536)
    (hfold : foldCarry 65536 (x + w) = 65535) : foldCarry 65536 (x + w') ≠ 65535 := by
  intro hfold'
  rcases eq_of_foldCarry_add (by decide) (Nat.le_pred_of_lt hw) (Nat.le_pred_of_lt hw') hfold hfold' with
    heq | hzero | hones
  · exact h.ne heq
  · exact h.notZeroOnes hzero
  · exact h.notOnesZero hones

end Sum

/-- The two sums have all but one word in common. -/
theorem OneWord.byteSum {b b' : Buffer} (h : OneWord b b') :
    ∃ x w w', Differ w w' ∧ w < 65536 ∧ w' < 65536 ∧ byteSum false b = x + w ∧ byteSum false b' = x + w' := by
  obtain ⟨-, before, w, w', after, hb, hb', hdiffer⟩ := h
  have hw : w ∈ words b := by rw [hb]; exact List.mem_append_right _ List.mem_cons_self
  have hw' : w' ∈ words b' := by rw [hb']; exact List.mem_append_right _ List.mem_cons_self
  refine ⟨before.sum + after.sum, w, w', hdiffer, lt_of_mem_words hw, lt_of_mem_words hw', ?_, ?_⟩
  · rw [byteSum_eq_sum_words, hb, List.sum_append, List.sum_cons]
    omega
  · rw [byteSum_eq_sum_words, hb', List.sum_append, List.sum_cons]
    omega

/-- The sums of the halves have one half in common. -/
theorem OneHalf.sum {addr addr' : UInt32} (h : OneHalf addr addr') :
    ∃ x w w', Differ w w' ∧ w < 65536 ∧ w' < 65536 ∧ addr.toNat / 65536 + addr.toNat % 65536 = x + w ∧
      addr'.toNat / 65536 + addr'.toNat % 65536 = x + w' := by
  have hlt := addr.toNat_lt
  have hlt' := addr'.toNat_lt
  have hhigh : ∀ a : UInt32, (a >>> 16).toNat = a.toNat / 65536 := by
    intro a
    rw [UInt32.toNat_shiftRight]
    exact Nat.shiftRight_eq_div_pow _ 16
  have hlow : ∀ a : UInt32, (a &&& 0xffff).toNat = a.toNat % 65536 := by
    intro a
    rw [UInt32.toNat_and]
    exact Nat.and_two_pow_sub_one_eq_mod _ 16
  rcases h with ⟨hdiffer, hsame⟩ | ⟨hsame, hdiffer⟩
  · rw [hhigh, hhigh] at hdiffer
    have hmod := congrArg UInt32.toNat hsame
    rw [hlow, hlow] at hmod
    exact ⟨addr.toNat % 65536, _, _, hdiffer, by omega, by omega, Nat.add_comm _ _, by omega⟩
  · rw [hlow, hlow] at hdiffer
    have hdiv := congrArg UInt32.toNat hsame
    rw [hhigh, hhigh] at hdiv
    exact ⟨addr.toNat / 65536, _, _, hdiffer, by omega, by omega, rfl, by omega⟩

/-! ## Segments -/

section Segment

variable {s s' : UInt32} {b b' : Buffer}

/-- What makes one word of the whole sum different is noticed. -/
theorem not_verifies_of_differ {x w w' : Nat} (hs : s.toNat < 2 ^ 31) (hs' : s'.toNat < 2 ^ 31)
    (hlen : b.length ≤ 65535) (hlen' : b'.length ≤ 65535) (hdiffer : Differ w w') (hw : w < 65536) (hw' : w' < 65536)
    (hsum : s.toNat + byteSum false b = x + w) (hsum' : s'.toNat + byteSum false b' = x + w') (h : Verifies s b) :
    ¬ Verifies s' b' := by
  rw [verifies_iff hs hlen, hsum] at h
  rw [verifies_iff hs' hlen', hsum']
  exact hdiffer.not_both hw hw' h

theorem OneWord.not_verifies (h : OneWord b b') (hs : s.toNat < 2 ^ 31) (hlen : b.length ≤ 65535)
    (hverifies : Verifies s b) : ¬ Verifies s b' := by
  obtain ⟨x, w, w', hdiffer, hw, hw', hb, hb'⟩ := h.byteSum
  have hlen' : b'.length ≤ 65535 := h.1.trans_le hlen
  refine not_verifies_of_differ (x := s.toNat + x) hs hs hlen hlen' hdiffer hw hw' ?_ ?_ hverifies
  · rw [hb, Nat.add_assoc]
  · rw [hb', Nat.add_assoc]

/-- Half of an address in the pseudo-header is a word of the sum. -/
theorem OneHalf.not_verifies {addr addr' : UInt32} {r : Nat} (h : OneHalf addr addr') (hs : s.toNat < 2 ^ 31)
    (hs' : s'.toNat < 2 ^ 31) (hlen : b.length ≤ 65535)
    (hsum : s.toNat = addr.toNat / 65536 + addr.toNat % 65536 + r)
    (hsum' : s'.toNat = addr'.toNat / 65536 + addr'.toNat % 65536 + r) (hverifies : Verifies s b) :
    ¬ Verifies s' b := by
  obtain ⟨x, w, w', hdiffer, hw, hw', haddr, haddr'⟩ := h.sum
  refine not_verifies_of_differ (x := x + r + byteSum false b) hs hs' hlen hlen hdiffer hw hw' ?_ ?_ hverifies
  · rw [hsum, haddr]
    omega
  · rw [hsum', haddr']
    omega

variable {h : IPv4Header} {addr : UInt32}

theorem OneHalf.src_not_verifies (hhalf : OneHalf h.src addr) (hlen : b.length ≤ 65535)
    (hverifies : Verifies h.pseudoCksum b) : ¬ Verifies { h with src := addr }.pseudoCksum b := by
  have hpseudo : { h with src := addr }.pseudoCksum.toNat =
      addr.toNat / 65536 + addr.toNat % 65536 + (h.dst.toNat / 65536 + h.dst.toNat % 65536) +
        h.proto.toNat + h.payloadLength.toNat := IPv4Header.toNat_pseudoCksum _
  refine hhalf.not_verifies h.toNat_pseudoCksum_lt (IPv4Header.toNat_pseudoCksum_lt _) hlen
    (r := h.dst.toNat / 65536 + h.dst.toNat % 65536 + h.proto.toNat + h.payloadLength.toNat) ?_ ?_ hverifies
  · rw [IPv4Header.toNat_pseudoCksum]
    omega
  · rw [hpseudo]
    omega

theorem OneHalf.dst_not_verifies (hhalf : OneHalf h.dst addr) (hlen : b.length ≤ 65535)
    (hverifies : Verifies h.pseudoCksum b) : ¬ Verifies { h with dst := addr }.pseudoCksum b := by
  have hpseudo : { h with dst := addr }.pseudoCksum.toNat =
      h.src.toNat / 65536 + h.src.toNat % 65536 + (addr.toNat / 65536 + addr.toNat % 65536) +
        h.proto.toNat + h.payloadLength.toNat := IPv4Header.toNat_pseudoCksum _
  refine hhalf.not_verifies h.toNat_pseudoCksum_lt (IPv4Header.toNat_pseudoCksum_lt _) hlen
    (r := h.src.toNat / 65536 + h.src.toNat % 65536 + h.proto.toNat + h.payloadLength.toNat) ?_ ?_ hverifies
  · rw [IPv4Header.toNat_pseudoCksum]
    omega
  · rw [hpseudo]
    omega

end Segment

namespace TCPSegment

/-- **A change of one word is detected.** When the bytes are not refused for their checksum, they are once a word of
    them, or half of an address in the pseudo-header, is replaced. -/
theorem corruption_detected (seg₀ : TCPSegment) (b : Buffer) (s : UInt32) (hlen : b.length ≤ 65535)
    (hs : s.toNat < 2 ^ 31) (hok : ∀ out, seg₀.parse b s ≠ .ok (.badChecksum, out)) :
    (∀ b' (seg : TCPSegment), OneWord b b' → seg.parse b' s = .ok (.badChecksum, seg)) ∧
    (∀ (h : IPv4Header) addr (seg : TCPSegment), s = h.pseudoCksum → OneHalf h.src addr →
      seg.parse b { h with src := addr }.pseudoCksum = .ok (.badChecksum, seg)) ∧
    (∀ (h : IPv4Header) addr (seg : TCPSegment), s = h.pseudoCksum → OneHalf h.dst addr →
      seg.parse b { h with dst := addr }.pseudoCksum = .ok (.badChecksum, seg)) := by
  have hverifies : Verifies s b := by
    by_contra hnot
    exact hok seg₀ (parse_of_not_verifies hnot seg₀)
  refine ⟨fun b' seg hone => ?_, fun h addr seg heq hhalf => ?_, fun h addr seg heq hhalf => ?_⟩
  · exact parse_of_not_verifies (hone.not_verifies hs hlen hverifies) seg
  · rw [heq] at hverifies
    exact parse_of_not_verifies (hhalf.src_not_verifies hlen hverifies) seg
  · rw [heq] at hverifies
    exact parse_of_not_verifies (hhalf.dst_not_verifies hlen hverifies) seg

/-- A segment with one byte of payload: the byte changes, or the upper half of the source address, or the lower half
    of the destination. -/
theorem corruption_detected_odd_payload :
    TCPSegment.parse {} [0, 0, 0, 0, 0, 0, 0, 0, 0, 0, 0, 0, 0x50, 0, 0, 0, 0xa8, 0xe1, 0, 0, 8] 30 =
      .ok (.badChecksum, {}) ∧
    TCPSegment.parse {} [0, 0, 0, 0, 0, 0, 0, 0, 0, 0, 0, 0, 0x50, 0, 0, 0, 0xa8, 0xe1, 0, 0, 7]
      (IPv4Header.pseudoCksum { src := 0x00010001, dst := 2, proto := 6, len := 41 }) = .ok (.badChecksum, {}) ∧
    TCPSegment.parse {} [0, 0, 0, 0, 0, 0, 0, 0, 0, 0, 0, 0, 0x50, 0, 0, 0, 0xa8, 0xe1, 0, 0, 7]
      (IPv4Header.pseudoCksum { src := 1, dst := 3, proto := 6, len := 41 }) = .ok (.badChecksum, {}) := by
  have hok : ∀ out, TCPSegment.parse {} [0, 0, 0, 0, 0, 0, 0, 0, 0, 0, 0, 0, 0x50, 0, 0, 0, 0xa8, 0xe1, 0, 0, 7] 30 ≠
      .ok (.badChecksum, out) := by
    intro out hbad
    obtain ⟨r, out', hparse, hiff, -⟩ :=
      parse_outcome {} [0, 0, 0, 0, 0, 0, 0, 0, 0, 0, 0, 0, 0x50, 0, 0, 0, 0xa8, 0xe1, 0, 0, 7] 30
    have hr : r = .noError := by
      refine hiff.mpr ⟨(verifies_iff (by decide) (by decide)).mpr ?_, by decide, by decide⟩
      exact foldCarry_of_lt (by decide)
    rw [hparse, hr] at hbad
    cases hbad
  obtain ⟨hword, hsrc, hdst⟩ := corruption_detected {}
    [0, 0, 0, 0, 0, 0, 0, 0, 0, 0, 0, 0, 0x50, 0, 0, 0, 0xa8, 0xe1, 0, 0, 7] 30 (by decide) (by decide) hok
  refine ⟨?_, ?_, ?_⟩
  · refine hword _ {} ⟨rfl, [0, 0, 0, 0, 0, 0, 0x5000, 0, 0xa8e1, 0], 0x0700, 0x0800, [], by decide, by decide, ?_⟩
    constructor <;> decide
  · refine hsrc { src := 1, dst := 2, proto := 6, len := 41 } 0x00010001 {} (by decide) (Or.inl ⟨?_, by decide⟩)
    constructor <;> decide
  · refine hdst { src := 1, dst := 2, proto := 6, len := 41 } 3 {} (by decide) (Or.inr ⟨by decide, ?_⟩)
    constructor <;> decide

end TCPSegment

end Sponge
