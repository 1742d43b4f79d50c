import Mathlib

/-!
# `Lib.FiniteMap` — sizes of finite ordered maps

`Std.ExtTreeMap` has the lookup equations; what is missing for counting arguments is stated here: a map
with a key is not empty, erasing a key takes exactly one off the size, the size is the cardinality of
the set of keys, and a map whose keys come from an interval is no larger than that interval.
-/

namespace Lib

variable {β : Type} {m : Std.ExtTreeMap Nat β} {k : Nat}

theorem size_pos_of_mem (h : k ∈ m) : 0 < m.size := by
  apply Nat.pos_of_ne_zero
  intro h0
  rw [Std.ExtTreeMap.eq_empty_iff_size_eq_zero.mpr h0] at h
  simp at h

theorem size_erase_of_mem (h : k ∈ m) : (m.erase k).size + 1 = m.size := by
  have hpos := size_pos_of_mem h
  rw [Std.ExtTreeMap.size_erase, if_pos (Std.ExtTreeMap.mem_iff_contains.mp h)]
  omega

/-- Counting the keys of a map: any finite set with the same members has the map's size. -/
theorem card_eq_size {s : Finset Nat} (h : ∀ k, k ∈ s ↔ k ∈ m) : s.card = m.size := by
  have hs : s = m.keys.toFinset := by
    ext k
    rw [h k, List.mem_toFinset, Std.ExtTreeMap.mem_keys]
  rw [hs, List.toFinset_card_of_nodup Std.ExtTreeMap.nodup_keys, Std.ExtTreeMap.length_keys]

/-- A map whose keys are images of an interval has at most as many entries as the interval has elements. -/
theorem size_le_of_image {f : Nat → Nat} {lo hi : Nat} (h : ∀ k ∈ m, ∃ t, f t = k ∧ lo ≤ t ∧ t < hi) :
    m.size ≤ hi - lo := by
  have hkeys : m.keys.toFinset.card = m.size :=
    card_eq_size fun k => by rw [List.mem_toFinset, Std.ExtTreeMap.mem_keys]
  have hsub : m.keys.toFinset ⊆ (Finset.Ico lo hi).image f := by
    intro k hk
    rw [List.mem_toFinset, Std.ExtTreeMap.mem_keys] at hk
    obtain ⟨t, rfl, hlo, hhi⟩ := h k hk
    exact Finset.mem_image_of_mem f (Finset.mem_Ico.mpr ⟨hlo, hhi⟩)
  calc m.size = m.keys.toFinset.card := hkeys.symm
    _ ≤ ((Finset.Ico lo hi).image f).card := Finset.card_le_card hsub
    _ ≤ (Finset.Ico lo hi).card := Finset.card_image_le
    _ = hi - lo := Nat.card_Ico lo hi

end Lib
