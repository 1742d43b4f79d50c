import Mathlib

/-!
# `Lib.Coverage` — the frontier of a finite set of positions

For a finite set `C` of positions, `frontier C` is the length of the longest initial segment
`{0, …, n - 1}` contained in `C` (`le_frontier`), equivalently the least position missing from `C`
(`frontier_eq`).
-/

namespace Lib

variable {C : Finset Nat} {n : Nat}

theorem exists_not_mem (C : Finset Nat) : ∃ n, n ∉ C := Infinite.exists_notMem_finset C

/-- The least position that is not covered. -/
def frontier (C : Finset Nat) : Nat := Nat.find (exists_not_mem C)

theorem frontier_notMem (C : Finset Nat) : frontier C ∉ C := Nat.find_spec (exists_not_mem C)

theorem mem_of_lt_frontier (h : n < frontier C) : n ∈ C := not_not.mp (Nat.find_min (exists_not_mem C) h)

/-- The frontier is the longest covered initial segment. -/
theorem le_frontier : n ≤ frontier C ↔ ∀ k < n, k ∈ C := by
  refine ⟨fun h k hk => mem_of_lt_frontier (by omega), fun h => ?_⟩
  by_contra hlt
  exact frontier_notMem C (h _ (by omega))

theorem frontier_eq (hmem : ∀ k < n, k ∈ C) (hn : n ∉ C) : frontier C = n := by
  refine le_antisymm ?_ (le_frontier.mpr hmem)
  by_contra hlt
  exact hn (mem_of_lt_frontier (by omega))

end Lib
