import Mathlib.Algebra.BigOperators.Intervals
import Mathlib.Algebra.Order.BigOperators.Group.Finset
import Mathlib.Tactic.Abel

/-!
# Sums in which one summand changes

A sum over numbered records, when one of them is replaced or a new one is added.
-/

namespace Totals

variable {ι M : Type*} [DecidableEq ι] [AddCommGroup M] {s : Finset ι} {f g : ι → M} {i : ι}

/-- Changing one summand changes the sum by the difference. -/
theorem sum_change (hi : i ∈ s) (h : ∀ j, j ≠ i → g j = f j) :
    ∑ j ∈ s, g j = ∑ j ∈ s, f j - f i + g i := by
  have hrest : ∑ j ∈ s.erase i, g j = ∑ j ∈ s.erase i, f j :=
    Finset.sum_congr rfl fun j hj => h j (Finset.ne_of_mem_erase hj)
  rw [← Finset.add_sum_erase s f hi, ← Finset.add_sum_erase s g hi, hrest]
  abel

/-- A new record at the end adds its own summand. -/
theorem sum_range_grow {f g : ℕ → M} {n : ℕ} (h : ∀ j, j < n → g j = f j) :
    ∑ j ∈ Finset.range (n + 1), g j = ∑ j ∈ Finset.range n, f j + g n := by
  rw [Finset.sum_range_succ, Finset.sum_congr rfl fun j hj => h j (Finset.mem_range.1 hj)]

end Totals
