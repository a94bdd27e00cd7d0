import Mathlib.Algebra.BigOperators.Intervals
import Mathlib.Algebra.Order.BigOperators.Group.Finset
import Mathlib.Algebra.Order.BigOperators.Group.List
import Mathlib.Algebra.Order.Ring.Int
import Mathlib.Order.Interval.Finset.Nat

/-!
# Areas under a staircase

A level that rises by an amount at each of some times, and the sum of the levels over an
interval of times. The area up to the last rise can be kept up to date rise by rise.
-/

namespace Staircase

/-- The level at a time: the rises up to then. -/
def level (rises : List (ℕ × ℤ)) (t : ℕ) : ℤ := ((rises.filter fun p => p.1 ≤ t).map Prod.snd).sum

/-- The level after all rises. -/
def top (rises : List (ℕ × ℤ)) : ℤ := (rises.map Prod.snd).sum

/-- The sum of the levels after one time up to another. -/
def area (rises : List (ℕ × ℤ)) (a b : ℕ) : ℤ := ∑ t ∈ Finset.Ioc a b, level rises t

variable {rises : List (ℕ × ℤ)} {a b c t : ℕ} {x : ℤ}

theorem level_snoc : level (rises ++ [(a, x)]) t = level rises t + if a ≤ t then x else 0 := by
  unfold level
  by_cases h : a ≤ t <;> simp [h]

theorem level_of_past (h : ∀ p ∈ rises, p.1 ≤ t) : level rises t = top rises := by
  have hall : rises.filter (fun p => p.1 ≤ t) = rises := List.filter_eq_self.2 fun p hp => by simpa using h p hp
  rw [level, hall, top]

theorem level_nonneg (h : ∀ p ∈ rises, 0 ≤ p.2) : 0 ≤ level rises t := by
  refine List.sum_nonneg fun y hy => ?_
  obtain ⟨p, hp, rfl⟩ := List.mem_map.1 hy
  exact h p (List.mem_of_mem_filter hp)

theorem top_snoc : top (rises ++ [(a, x)]) = top rises + x := by
  simp [top]

theorem area_add (hab : a ≤ b) (hbc : b ≤ c) : area rises a b + area rises b c = area rises a c :=
  Finset.sum_Ioc_consecutive _ hab hbc

/-- After the last rise the area grows by the same amount each time. -/
theorem area_flat (h : ∀ p ∈ rises, p.1 ≤ b) : area rises b c = top rises * (c - b : ℕ) := by
  have hlevel : ∀ t ∈ Finset.Ioc b c, level rises t = top rises := fun t ht =>
    level_of_past fun p hp => (h p hp).trans (Finset.mem_Ioc.1 ht).1.le
  rw [area, Finset.sum_congr rfl hlevel, Finset.sum_const, Nat.card_Ioc, nsmul_eq_mul, mul_comm]

/-- A rise counts from its own time on. -/
theorem area_snoc (hab : a < b) : area (rises ++ [(b, x)]) a b = area rises a b + x := by
  have hlevel : ∀ t ∈ Finset.Ioc a b, level (rises ++ [(b, x)]) t = level rises t + if b = t then x else 0 := by
    intro t ht
    rw [level_snoc, if_congr (Finset.mem_Ioc.1 ht).2.ge_iff_eq' rfl rfl]
  rw [area, Finset.sum_congr rfl hlevel, Finset.sum_add_distrib, Finset.sum_ite_eq,
    if_pos (Finset.mem_Ioc.2 ⟨hab, le_rfl⟩), area]

theorem area_nonneg (h : ∀ p ∈ rises, 0 ≤ p.2) : 0 ≤ area rises a b := Finset.sum_nonneg fun _ _ => level_nonneg h

theorem area_le_snoc (hx : 0 ≤ x) : area rises a b ≤ area (rises ++ [(c, x)]) a b := by
  refine Finset.sum_le_sum fun t _ => ?_
  rw [level_snoc]
  split_ifs <;> omega

/-- The level after all rises is within the area. -/
theorem top_le_area (hab : a < b) (hpast : ∀ p ∈ rises, p.1 ≤ b) (h : ∀ p ∈ rises, 0 ≤ p.2) :
    top rises ≤ area rises a b := by
  rw [← level_of_past hpast]
  exact Finset.single_le_sum (f := level rises) (fun _ _ => level_nonneg h) (Finset.mem_Ioc.2 ⟨hab, le_rfl⟩)

end Staircase
