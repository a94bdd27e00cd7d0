import Mathlib.Algebra.BigOperators.Group.List.Basic
import Mathlib.Algebra.Order.BigOperators.Group.List
import Mathlib.Algebra.Order.Ring.Int
import Mathlib.Data.List.Infix
import Mathlib.Tactic.Linarith
import Mathlib.Tactic.Ring

/-!
# Parts in proportion

An amount divided in proportion to weights, each part rounded down to whole units. When
the weights make up the whole the parts leave a rest, and it is smaller than their number.
-/

namespace Proportion

/-- The part of an amount that belongs to a weight out of a whole. -/
def part (amount whole weight : ℤ) : ℤ := amount * weight / whole

variable {amount whole weight : ℤ} {weights : List ℤ}

theorem part_nonneg (hamount : 0 ≤ amount) (hwhole : 0 ≤ whole) (hweight : 0 ≤ weight) :
    0 ≤ part amount whole weight := Int.ediv_nonneg (mul_nonneg hamount hweight) hwhole

theorem parts_nonneg (hamount : 0 ≤ amount) (hwhole : 0 ≤ whole) (hweights : ∀ w ∈ weights, 0 ≤ w) :
    ∀ x ∈ weights.map (part amount whole), 0 ≤ x := by
  intro x hx
  obtain ⟨w, hw, rfl⟩ := List.mem_map.1 hx
  exact part_nonneg hamount hwhole (hweights w hw)

theorem part_comm (amount whole weight : ℤ) : part amount whole weight = part weight whole amount := by
  rw [part, part, mul_comm]

theorem part_le (hamount : 0 ≤ amount) (hwhole : 0 ≤ whole) (hweight : weight ≤ whole) :
    part amount whole weight ≤ amount := by
  rcases hwhole.eq_or_lt with rfl | hpos
  · rwa [part, Int.ediv_zero]
  · exact Int.ediv_le_of_le_mul hpos (mul_le_mul_of_nonneg_left hweight hamount)

theorem mul_part_le (hwhole : 0 < whole) : whole * part amount whole weight ≤ amount * weight :=
  Int.mul_ediv_self_le hwhole.ne'

theorem lt_mul_part (hwhole : 0 < whole) : amount * weight < whole * (part amount whole weight + 1) :=
  (Int.lt_mul_ediv_self_add hwhole).trans_eq (by rw [part, mul_add, mul_one])

/-- A part is the number of whole units below the product. -/
theorem eq_part_iff (hwhole : 0 < whole) {x : ℤ} :
    x = part amount whole weight ↔ x * whole ≤ amount * weight ∧ amount * weight < (x + 1) * whole := by
  rw [← Int.le_ediv_iff_mul_le hwhole, ← Int.ediv_lt_iff_lt_mul hwhole, Int.lt_add_one_iff, ← le_antisymm_iff, part]

theorem mul_sum_part_le (hwhole : 0 < whole) (amount : ℤ) (weights : List ℤ) :
    whole * (weights.map (part amount whole)).sum ≤ amount * weights.sum := by
  induction weights with
  | nil => simp
  | cons w weights ih =>
      have hfirst : whole * part amount whole w ≤ amount * w := mul_part_le hwhole
      rw [List.map_cons, List.sum_cons, List.sum_cons, mul_add, mul_add]
      exact add_le_add hfirst ih

theorem le_mul_sum_part (hwhole : 0 < whole) (amount : ℤ) (weights : List ℤ) :
    amount * weights.sum + weights.length ≤ whole * ((weights.map (part amount whole)).sum + weights.length) := by
  induction weights with
  | nil => simp
  | cons w weights ih =>
      have hfirst : amount * w < whole * (part amount whole w + 1) := lt_mul_part hwhole
      rw [List.map_cons, List.sum_cons, List.sum_cons, List.length_cons, Nat.cast_succ]
      linarith

section Whole

variable (hwhole : 0 < whole) (hsum : weights.sum = whole)
include hwhole hsum

theorem sum_part_le (amount : ℤ) : (weights.map (part amount whole)).sum ≤ amount := by
  have hle := mul_sum_part_le hwhole amount weights
  rw [hsum, mul_comm amount] at hle
  exact le_of_mul_le_mul_left hle hwhole

theorem rest_lt (amount : ℤ) : amount - (weights.map (part amount whole)).sum < weights.length := by
  have hne : 0 < weights.length := by
    rw [List.length_pos_iff]
    rintro rfl
    exact hwhole.ne hsum
  have hlt := le_mul_sum_part hwhole amount weights
  rw [hsum, mul_comm amount] at hlt
  have hpos : (0 : ℤ) < weights.length := by exact_mod_cast hne
  have hle : whole * amount < whole * ((weights.map (part amount whole)).sum + weights.length) := by linarith
  have hbound := lt_of_mul_lt_mul_left hle hwhole.le
  linarith

/-- Without the last one the parts of positive weights make up less than the amount. -/
theorem sum_dropLast_lt (hamount : 0 < amount) (hne : weights ≠ []) (hlast : 0 < weights.getLast hne) :
    (weights.dropLast.map (part amount whole)).sum < amount := by
  have hle := mul_sum_part_le hwhole amount weights.dropLast
  have hsplit : weights.dropLast.sum + weights.getLast hne = whole := by
    rw [← hsum]
    conv_rhs => rw [← List.dropLast_append_getLast hne, List.sum_append, List.sum_singleton]
  have hrest : weights.dropLast.sum = whole - weights.getLast hne := by linarith
  rw [hrest] at hle
  have hgap : amount * (whole - weights.getLast hne) < amount * whole := by
    have hpos := mul_pos hamount hlast
    linarith [mul_sub amount whole (weights.getLast hne)]
  have hlt : whole * (weights.dropLast.map (part amount whole)).sum < whole * amount := by
    linarith [mul_comm amount whole]
  exact lt_of_mul_lt_mul_left hlt hwhole.le

end Whole

/-! ## The last one takes the rest -/

/-- The parts of all but the last weight, and what they leave for it. -/
def partsWithRest (amount whole : ℤ) (weights : List ℤ) : List ℤ :=
  weights.dropLast.map (part amount whole) ++ [amount - (weights.dropLast.map (part amount whole)).sum]

theorem sum_partsWithRest (amount whole : ℤ) (weights : List ℤ) :
    (partsWithRest amount whole weights).sum = amount := by
  rw [partsWithRest, List.sum_append, List.sum_singleton]
  ring

theorem length_partsWithRest (hne : weights ≠ []) :
    (partsWithRest amount whole weights).length = weights.length := by
  have hpos := List.length_pos_iff.2 hne
  rw [partsWithRest, List.length_append, List.length_map, List.length_dropLast, List.length_singleton]
  omega

theorem partsWithRest_nonneg (hwhole : 0 < whole) (hsum : weights.sum = whole) (hweights : ∀ w ∈ weights, 0 ≤ w)
    (hamount : 0 ≤ amount) : ∀ x ∈ partsWithRest amount whole weights, 0 ≤ x := by
  have hfront : ∀ w ∈ weights.dropLast, 0 ≤ w := fun w hw => hweights w (List.mem_of_mem_dropLast hw)
  intro x hx
  rcases List.mem_append.1 hx with hx | hx
  · exact parts_nonneg hamount hwhole.le hfront x hx
  · rw [List.mem_singleton.1 hx, sub_nonneg]
    have hless : weights.dropLast.sum ≤ whole := by
      rw [← hsum]
      exact List.Sublist.sum_le_sum (List.dropLast_sublist weights) hweights
    have hle := (mul_sum_part_le hwhole amount weights.dropLast).trans
      (mul_le_mul_of_nonneg_left hless hamount)
    rw [mul_comm amount] at hle
    exact le_of_mul_le_mul_left hle hwhole

section Rest

variable (hwhole : 0 < whole) (hsum : weights.sum = whole) (hweights : ∀ w ∈ weights, 0 < w)
include hwhole hsum hweights

theorem rest_pos (hamount : 0 < amount) : 0 < amount - (weights.dropLast.map (part amount whole)).sum := by
  have hne : weights ≠ [] := by
    rintro rfl
    exact hwhole.ne hsum
  exact sub_pos.2 (sum_dropLast_lt hwhole hsum hamount hne (hweights _ (List.getLast_mem hne)))

/-- No part is zero exactly when the weights of all but the last one reach a whole unit. -/
theorem partsWithRest_pos_iff (hamount : 0 < amount) :
    (∀ x ∈ partsWithRest amount whole weights, 0 < x) ↔ ∀ w ∈ weights.dropLast, whole ≤ amount * w := by
  have hunit : ∀ w, 0 < part amount whole w ↔ whole ≤ amount * w := by
    intro w
    rw [part, Int.lt_iff_add_one_le, zero_add, Int.le_ediv_iff_mul_le hwhole, one_mul]
  constructor
  · intro h w hw
    exact (hunit w).1 (h _ (List.mem_append_left _ (List.mem_map_of_mem hw)))
  · intro h x hx
    rcases List.mem_append.1 hx with hx | hx
    · obtain ⟨w, hw, rfl⟩ := List.mem_map.1 hx
      exact (hunit w).2 (h w hw)
    · rw [List.mem_singleton.1 hx]
      exact rest_pos hwhole hsum hweights hamount

end Rest

/-! ## One after another -/

/-- The parts taken one after another from what is left; the last weight takes all of it. -/
def takeParts (amount whole : ℤ) : ℤ → List ℤ → List ℤ
  | _, [] => []
  | left, w :: ws =>
      let x := if ws = [] then left else part amount whole w
      x :: takeParts amount whole (left - x) ws

theorem takeParts_cons (amount whole left w : ℤ) (ws : List ℤ) :
    takeParts amount whole left (w :: ws) =
      (if ws = [] then left else part amount whole w) ::
        takeParts amount whole (left - if ws = [] then left else part amount whole w) ws := rfl

theorem takeParts_eq (left : ℤ) (hne : weights ≠ []) :
    takeParts amount whole left weights =
      weights.dropLast.map (part amount whole) ++ [left - (weights.dropLast.map (part amount whole)).sum] := by
  induction weights generalizing left with
  | nil => exact absurd rfl hne
  | cons w ws ih =>
      rw [takeParts_cons]
      cases ws with
      | nil => simp [takeParts]
      | cons w' ws =>
          rw [if_neg (List.cons_ne_nil w' ws), ih _ (List.cons_ne_nil w' ws), List.dropLast_cons_cons, List.map_cons,
            List.sum_cons, List.cons_append, sub_sub]

theorem takeParts_self (hne : weights ≠ []) :
    takeParts amount whole amount weights = partsWithRest amount whole weights := takeParts_eq amount hne

end Proportion
