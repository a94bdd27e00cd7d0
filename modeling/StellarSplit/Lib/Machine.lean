import Mathlib.Data.Int.Order.Lemmas
import Mathlib.Algebra.Order.Ring.Int
import Mathlib.Tactic.NormNum
import Mathlib.Tactic.Ring

/-!
# Machine integers

Unsigned and signed words as natural numbers and integers in a range. The
casts between `i128` and `u128` are modular; the checked operations answer
`none` on overflow; the saturating ones stop at the bound.
-/

namespace Machine

/-! ## Ranges -/

def u32Max : ℕ := 2 ^ 32 - 1

def u64Max : ℕ := 2 ^ 64 - 1

def u128Max : ℕ := 2 ^ 128 - 1

def i128Max : ℤ := 2 ^ 127 - 1

def i128Min : ℤ := -2 ^ 127

/-- The results an `i128` operation can have without overflow. -/
def InI128 (a : ℤ) : Prop := i128Min ≤ a ∧ a ≤ i128Max

instance (a : ℤ) : Decidable (InI128 a) := inferInstanceAs (Decidable (_ ∧ _))

/-! ## Saturating and checked operations -/

def satAddU64 (a b : ℕ) : ℕ := min (a + b) u64Max

def satAddU32 (a b : ℕ) : ℕ := min (a + b) u32Max

def satMulU128 (a b : ℕ) : ℕ := min (a * b) u128Max

def satAddI128 (a b : ℤ) : ℤ := max i128Min (min (a + b) i128Max)

def satSubI128 (a b : ℤ) : ℤ := max i128Min (min (a - b) i128Max)

def satMulI128 (a b : ℤ) : ℤ := max i128Min (min (a * b) i128Max)

def checkedAddU64 (a b : ℕ) : Option ℕ := if a + b ≤ u64Max then some (a + b) else none

def checkedAddU32 (a b : ℕ) : Option ℕ := if a + b ≤ u32Max then some (a + b) else none

def checkedAddI128 (a b : ℤ) : Option ℤ := if InI128 (a + b) then some (a + b) else none

def checkedSubI128 (a b : ℤ) : Option ℤ := if InI128 (a - b) then some (a - b) else none

def checkedMulI128 (a b : ℤ) : Option ℤ := if InI128 (a * b) then some (a * b) else none

/-- Saturating additions stop at the largest word for good. -/
theorem foldl_satAddU32 {xs : List ℕ} {n : ℕ} (hn : n ≤ u32Max) : xs.foldl satAddU32 n = min (n + xs.sum) u32Max := by
  induction xs generalizing n with
  | nil => simpa using hn
  | cons x xs ih =>
      have hnext : satAddU32 n x ≤ u32Max := min_le_right _ _
      rw [List.foldl_cons, ih hnext, List.sum_cons, satAddU32]
      omega

theorem checkedAddU64_eq {a b n : ℕ} (h : checkedAddU64 a b = some n) : n = a + b := by
  unfold checkedAddU64 at h
  split at h
  · exact (Option.some.inj h).symm
  · cases h

theorem checkedAddU32_eq {a b n : ℕ} (h : checkedAddU32 a b = some n) : n = a + b := by
  unfold checkedAddU32 at h
  split at h
  · exact (Option.some.inj h).symm
  · cases h

theorem checkedAddI128_eq {a b n : ℤ} (h : checkedAddI128 a b = some n) : n = a + b := by
  unfold checkedAddI128 at h
  split at h
  · exact (Option.some.inj h).symm
  · cases h

theorem checkedAddI128_le {a b n : ℤ} (h : checkedAddI128 a b = some n) : n ≤ i128Max := by
  unfold checkedAddI128 at h
  split_ifs at h with hin
  exact Option.some.inj h ▸ hin.2

theorem checkedMulI128_eq {a b n : ℤ} (h : checkedMulI128 a b = some n) : n = a * b := by
  unfold checkedMulI128 at h
  split at h
  · exact (Option.some.inj h).symm
  · cases h

theorem checkedSubI128_eq {a b n : ℤ} (h : checkedSubI128 a b = some n) : n = a - b := by
  unfold checkedSubI128 at h
  split at h
  · exact (Option.some.inj h).symm
  · cases h

def checkedMulU128 (a b : ℕ) : Option ℕ := if a * b ≤ u128Max then some (a * b) else none

/-! ## Casts -/

/-- `as u128` of an `i128`. -/
def asU128 (a : ℤ) : ℕ := (a % 2 ^ 128).toNat

/-- `as i128` of a `u128`. -/
def asI128 (n : ℕ) : ℤ := if n < 2 ^ 127 then n else n - 2 ^ 128

/-- `as u64` of an `i128`. -/
def asU64 (a : ℤ) : ℕ := (a % 2 ^ 64).toNat

/-- `as u32` of an `i128`. -/
def asU32 (a : ℤ) : ℕ := (a % 2 ^ 32).toNat

theorem asU128_of_nonneg {a : ℤ} (h₀ : 0 ≤ a) (h₁ : a < 2 ^ 128) : asU128 a = a.toNat := by
  unfold asU128
  rw [Int.emod_eq_of_lt h₀ h₁]

theorem asU128_le {a : ℤ} (h₀ : 0 ≤ a) : (asU128 a : ℤ) ≤ a := by
  unfold asU128
  omega

theorem asI128_le (n : ℕ) : asI128 n ≤ n := by
  unfold asI128
  split <;> omega

theorem asI128_of_lt {n : ℕ} (h : n < 2 ^ 127) : asI128 n = n := by
  unfold asI128
  rw [if_pos h]

/-! ## Products divided by a divisor -/

/-- `a * b / d` in `u128`, with the quotient cast to `i128`; `none` when the product
overflows or the divisor is zero. -/
def checkedMulDiv (a b d : ℕ) : Option ℤ :=
  if d = 0 then none else (checkedMulU128 a b).map fun n => asI128 (n / d)

theorem checkedMulDiv_eq {a b d : ℕ} {r : ℤ} (h : checkedMulDiv a b d = some r) :
    d ≠ 0 ∧ a * b ≤ u128Max ∧ r = asI128 (a * b / d) := by
  unfold checkedMulDiv checkedMulU128 at h
  split_ifs at h with hd hm
  · exact ⟨hd, hm, by simpa using h.symm⟩
  · simp at h

/-- A quotient by at least two fits the signed word. -/
theorem checkedMulDiv_nonneg {a b d : ℕ} {r : ℤ} (h : checkedMulDiv a b d = some r) (hd : 2 ≤ d) :
    0 ≤ r := by
  obtain ⟨-, hle, rfl⟩ := checkedMulDiv_eq h
  have hquot : a * b / d < 2 ^ 127 := by
    have hhalf : a * b / d ≤ a * b / 2 := Nat.div_le_div_left hd (by norm_num)
    have hmax : a * b / 2 ≤ u128Max / 2 := Nat.div_le_div_right hle
    have hlt : u128Max / 2 < 2 ^ 127 := by norm_num [u128Max]
    omega
  rw [asI128_of_lt hquot]
  exact Int.natCast_nonneg _

end Machine
