import Mathlib.Data.List.Chain
import Mathlib.Data.List.Infix

/-!
# Logs with a bounded length

A log that loses its oldest entries once it is longer than its bound.
-/

namespace Trim

variable {α : Type*} {R : α → α → Prop} {cap : ℕ} {l : List α}

/-- Drop entries from the front while there are more than `cap`. -/
def popFront (cap : ℕ) : List α → List α
  | [] => []
  | a :: l => if cap < (a :: l).length then popFront cap l else a :: l

theorem popFront_suffix (cap : ℕ) (l : List α) : popFront cap l <:+ l := by
  induction l with
  | nil => exact List.suffix_refl _
  | cons a l ih =>
      unfold popFront
      split_ifs
      · exact ih.trans (List.suffix_cons a l)
      · exact List.suffix_refl _

theorem length_popFront (cap : ℕ) (l : List α) : (popFront cap l).length ≤ cap := by
  induction l with
  | nil => exact Nat.zero_le _
  | cons a l ih =>
      unfold popFront
      split_ifs with h
      · exact ih
      · exact not_lt.1 h

theorem getLast?_popFront (hcap : 0 < cap) (l : List α) : (popFront cap l).getLast? = l.getLast? := by
  induction l with
  | nil => rfl
  | cons a l ih =>
      unfold popFront
      split_ifs with h
      · cases l with
        | nil => simp at h; omega
        | cons b l => rw [ih, List.getLast?_cons_cons]
      · rfl

theorem isChain_popFront (h : l.IsChain R) : (popFront cap l).IsChain R :=
  h.suffix (popFront_suffix cap l)

theorem popFront_eq_self (h : l.length ≤ cap) : popFront cap l = l := by
  cases l with
  | nil => rfl
  | cons a l =>
      unfold popFront
      rw [if_neg (not_lt.2 h)]

/-- A log with room left was not cut. -/
theorem popFront_eq_self_of_lt (h : (popFront cap l).length < cap) : popFront cap l = l := by
  induction l with
  | nil => rfl
  | cons a l ih =>
      unfold popFront at h ⊢
      split_ifs at h ⊢ with hlong
      · rw [ih h] at h
        simp only [List.length_cons] at hlong
        omega
      · rfl

/-- One more entry in a log within its bound costs the oldest only if the log was full. -/
theorem popFront_push {a : α} (hcap : 0 < cap) (h : l.length ≤ cap) :
    popFront cap (l ++ [a]) = if l.length < cap then l ++ [a] else l.tail ++ [a] := by
  split_ifs with hroom
  · exact popFront_eq_self (by rw [List.length_append, List.length_singleton]; omega)
  · cases l with
    | nil => exact absurd hcap hroom
    | cons b l =>
        rw [List.length_cons] at h hroom
        rw [List.cons_append, List.tail_cons, popFront, if_pos]
        swap
        · rw [List.length_cons, List.length_append, List.length_singleton]
          omega
        exact popFront_eq_self (by rw [List.length_append, List.length_singleton]; omega)

end Trim
