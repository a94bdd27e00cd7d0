import Mathlib.Data.List.Basic
import Mathlib.Data.List.TakeWhile
import Mathlib.Logic.Function.Basic

/-!
# Lists under consecutive numbers

A list kept in a table of numbered places: its first entry stands under `first`, the rest
under the numbers that follow, and every other place is empty.
-/

namespace Numbered

open Function

variable {α : Type*} {table : ℕ → Option α} {first n : ℕ} {l : List α} {a : α}

def Holds (table : ℕ → Option α) (first : ℕ) (l : List α) : Prop :=
  ∀ n, table n = if first ≤ n then l[n - first]? else none

theorem Holds.nil : Holds (fun _ => none : ℕ → Option α) first [] := by
  intro n
  simp

theorem Holds.at (h : Holds table first l) (i : ℕ) : table (first + i) = l[i]? := by
  rw [h, if_pos (Nat.le_add_right _ _), Nat.add_sub_cancel_left]

theorem Holds.isSome_iff (h : Holds table first l) :
    (table n).isSome = true ↔ first ≤ n ∧ n < first + l.length := by
  rw [h]
  split_ifs with hn
  · rw [isSome_getElem?]
    omega
  · simp [hn]

theorem Holds.mem (h : Holds table first l) (hn : table n = some a) :
    ∃ i, n = first + i ∧ l[i]? = some a := by
  rw [h] at hn
  split_ifs at hn with hle
  exact ⟨n - first, by omega, hn⟩

theorem Holds.head (h : Holds table first (a :: l)) : table first = some a := by
  simpa using h.at 0

theorem Holds.unique {table' : ℕ → Option α} (h : Holds table first l) (h' : Holds table' first l) :
    table = table' := by
  funext n
  rw [h, h']

/-- An entry written under the number after the last. -/
theorem Holds.append (h : Holds table first l) :
    Holds (update table (first + l.length) (some a)) first (l ++ [a]) := by
  intro n
  by_cases hn : n = first + l.length
  · subst hn
    rw [update_self, if_pos (by omega), Nat.add_sub_cancel_left]
    simp
  · rw [update_of_ne hn, h]
    split_ifs with hle
    · rcases Nat.lt_or_ge (n - first) l.length with hlt | hge
      · rw [List.getElem?_append_left hlt]
      · rw [List.getElem?_eq_none hge, List.getElem?_eq_none]
        rw [List.length_append, List.length_singleton]
        omega
    · rfl

/-- The first entry taken out: the list starts at the next number. -/
theorem Holds.tail (h : Holds table first (a :: l)) : Holds (update table first none) (first + 1) l := by
  intro n
  by_cases hn : n = first
  · subst hn
    rw [update_self, if_neg (by omega)]
  · rw [update_of_ne hn, h]
    by_cases hle : first + 1 ≤ n
    · rw [if_pos (by omega), if_pos hle, show n - first = (n - (first + 1)) + 1 by omega,
        List.getElem?_cons_succ]
    · rw [if_neg (by omega), if_neg hle]

/-- An entry replaced under its number. -/
theorem Holds.set {i : ℕ} (h : Holds table first l) (hi : i < l.length) :
    Holds (update table (first + i) (some a)) first (l.set i a) := by
  intro n
  by_cases hn : n = first + i
  · subst hn
    rw [update_self, if_pos (Nat.le_add_right _ _), Nat.add_sub_cancel_left, List.getElem?_set_self hi]
  · rw [update_of_ne hn, h]
    split_ifs with hle
    · rw [List.getElem?_set_ne (by omega)]
    · rfl

theorem Holds.of_drop {k : ℕ} (h : Holds table (first + k) (l.drop k)) (hn : first + k ≤ n) :
    table n = l[n - first]? := by
  rw [h, if_pos hn, List.getElem?_drop]
  congr 1
  omega

/-- Reading the places in their order gives the list back. -/
theorem Holds.read (h : Holds table first l) : (List.range' first l.length).filterMap table = l := by
  induction l generalizing table first with
  | nil => rfl
  | cons a l ih =>
      have htail : (List.range' (first + 1) l.length).filterMap table =
          (List.range' (first + 1) l.length).filterMap (update table first none) := by
        apply List.filterMap_congr
        intro n hn
        have hlt : first + 1 ≤ n := (List.mem_range'_1.1 hn).1
        rw [update_of_ne (by omega)]
      rw [List.length_cons, List.range'_succ, List.filterMap_cons_some h.head, htail, ih h.tail]

/-- Reading some places in their order gives a part of the list. -/
theorem Holds.page (h : Holds table first l) {i : ℕ} (hn : i + n ≤ l.length) :
    (List.range' (first + i) n).filterMap table = (l.drop i).take n := by
  induction n generalizing i with
  | zero => rfl
  | succ n ih =>
      have hi : i < l.length := by omega
      have hread : table (first + i) = some l[i] := (h.at i).trans (List.getElem?_eq_getElem hi)
      rw [List.range'_succ, List.filterMap_cons_some hread, List.drop_eq_getElem_cons hi, List.take_succ_cons,
        Nat.add_assoc, ih (by omega)]

end Numbered

section Ascending

variable {α : Type*} {f : α → ℕ} {c : ℕ} {l : List α}

/-- In a list in ascending order, the entries below a bound come first. -/
theorem List.takeWhile_lt_eq_filter (h : l.Pairwise fun a b => f a ≤ f b) :
    l.takeWhile (fun a => decide (f a < c)) = l.filter fun a => decide (f a < c) := by
  induction l with
  | nil => rfl
  | cons a l ih =>
      obtain ⟨hfirst, hrest⟩ := List.pairwise_cons.1 h
      by_cases ha : f a < c
      · rw [List.takeWhile_cons_of_pos (by simpa using ha), List.filter_cons_of_pos (by simpa using ha),
          ih hrest]
      · rw [List.takeWhile_cons_of_neg (by simpa using ha), eq_comm, List.filter_eq_nil_iff]
        intro b hb
        rcases List.mem_cons.1 hb with rfl | hb
        · simpa using ha
        · simpa using (Nat.le_of_not_lt ha).trans (hfirst b hb)

theorem List.dropWhile_lt_eq_filter (h : l.Pairwise fun a b => f a ≤ f b) :
    l.dropWhile (fun a => decide (f a < c)) = l.filter fun a => decide (c ≤ f a) := by
  induction l with
  | nil => rfl
  | cons a l ih =>
      obtain ⟨hfirst, hrest⟩ := List.pairwise_cons.1 h
      by_cases ha : f a < c
      · rw [List.dropWhile_cons_of_pos (by simpa using ha), List.filter_cons_of_neg (by simpa using ha),
          ih hrest]
      · rw [List.dropWhile_cons_of_neg (by simpa using ha), List.filter_eq_self.2]
        intro b hb
        rcases List.mem_cons.1 hb with rfl | hb
        · simpa using ha
        · simpa using (Nat.le_of_not_lt ha).trans (hfirst b hb)

end Ascending
