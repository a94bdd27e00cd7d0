import Mathlib.Data.List.Basic
import Mathlib.Data.List.Sublists

/-!
# Sliding windows

Events are admitted one by one. An event is admitted when fewer than `m` of the
events before it are less than `w` old; then no interval of length `w` holds more
than `m` events. A limiter does not have to keep every event for that, as long as
it keeps those that still count.
-/

namespace Sliding

variable {w m now : ℕ} {l kept : List ℕ}

/-- The events that still count at a time. -/
def counting (w now : ℕ) (l : List ℕ) : List ℕ := l.filter fun a => now < a + w

/-- Events each of which found fewer than `m` events before it that still counted. -/
inductive Admitted (w m : ℕ) : List ℕ → Prop where
  | nil : Admitted w m []
  | snoc {l : List ℕ} {a : ℕ} (h : Admitted w m l) (hroom : (counting w a l).length < m) :
      Admitted w m (l ++ [a])

/-- The last event of an interval of length `w` found the others of it still counting. -/
theorem Admitted.interval (h : Admitted w m l) (t : ℕ) :
    (l.filter fun a => t ≤ a ∧ a < t + w).length ≤ m := by
  induction h with
  | nil => exact Nat.zero_le _
  | @snoc l a _ hroom ih =>
      rw [List.filter_append, List.length_append]
      by_cases ha : t ≤ a ∧ a < t + w
      · have hsub : (l.filter fun b => t ≤ b ∧ b < t + w).length ≤ (counting w a l).length := by
          refine (List.monotone_filter_right l fun b hb => ?_).length_le
          simp only [decide_eq_true_eq] at hb ⊢
          omega
        rw [List.filter_cons_of_pos (by simpa using ha), List.filter_nil, List.length_singleton]
        omega
      · rw [List.filter_cons_of_neg (by simpa using ha), List.filter_nil, List.length_nil]
        exact ih

/-- A list that has kept every event that can still count. -/
def Remembers (w : ℕ) (kept l : List ℕ) : Prop :=
  ∀ now, (∀ a ∈ l, a ≤ now) → counting w now kept = counting w now l

theorem remembers_nil (w : ℕ) : Remembers w [] [] := fun _ _ => rfl

/-- An event that does not count any more never counts again. -/
theorem counting_counting {later : ℕ} (hle : now ≤ later) (l : List ℕ) :
    counting w later (counting w now l) = counting w later l := by
  unfold counting
  rw [List.filter_filter]
  refine List.filter_congr fun a _ => ?_
  by_cases ha : later < a + w
  · simp [ha, hle.trans_lt ha]
  · simp [ha]

/-- The list may drop what does not count any more when it takes the next event. -/
theorem Remembers.snoc (h : Remembers w kept l) (hlast : ∀ a ∈ l, a ≤ now) :
    Remembers w (counting w now kept ++ [now]) (l ++ [now]) := by
  intro later hlater
  have hle : now ≤ later := hlater now (by simp)
  have hold : counting w later kept = counting w later l := h later fun a ha => (hlast a ha).trans hle
  have happend : ∀ l' : List ℕ, counting w later (l' ++ [now]) = counting w later l' ++ counting w later [now] :=
    fun l' => List.filter_append l' [now]
  rw [happend, happend, counting_counting hle, hold]

end Sliding
