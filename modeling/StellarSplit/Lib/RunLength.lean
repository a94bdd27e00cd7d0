import Mathlib.Data.List.Basic
import Mathlib.Order.Nat

/-!
# Run-length coding

A list cut into runs of one value, none longer than a cap. The runs expand to the list
again, whatever the cap is.
-/

namespace RunLength

variable {α : Type} [DecidableEq α] {cap run : ℕ} {x : α} {l : List α}

/-- How long a run of a value gets when it goes on into the list. -/
def extend (cap : ℕ) (x : α) : ℕ → List α → ℕ
  | run, [] => run
  | run, y :: ys => if y = x ∧ run < cap then extend cap x (run + 1) ys else run

theorem le_extend : run ≤ extend cap x run l := by
  induction l generalizing run with
  | nil => exact le_rfl
  | cons y ys ih =>
      unfold extend
      split_ifs
      · exact Nat.le_of_succ_le ih
      · exact le_rfl

theorem extend_le (h : run ≤ cap) : extend cap x run l ≤ cap := by
  induction l generalizing run with
  | nil => exact h
  | cons y ys ih =>
      unfold extend
      split_ifs with hgoes
      · exact ih hgoes.2
      · exact h

/-- What the run takes of the list are copies of its value. -/
theorem replicate_extend :
    List.replicate (extend cap x run l - run) x ++ l.drop (extend cap x run l - run) = l := by
  induction l generalizing run with
  | nil => simp [extend]
  | cons y ys ih =>
      unfold extend
      split_ifs with hgoes
      · obtain ⟨rfl, -⟩ := hgoes
        have hstep : extend cap y (run + 1) ys - run = extend cap y (run + 1) ys - (run + 1) + 1 := by
          have : run + 1 ≤ extend cap y (run + 1) ys := le_extend
          omega
        rw [hstep, List.replicate_succ, List.drop_succ_cons, List.cons_append, ih]
      · simp

/-- The runs of a list, from the left. -/
def runs (cap : ℕ) : List α → List (ℕ × α)
  | [] => []
  | x :: xs => (extend cap x 1 xs, x) :: runs cap (xs.drop (extend cap x 1 xs - 1))
termination_by l => l.length
decreasing_by
  rw [List.length_drop, List.length_cons]
  omega

@[simp] theorem runs_nil : runs cap ([] : List α) = [] := by
  rw [runs]

theorem runs_cons (xs : List α) :
    runs cap (x :: xs) = (extend cap x 1 xs, x) :: runs cap (xs.drop (extend cap x 1 xs - 1)) := by
  rw [runs]

omit [DecidableEq α] in
/-- An induction in which a list may rest on every list that a drop leaves of its tail. -/
theorem drop_induction {motive : List α → Prop} (nil : motive [])
    (cons : ∀ x xs, (∀ k, motive (xs.drop k)) → motive (x :: xs)) (l : List α) : motive l := by
  suffices h : ∀ n, ∀ l : List α, l.length ≤ n → motive l from h l.length l le_rfl
  intro n
  induction n with
  | zero =>
      intro l hl
      rw [List.length_eq_zero_iff.1 (Nat.le_zero.1 hl)]
      exact nil
  | succ n ih =>
      intro l hl
      cases l with
      | nil => exact nil
      | cons x xs =>
          refine cons x xs fun k => ih _ ?_
          rw [List.length_drop]
          rw [List.length_cons] at hl
          omega

def expand (rs : List (ℕ × α)) : List α := rs.flatMap fun r => List.replicate r.1 r.2

theorem expand_runs (cap : ℕ) (l : List α) : expand (runs cap l) = l := by
  induction l using drop_induction with
  | nil => simp [expand]
  | cons x xs ih =>
      have hrun : List.replicate (extend cap x 1 xs) x = x :: List.replicate (extend cap x 1 xs - 1) x := by
        have : 1 ≤ extend cap x 1 xs := le_extend
        rw [← List.replicate_succ]
        congr 1
        omega
      rw [runs_cons, expand, List.flatMap_cons]
      change List.replicate (extend cap x 1 xs) x ++ expand (runs cap (xs.drop (extend cap x 1 xs - 1))) = x :: xs
      rw [ih, hrun, List.cons_append, replicate_extend]

theorem length_runs_bounds (hcap : 1 ≤ cap) (l : List α) : ∀ r ∈ runs cap l, 1 ≤ r.1 ∧ r.1 ≤ cap := by
  induction l using drop_induction with
  | nil => simp
  | cons x xs ih =>
      rw [runs_cons]
      exact List.forall_mem_cons.2 ⟨⟨le_extend, extend_le hcap⟩, ih _⟩

end RunLength
