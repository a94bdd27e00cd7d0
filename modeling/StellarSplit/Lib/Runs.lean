import Mathlib.Data.List.Induction
import StellarSplit.Lib.Call

/-!
# Runs and what came before

A run taken apart where one list of calls ends and the next begins, and the rule
for statements about the calls made so far together with the state they lead to.
-/

namespace Exec

variable {σ ε α ι : Type} {step : ι → Call σ ε α} {ok : σ → ι → Prop} {s : σ}

theorem runAll_append (step : ι → Call σ ε α) (s : σ) (xs ys : List ι) :
    runAll step s (xs ++ ys) = runAll step (runAll step s xs) ys := List.foldl_append

theorem runAll_snoc (step : ι → Call σ ε α) (s : σ) (xs : List ι) (i : ι) :
    runAll step s (xs ++ [i]) = commit (step i) (runAll step s xs) := runAll_append step s xs [i]

theorem along_append {xs ys : List ι} :
    Along ok step s (xs ++ ys) ↔ Along ok step s xs ∧ Along ok step (runAll step s xs) ys := by
  induction xs generalizing s with
  | nil => simp [Along]
  | cons i xs ih => simp [Along, ih, and_assoc]

theorem along_snoc {xs : List ι} {i : ι} :
    Along ok step s (xs ++ [i]) ↔
      Along ok step s xs ∧ ((∃ r, step i (runAll step s xs) = .ok r) → ok (runAll step s xs) i) := by
  rw [along_append]
  simp [Along]

/-- Every call of the run is allowed exactly if each is allowed in the state that the calls before
it lead to. -/
theorem along_iff {xs : List ι} :
    Along ok step s xs ↔ ∀ ys i, ys ++ [i] <+: xs →
      (∃ r, step i (runAll step s ys) = .ok r) → ok (runAll step s ys) i := by
  constructor
  · rintro h ys i ⟨zs, rfl⟩
    exact (along_snoc.1 (along_append.1 h).1).2
  · induction xs using List.reverseRecOn with
    | nil => exact fun _ => trivial
    | append_singleton xs i ih =>
        intro h
        refine along_snoc.2 ⟨ih fun ys j hys => h ys j (hys.trans (List.prefix_append _ _)), ?_⟩
        exact h xs i (List.prefix_refl _)

theorem Along.of_isPrefix {xs ys : List ι} (h : Along ok step s xs) (hys : ys <+: xs) :
    Along ok step s ys := by
  obtain ⟨zs, rfl⟩ := hys
  exact (along_append.1 h).1

/-- A statement about the calls so far and the state: it survives each allowed call that returns
and each call that traps. -/
theorem runAll_history {H : List ι → σ → Prop} (hnil : H [] s)
    (hstep : ∀ xs i a t, H xs (runAll step s xs) → ok (runAll step s xs) i →
      step i (runAll step s xs) = .ok (a, t) → H (xs ++ [i]) t)
    (htrap : ∀ xs i e, H xs (runAll step s xs) → step i (runAll step s xs) = .error e →
      H (xs ++ [i]) (runAll step s xs))
    {xs : List ι} (hxs : Along ok step s xs) : H xs (runAll step s xs) := by
  induction xs using List.reverseRecOn with
  | nil => exact hnil
  | append_singleton xs i ih =>
      obtain ⟨hrest, hlast⟩ := along_snoc.1 hxs
      rw [runAll_snoc]
      rcases commit_cases (step i) (runAll step s xs) with ⟨a, h⟩ | ⟨⟨e, h⟩, hsame⟩
      · exact hstep xs i a _ (ih hrest) (hlast ⟨_, h⟩) h
      · rw [hsame]
        exact htrap xs i e (ih hrest) h

/-! ## Runs in the order of time -/

/-- An invariant that knows the time, and survives its passing, holds at any time after the last call. -/
theorem runAll_clocked {time : ι → ℕ} {I : ℕ → σ → Prop} (hwait : ∀ m n s, m ≤ n → I m s → I n s)
    (hstep : ∀ s i a t, I (time i) s → step i s = .ok (a, t) → I (time i) t) {m now : ℕ} (hs : I m s)
    {xs : List ι} (hordered : xs.Pairwise fun i j => time i ≤ time j) (hfrom : ∀ i ∈ xs, m ≤ time i)
    (huntil : ∀ i ∈ xs, time i ≤ now) (hle : m ≤ now) : I now (runAll step s xs) := by
  induction xs generalizing s m with
  | nil => exact hwait m now s hle hs
  | cons i xs ih =>
      obtain ⟨hafter, hrest⟩ := List.pairwise_cons.1 hordered
      have hi : I (time i) s := hwait m (time i) s (hfrom i (by simp)) hs
      have hnext : I (time i) (commit (step i) s) := by
        rcases commit_cases (step i) s with ⟨a, h⟩ | ⟨-, hsame⟩
        · exact hstep s i a _ hi h
        · rwa [hsame]
      exact ih hnext hrest hafter (fun j hj => huntil j (List.mem_cons_of_mem i hj)) (huntil i (by simp))

/-- What calls in an order find: each call that returns leaves it for the calls that come after. -/
theorem along_ordered {before : ι → ι → Prop}
    (hstep : ∀ s i a t j, ok s j → before i j → step i s = .ok (a, t) → ok t j) {xs : List ι}
    (hordered : xs.Pairwise before) (hs : ∀ i ∈ xs, ok s i) : Along ok step s xs := by
  induction xs generalizing s with
  | nil => trivial
  | cons i xs ih =>
      obtain ⟨hafter, hrest⟩ := List.pairwise_cons.1 hordered
      refine ⟨fun _ => hs i List.mem_cons_self, ih hrest fun j hj => ?_⟩
      have hj' : ok s j := hs j (List.mem_cons_of_mem i hj)
      rcases commit_cases (step i) s with ⟨a, h⟩ | ⟨-, hsame⟩
      · exact hstep s i a _ j hj' (hafter j hj) h
      · rwa [hsame]

/-- Some time is not before any call. -/
theorem exists_latest (time : ι → ℕ) (m : ℕ) (xs : List ι) : ∃ now, m ≤ now ∧ ∀ i ∈ xs, time i ≤ now := by
  induction xs with
  | nil => exact ⟨m, le_rfl, by simp⟩
  | cons i xs ih =>
      obtain ⟨now, hle, hnow⟩ := ih
      refine ⟨max (time i) now, hle.trans (le_max_right _ _), fun j hj => ?_⟩
      rcases List.mem_cons.1 hj with rfl | hj
      · exact le_max_left _ _
      · exact (hnow j hj).trans (le_max_right _ _)

/-! ## What a run returned -/

/-- The calls of a run that return, each with its value, in their order. -/
def returned (step : ι → Call σ ε α) : σ → List ι → List (ι × α)
  | _, [] => []
  | s, i :: xs =>
      match step i s with
      | .ok (a, t) => (i, a) :: returned step t xs
      | .error _ => returned step s xs

theorem returned_cons_ok {i : ι} {xs : List ι} {a : α} {t : σ} (h : step i s = .ok (a, t)) :
    returned step s (i :: xs) = (i, a) :: returned step t xs := by
  rw [returned, h]

theorem returned_cons_error {i : ι} {xs : List ι} {e : ε} (h : step i s = .error e) :
    returned step s (i :: xs) = returned step s xs := by
  rw [returned, h]

theorem returned_append (xs ys : List ι) :
    returned step s (xs ++ ys) = returned step s xs ++ returned step (runAll step s xs) ys := by
  induction xs generalizing s with
  | nil => rfl
  | cons i xs ih =>
      rw [List.cons_append, runAll_cons]
      rcases hi : step i s with e | ⟨a, t⟩
      · rw [returned_cons_error hi, returned_cons_error hi, commit_error hi, ih]
      · rw [returned_cons_ok hi, returned_cons_ok hi, commit_ok hi, ih, List.cons_append]

/-- A statement about what the calls so far returned and the state: it survives each allowed call
that returns. -/
theorem runAll_returned {H : List (ι × α) → σ → Prop} (hnil : H [] s)
    (hstep : ∀ rs t i a u, H rs t → ok t i → step i t = .ok (a, u) → H (rs ++ [(i, a)]) u)
    {xs : List ι} (hxs : Along ok step s xs) : H (returned step s xs) (runAll step s xs) := by
  induction xs using List.reverseRecOn with
  | nil => exact hnil
  | append_singleton xs i ih =>
      obtain ⟨hrest, hlast⟩ := along_snoc.1 hxs
      rw [runAll_snoc, returned_append]
      rcases hi : step i (runAll step s xs) with e | ⟨a, t⟩
      · rw [returned_cons_error hi, commit_error hi, returned, List.append_nil]
        exact ih hrest
      · rw [returned_cons_ok hi, commit_ok hi, returned]
        exact hstep _ _ i a t (ih hrest) (hlast ⟨_, hi⟩) hi

/-! ## Notes -/

section Notes

variable {ν : Type} {next : ν → σ → σ → ν} {x : Call σ ε α} {t : σ} {n : ν}

theorem commit_beside_ok {a : α} (h : x s = .ok (a, t)) :
    commit (beside next x) (s, n) = (t, next n s t) := commit_ok (beside_ok.2 ⟨h, rfl⟩)

theorem commit_beside_error {e : ε} (h : x s = .error e) : commit (beside next x) (s, n) = (s, n) := by
  have hbeside : beside next x (s, n) = .error e := by
    unfold beside
    rw [h]
  exact commit_error hbeside

end Notes

/-! ## Calls on a part of the state -/

section Parts

variable {τ : Type}

/-- A call on the part of a larger state that `get` shows and `put` replaces. -/
def focus (get : τ → σ) (put : τ → σ → τ) (x : Call σ ε α) : Call τ ε α := fun s =>
  match x (get s) with
  | .ok (a, u) => .ok (a, put s u)
  | .error e => .error e

@[simp] theorem focus_ok {get : τ → σ} {put : τ → σ → τ} {x : Call σ ε α} {s t : τ} {a : α} :
    focus get put x s = .ok (a, t) ↔ ∃ u, x (get s) = .ok (a, u) ∧ put s u = t := by
  unfold focus
  cases x (get s) with
  | error e => simp
  | ok r =>
      obtain ⟨b, u⟩ := r
      simp only [Except.ok.injEq, Prod.mk.injEq]
      constructor
      · rintro ⟨rfl, rfl⟩
        exact ⟨u, ⟨rfl, rfl⟩, rfl⟩
      · rintro ⟨w, ⟨rfl, rfl⟩, rfl⟩
        exact ⟨rfl, rfl⟩

theorem focus_bind {β : Type} {get : τ → σ} {put : τ → σ → τ} {x : Call σ ε α} {k : α → Call τ ε β} {s : τ}
    {r : β × τ} :
    (focus get put x >>= k) s = .ok r ↔ ∃ a u, x (get s) = .ok (a, u) ∧ k a (put s u) = .ok r := by
  simp only [bind_ok, focus_ok]
  constructor
  · rintro ⟨a, _, ⟨u, hx, rfl⟩, h⟩
    exact ⟨a, u, hx, h⟩
  · rintro ⟨a, u, hx, h⟩
    exact ⟨a, _, ⟨u, hx, rfl⟩, h⟩

end Parts

end Exec
