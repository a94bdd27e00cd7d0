import Mathlib.Data.List.Induction

/-!
# Chains of digests

Every digest of a chain is taken of the one before it and of one more record. The last digest
tells all records, unless two inputs of the digest collide.
-/

namespace HashChain

variable {D P : Type*} {link : D → P → D} {start : D} {xs ys : List P}

/-- The digest after some records. -/
def head (link : D → P → D) (start : D) (xs : List P) : D := xs.foldl link start

/-- At one place the chains have one digest of two inputs. -/
def CollidesAt (link : D → P → D) (start : D) (xs ys : List P) (i : ℕ) : Prop :=
  ∃ p q, xs[i]? = some p ∧ ys[i]? = some q ∧ (head link start (xs.take i), p) ≠ (head link start (ys.take i), q) ∧
    link (head link start (xs.take i)) p = link (head link start (ys.take i)) q

theorem head_snoc (xs : List P) (p : P) : head link start (xs ++ [p]) = link (head link start xs) p := by
  rw [head, List.foldl_append]
  rfl

theorem CollidesAt.snoc {i : ℕ} {p q : P} (h : CollidesAt link start xs ys i) :
    CollidesAt link start (xs ++ [p]) (ys ++ [q]) i := by
  obtain ⟨a, b, ha, hb, hne, hsame⟩ := h
  have hx := (List.getElem?_eq_some_iff.1 ha).1
  have hy := (List.getElem?_eq_some_iff.1 hb).1
  refine ⟨a, b, ?_, ?_, ?_⟩
  · rwa [List.getElem?_append_left hx]
  · rwa [List.getElem?_append_left hy]
  · rw [List.take_append_of_le_length (Nat.le_of_lt hx), List.take_append_of_le_length (Nat.le_of_lt hy)]
    exact ⟨hne, hsame⟩

/-- Chains of one length with one last digest have the same records, or collide at some place. -/
theorem eq_or_collides (hlen : xs.length = ys.length) (hhead : head link start xs = head link start ys) :
    xs = ys ∨ ∃ i, CollidesAt link start xs ys i := by
  induction xs using List.reverseRecOn generalizing ys with
  | nil => exact .inl (List.length_eq_zero_iff.1 hlen.symm).symm
  | append_singleton xs p ih =>
      cases ys using List.reverseRecOn with
      | nil => simp at hlen
      | append_singleton ys q =>
          rw [head_snoc, head_snoc] at hhead
          have hlen' : xs.length = ys.length := by simpa using hlen
          by_cases hsame : (head link start xs, p) = (head link start ys, q)
          · obtain ⟨hprev, rfl⟩ := Prod.ext_iff.1 hsame
            rcases ih hlen' hprev with heq | ⟨i, hi⟩
            · exact .inl (by rw [heq])
            · exact .inr ⟨i, hi.snoc⟩
          · refine .inr ⟨xs.length, p, q, by simp, by simp [hlen'], ?_⟩
            rw [List.take_left, hlen', List.take_left]
            exact ⟨hsame, hhead⟩

end HashChain
