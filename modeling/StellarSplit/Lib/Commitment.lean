import Mathlib.Algebra.BigOperators.Group.List.Basic
import Mathlib.Algebra.Field.Basic
import Mathlib.Algebra.Module.Basic
import Mathlib.Tactic.Abel

/-!
# Commitments to numbers

A number is hidden in a group element together with a random one. Commitments add up, whoever
opens one in two ways knows how the generators are related, and whoever answers two challenges
on one nonce knows an opening.
-/

namespace Commitment

variable {F G ι : Type*} [Field F] [AddCommGroup G] [Module F G] (g h : G)

/-- The commitment to `v` with the blinding `r`. -/
def commit (v r : F) : G := v • g + r • h

/-- The responses `s` and `u` answer the challenge `e` on the commitment `c` with the nonce `t`. -/
def Accepts (c t : G) (e s u : F) : Prop := s • g + u • h = t + e • c

variable {g h}

theorem commit_add (v r w s : F) : commit g h v r + commit g h w s = commit g h (v + w) (r + s) := by
  unfold commit
  rw [add_smul, add_smul]
  abel

theorem smul_commit (e v r : F) : e • commit g h v r = commit g h (e * v) (e * r) := by
  unfold commit
  rw [smul_add, smul_smul, smul_smul]

theorem sub_commit (v r w s : F) : commit g h v r - commit g h w s = commit g h (v - w) (r - s) := by
  unfold commit
  rw [sub_smul, sub_smul]
  abel

theorem sum_commit (xs : List ι) (v r : ι → F) :
    (xs.map fun i => commit g h (v i) (r i)).sum = commit g h (xs.map v).sum (xs.map r).sum := by
  induction xs with
  | nil => simp [commit]
  | cons i xs ih => simp only [List.map_cons, List.sum_cons, ih, commit_add]

/-- Two openings of one commitment tell how the generators are related. -/
theorem binding {v r w s : F} (hsame : commit g h v r = commit g h w s) (hne : v ≠ w) :
    g = ((s - r) / (v - w)) • h := by
  have hdiff : v - w ≠ 0 := sub_ne_zero.2 hne
  have hzero : (v - w) • g = (s - r) • h := by
    have hsub : commit g h (v - w) (r - s) = 0 := by rw [← sub_commit, hsame, sub_self]
    rw [← neg_sub r s, neg_smul]
    exact eq_neg_of_add_eq_zero_left hsub
  calc g = (v - w)⁻¹ • (v - w) • g := by rw [smul_smul, inv_mul_cancel₀ hdiff, one_smul]
    _ = ((s - r) / (v - w)) • h := by rw [hzero, smul_smul, mul_comm, ← div_eq_mul_inv]

/-- Who knows an opening can answer every challenge. -/
theorem accepts_commit (v r a b e : F) :
    Accepts g h (commit g h v r) (commit g h a b) e (a + e * v) (b + e * r) := by
  rw [Accepts, smul_commit, commit_add]
  rfl

/-- Answers to two challenges on one nonce give an opening. -/
theorem opening_of_accepts {c t : G} {e e' s s' u u' : F} (h₁ : Accepts g h c t e s u) (h₂ : Accepts g h c t e' s' u')
    (hne : e ≠ e') : c = commit g h ((s - s') / (e - e')) ((u - u') / (e - e')) := by
  have hdiff : e - e' ≠ 0 := sub_ne_zero.2 hne
  have hscaled : (e - e') • c = commit g h (s - s') (u - u') := by
    have hs : commit g h s u = t + e • c := h₁
    have hs' : commit g h s' u' = t + e' • c := h₂
    rw [← sub_commit, hs, hs', sub_smul]
    abel
  calc c = (e - e')⁻¹ • (e - e') • c := by rw [smul_smul, inv_mul_cancel₀ hdiff, one_smul]
    _ = commit g h ((s - s') / (e - e')) ((u - u') / (e - e')) := by
      rw [hscaled, smul_commit, div_eq_inv_mul, div_eq_inv_mul]

end Commitment
