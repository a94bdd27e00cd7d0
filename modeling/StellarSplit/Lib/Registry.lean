import Mathlib.Logic.Function.Basic

/-!
# Records and an index of the open ones

Records are stored by their numbers. What a lookup finds after a write; and an index that finds the open
record of a key: a new open record enters it, a record that is written anew stays where it is, and one
that closes leaves it.
-/

namespace Registry

open Function

variable {ι κ ρ : Type*} {key : ρ → κ} {isOpen : ρ → Prop} {records : ι → Option ρ} {index : κ → Option ι}
  {i j : ι} {r r' : ρ}

section Lookup

variable [DecidableEq ι] {P : ι → ρ → Prop}

/-- A lookup after a write finds what was written, or elsewhere what was there. -/
theorem update_cases (h : update records i (some r) j = some r') :
    (j = i ∧ r' = r) ∨ (j ≠ i ∧ records j = some r') := by
  rcases eq_or_ne j i with rfl | hj
  · rw [update_self] at h
    exact .inl ⟨rfl, (Option.some.inj h).symm⟩
  · rw [update_of_ne hj] at h
    exact .inr ⟨hj, h⟩

/-- What holds of every record holds after the write of one of which it holds. -/
theorem forall_update (h : ∀ j r', records j = some r' → P j r') (hr : P i r) :
    ∀ j r', update records i (some r) j = some r' → P j r' := by
  intro j r' hr'
  rcases update_cases hr' with ⟨rfl, rfl⟩ | ⟨-, hold⟩
  · exact hr
  · exact h j r' hold

end Lookup

/-- The index finds exactly the open records, each by its key. -/
def Indexes (key : ρ → κ) (isOpen : ρ → Prop) (records : ι → Option ρ) (index : κ → Option ι) : Prop :=
  ∀ k i, index k = some i ↔ ∃ r, records i = some r ∧ key r = k ∧ isOpen r

namespace Indexes

theorem find (h : Indexes key isOpen records index) (hr : records i = some r) (hopen : isOpen r) :
    index (key r) = some i := (h _ _).2 ⟨r, hr, rfl, hopen⟩

/-- A key has one open record. -/
theorem unique (h : Indexes key isOpen records index) (hr : records i = some r) (hopen : isOpen r)
    (hr' : records j = some r') (hopen' : isOpen r') (hkey : key r' = key r) : i = j := by
  have hj := h.find hr' hopen'
  rw [hkey, h.find hr hopen] at hj
  exact Option.some.inj hj

variable [DecidableEq ι]

theorem rewrite (h : Indexes key isOpen records index) (hr : records i = some r) (hkey : key r' = key r)
    (hopen : isOpen r' ↔ isOpen r) : Indexes key isOpen (update records i (some r')) index := by
  intro k j
  rw [h]
  rcases eq_or_ne j i with rfl | hj
  · simp [hr, hkey, hopen]
  · rw [update_of_ne hj]

variable [DecidableEq κ]

theorem insert (h : Indexes key isOpen records index) (hfresh : records i = none) (hfree : index (key r) = none)
    (hopen : isOpen r) : Indexes key isOpen (update records i (some r)) (update index (key r) (some i)) := by
  intro k j
  rcases eq_or_ne k (key r) with rfl | hk
  · rw [update_self]
    constructor
    · rintro ⟨⟩
      exact ⟨r, update_self .., rfl, hopen⟩
    · rintro ⟨r', hr', hkey, hopen'⟩
      rcases eq_or_ne j i with rfl | hj
      · rfl
      · rw [update_of_ne hj] at hr'
        have hfound := h.find hr' hopen'
        rw [hkey, hfree] at hfound
        cases hfound
  · rw [update_of_ne hk, h]
    refine exists_congr fun r' => and_congr_left fun ⟨hkey, _⟩ => ?_
    rcases eq_or_ne j i with rfl | hj
    · rw [update_self, hfresh]
      refine ⟨nofun, fun hr' => ?_⟩
      rw [← hkey, Option.some.inj hr'] at hk
      exact absurd rfl hk
    · rw [update_of_ne hj]

theorem close (h : Indexes key isOpen records index) (hr : records i = some r) (hopen : isOpen r)
    (hclosed : ¬isOpen r') : Indexes key isOpen (update records i (some r')) (update index (key r) none) := by
  intro k j
  rcases eq_or_ne j i with rfl | hj
  · have hnone : update index (key r) none k ≠ some j := by
      intro hfound
      rcases eq_or_ne k (key r) with rfl | hk
      · rw [update_self] at hfound
        cases hfound
      · rw [update_of_ne hk] at hfound
        obtain ⟨r₁, hr₁, hkey, -⟩ := (h k j).1 hfound
        rw [← hkey, Option.some.inj (hr.symm.trans hr₁)] at hk
        exact hk rfl
    refine ⟨fun hfound => absurd hfound hnone, ?_⟩
    rintro ⟨r₁, hr₁, -, hopen₁⟩
    rw [update_self] at hr₁
    rw [Option.some.inj hr₁] at hclosed
    exact absurd hopen₁ hclosed
  · rw [update_of_ne hj]
    rcases eq_or_ne k (key r) with rfl | hk
    · rw [update_self]
      refine ⟨nofun, ?_⟩
      rintro ⟨r₁, hr₁, hkey, hopen₁⟩
      exact absurd (h.unique hr hopen hr₁ hopen₁ hkey).symm hj
    · rw [update_of_ne hk]
      exact h k j

end Indexes

end Registry
