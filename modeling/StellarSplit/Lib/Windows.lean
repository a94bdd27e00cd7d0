import Mathlib.Algebra.BigOperators.Group.List.Basic
import Mathlib.Algebra.Order.BigOperators.Group.List
import Mathlib.Data.Finset.Max
import Mathlib.Data.List.Basic
import Mathlib.Tactic.Linarith

/-!
# Counting windows

Events carry a time, the start of the window they are counted in and a weight.
When the windows do not overlap and the weight counted in each of them is
bounded, an interval as long as a window meets at most two of them.
-/

namespace Windows

variable {α : Type*} {time start : α → ℕ} {weight : α → ℤ} {W : ℕ} {M : ℤ} {l : List α}

theorem forall_mem_snoc {p : α → Prop} {a : α} (hl : ∀ b ∈ l, p b) (ha : p a) : ∀ b ∈ l ++ [a], p b :=
  List.forall_mem_append.2 ⟨hl, List.forall_mem_singleton.2 ha⟩

/-- Events with one more are split at the new one, or before it. -/
theorem snoc_eq_append_cons {a d : α} {earlier later : List α} (h : l ++ [a] = earlier ++ d :: later) :
    (later = [] ∧ d = a) ∨ ∃ rest, later = rest ++ [a] ∧ l = earlier ++ d :: rest := by
  rcases later.eq_nil_or_concat' with rfl | ⟨rest, b, rfl⟩
  · obtain ⟨-, hlast⟩ := List.append_inj' h rfl
    exact .inl ⟨rfl, (List.singleton_inj.1 hlast).symm⟩
  · rw [← List.cons_append, ← List.append_assoc] at h
    obtain ⟨hfront, hlast⟩ := List.append_inj' h rfl
    exact .inr ⟨rest, by rw [List.singleton_inj.1 hlast], hfront⟩

/-- The weight of the events that satisfy a condition. -/
def weightOf (weight : α → ℤ) (l : List α) (p : α → Prop) [DecidablePred p] : ℤ :=
  ((l.filter fun a => p a).map weight).sum

section Weight

variable {p q r : α → Prop} [DecidablePred p] [DecidablePred q] [DecidablePred r]

@[simp] theorem weightOf_nil : weightOf weight [] p = 0 := rfl

theorem weightOf_cons (a : α) :
    weightOf weight (a :: l) p = (if p a then weight a else 0) + weightOf weight l p := by
  unfold weightOf
  by_cases h : p a <;> simp [h]

theorem weightOf_append (l m : List α) :
    weightOf weight (l ++ m) p = weightOf weight l p + weightOf weight m p := by
  simp [weightOf]

theorem weightOf_eq_zero (h : ∀ a ∈ l, ¬p a) : weightOf weight l p = 0 := by
  have hnil : (l.filter fun a => p a) = [] := by
    rw [List.filter_eq_nil_iff]
    intro a ha
    simpa using h a ha
  simp [weightOf, hnil]

theorem weightOf_one : weightOf (fun _ => 1) l p = ((l.filter fun a => p a).length : ℤ) := by
  simp [weightOf]

theorem weightOf_congr (h : ∀ a ∈ l, p a ↔ q a) : weightOf weight l p = weightOf weight l q := by
  unfold weightOf
  congr 2
  apply List.filter_congr
  intro a ha
  simpa using h a ha

theorem weightOf_snoc (a : α) :
    weightOf weight (l ++ [a]) p = weightOf weight l p + if p a then weight a else 0 := by
  rw [weightOf_append, weightOf_cons, weightOf_nil, add_zero]

/-- The events of one kind among those of another, counted. -/
theorem weightOf_indicator :
    weightOf (fun a => if q a then 1 else 0) l p = ((l.filter fun a => q a ∧ p a).length : ℤ) := by
  induction l with
  | nil => rfl
  | cons a l ih =>
      rw [weightOf_cons, ih]
      by_cases hp : p a <;> by_cases hq : q a <;> simp [hp, hq, add_comm]

/-- Events of one kind that are each of one of two other kinds. -/
theorem weightOf_le_add (hweight : ∀ a ∈ l, 0 ≤ weight a) (h : ∀ a ∈ l, p a → q a ∨ r a) :
    weightOf weight l p ≤ weightOf weight l q + weightOf weight l r := by
  induction l with
  | nil => simp
  | cons a l ih =>
      have hrest := ih (fun b hb => hweight b (List.mem_cons_of_mem a hb))
        fun b hb => h b (List.mem_cons_of_mem a hb)
      have ha : 0 ≤ weight a := hweight a List.mem_cons_self
      have hone := h a List.mem_cons_self
      rw [weightOf_cons, weightOf_cons, weightOf_cons]
      split_ifs with hp hq hr hr <;> first | linarith | tauto

theorem weightOf_mono (hweight : ∀ a ∈ l, 0 ≤ weight a) (h : ∀ a ∈ l, p a → q a) :
    weightOf weight l p ≤ weightOf weight l q := by
  have hsum := weightOf_le_add (r := fun _ => False) hweight fun a ha hp => .inl (h a ha hp)
  rwa [weightOf_eq_zero fun _ _ hfalse => hfalse, add_zero] at hsum

end Weight

/-- A limit on each window is kept when it is kept on the window of the new event. -/
theorem weightOf_snoc_le {a : α} (hl : ∀ u, weightOf weight l (fun b => start b = u) ≤ M)
    (hnew : weightOf weight l (fun b => start b = start a) + weight a ≤ M) (u : ℕ) :
    weightOf weight (l ++ [a]) (fun b => start b = u) ≤ M := by
  rw [weightOf_snoc]
  split
  · rename_i hu
    rwa [← hu]
  · rw [add_zero]
    exact hl u

/-- Windows of at least one length that do not overlap: what is counted in one comes before the
next starts. -/
structure Spread (time start : α → ℕ) (W : ℕ) (l : List α) : Prop where
  start_le : ∀ a ∈ l, start a ≤ time a
  before : ∀ a ∈ l, ∀ b ∈ l, start a < start b → time a < start b
  apart : ∀ a ∈ l, ∀ b ∈ l, start a < start b → start a + W ≤ start b

namespace Spread

/-- The events of a closed interval of one window length start in at most two windows. -/
theorem two_starts (h : Spread time start W l) (t : ℕ) :
    ∃ u v, ∀ a ∈ l, t ≤ time a ∧ time a ≤ t + W → start a = u ∨ start a = v := by
  by_cases hne : ((l.filter fun a => t ≤ time a ∧ time a ≤ t + W).map start).toFinset.Nonempty
  · refine ⟨Finset.min' _ hne, Finset.max' _ hne, fun c hc hin => ?_⟩
    obtain ⟨a, ha, hau⟩ := List.mem_map.1 (List.mem_toFinset.1 (Finset.min'_mem _ hne))
    obtain ⟨b, hb, hbv⟩ := List.mem_map.1 (List.mem_toFinset.1 (Finset.max'_mem _ hne))
    simp only [List.mem_filter, decide_eq_true_eq] at ha hb
    have hmem : start c ∈ ((l.filter fun a => t ≤ time a ∧ time a ≤ t + W).map start).toFinset := by
      simp only [List.mem_toFinset, List.mem_map, List.mem_filter, decide_eq_true_eq]
      exact ⟨c, ⟨hc, hin⟩, rfl⟩
    have hac := Finset.min'_le _ _ hmem
    have hcb := Finset.le_max' _ _ hmem
    rw [← hau] at hac ⊢
    rw [← hbv] at hcb ⊢
    -- A third window between the two would put more than `W` between their events.
    by_contra hthird
    rw [not_or] at hthird
    have hfirst := h.before a ha.1 c hc (lt_of_le_of_ne hac (Ne.symm hthird.1))
    have hsecond := h.apart c hc b hb.1 (lt_of_le_of_ne hcb hthird.2)
    have hb₁ := h.start_le b hb.1
    omega
  · refine ⟨0, 0, fun a ha hin => (hne ?_).elim⟩
    refine ⟨start a, ?_⟩
    simp only [List.mem_toFinset, List.mem_map, List.mem_filter, decide_eq_true_eq]
    exact ⟨a, ⟨ha, hin⟩, rfl⟩

theorem weight_between (h : Spread time start W l) (hweight : ∀ a ∈ l, 0 ≤ weight a)
    (hgroup : ∀ u, weightOf weight l (fun b => start b = u) ≤ M) (t : ℕ) :
    weightOf weight l (fun b => t ≤ time b ∧ time b ≤ t + W) ≤ 2 * M := by
  obtain ⟨u, v, huv⟩ := h.two_starts t
  have htwo := weightOf_le_add hweight huv
  have hu := hgroup u
  have hv := hgroup v
  linarith

/-- What happens between a window's start and the next one is counted in that window. -/
theorem start_eq (h : Spread time start W l) {u v : ℕ} {a b : α} (ha : a ∈ l) (hau : start a = u)
    (hgap : ∀ c ∈ l, start c ≤ u ∨ v ≤ start c) (hb : b ∈ l) (hle : u ≤ time b) (hlt : time b < v) :
    start b = u := by
  subst hau
  have hbstart := h.start_le b hb
  rcases hgap b hb with hlow | hhigh
  · rcases Nat.lt_or_eq_of_le hlow with hearly | heq
    · have hend := h.before b hb a ha hearly
      omega
    · exact heq
  · omega

theorem snoc {a : α} (h : Spread time start W l) (hle : start a ≤ time a)
    (hlast : ∀ b ∈ l, start b ≤ start a) (hbefore : ∀ b ∈ l, start b < start a → time b < start a)
    (hapart : ∀ b ∈ l, start b < start a → start b + W ≤ start a) : Spread time start W (l ++ [a]) := by
  refine ⟨?_, ?_, ?_⟩
  · exact List.forall_mem_append.2 ⟨h.start_le, List.forall_mem_singleton.2 hle⟩
  · refine List.forall_mem_append.2 ⟨fun b hb => ?_, List.forall_mem_singleton.2 ?_⟩
    · exact List.forall_mem_append.2 ⟨h.before b hb, List.forall_mem_singleton.2 (hbefore b hb)⟩
    · refine List.forall_mem_append.2 ⟨fun b hb hlt => ?_, List.forall_mem_singleton.2 fun hlt => ?_⟩
      · exact absurd (hlast b hb) (Nat.not_le_of_lt hlt)
      · exact absurd hlt (lt_irrefl _)
  · refine List.forall_mem_append.2 ⟨fun b hb => ?_, List.forall_mem_singleton.2 ?_⟩
    · exact List.forall_mem_append.2 ⟨h.apart b hb, List.forall_mem_singleton.2 (hapart b hb)⟩
    · refine List.forall_mem_append.2 ⟨fun b hb hlt => ?_, List.forall_mem_singleton.2 fun hlt => ?_⟩
      · exact absurd (hlast b hb) (Nat.not_le_of_lt hlt)
      · exact absurd hlt (lt_irrefl _)

end Spread

/-- Windows of one length that do not overlap, with each event inside its own. -/
structure Separate (time start : α → ℕ) (W : ℕ) (l : List α) : Prop where
  start_le : ∀ a ∈ l, start a ≤ time a
  time_lt : ∀ a ∈ l, time a < start a + W
  apart : ∀ a ∈ l, ∀ b ∈ l, start a < start b → start a + W ≤ start b

namespace Separate

theorem spread (h : Separate time start W l) : Spread time start W l where
  start_le := h.start_le
  before a ha b hb hlt := lt_of_lt_of_le (h.time_lt a ha) (h.apart a ha b hb hlt)
  apart := h.apart

/-- An event is counted in the window its time lies in. -/
theorem start_eq (h : Separate time start W l) {a b : α} (ha : a ∈ l) (hb : b ∈ l)
    (hle : start a ≤ time b) (hlt : time b < start a + W) : start b = start a := by
  have hb₁ := h.start_le b hb
  have hb₂ := h.time_lt b hb
  rcases Nat.lt_trichotomy (start a) (start b) with hab | hab | hab
  · have := h.apart a ha b hb hab
    omega
  · exact hab.symm
  · have := h.apart b hb a ha hab
    omega

theorem weight_within (h : Separate time start W l)
    (hgroup : ∀ u, weightOf weight l (fun b => start b = u) ≤ M) {a : α} (ha : a ∈ l) :
    weightOf weight l (fun b => start a ≤ time b ∧ time b < start a + W) ≤ M := by
  have hsame : ∀ b ∈ l, start a ≤ time b ∧ time b < start a + W ↔ start b = start a := by
    intro b hb
    constructor
    · rintro ⟨hle, hlt⟩
      exact h.start_eq ha hb hle hlt
    · intro hab
      exact ⟨hab ▸ h.start_le b hb, hab ▸ h.time_lt b hb⟩
  rw [weightOf_congr hsame]
  exact hgroup (start a)

end Separate

end Windows
