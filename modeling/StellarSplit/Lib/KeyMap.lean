import Mathlib.Algebra.BigOperators.Group.List.Basic
import Mathlib.Algebra.Order.BigOperators.Group.List
import Mathlib.Algebra.Ring.Int.Defs
import Mathlib.Data.List.Basic

/-!
# Finite maps in ascending key order

The host's maps iterate in ascending key order and hold one value for a
key. A `KeyMap` is the list of its entries together with the proof that
the keys ascend strictly. Integer-valued maps have a `total`, and the
operations change it by the value they replace.
-/

/-- A finite map from natural-number keys, as its entries in ascending order. -/
structure KeyMap (β : Type) where
  entries : List (ℕ × β)
  sorted : entries.Pairwise fun a b => a.1 < b.1

namespace KeyMap

variable {β : Type}

/-! ## Entry lists -/

def lookupIn (k : ℕ) : List (ℕ × β) → Option β
  | [] => none
  | (j, v) :: l => if j = k then some v else lookupIn k l

def setIn (k : ℕ) (v : β) : List (ℕ × β) → List (ℕ × β)
  | [] => [(k, v)]
  | (j, w) :: l =>
      if k < j then (k, v) :: (j, w) :: l
      else if j = k then (k, v) :: l
      else (j, w) :: setIn k v l

def eraseIn (k : ℕ) (l : List (ℕ × β)) : List (ℕ × β) :=
  l.filter fun p => p.1 ≠ k

theorem mem_setIn {k : ℕ} {v : β} {l : List (ℕ × β)} {p : ℕ × β}
    (hp : p ∈ setIn k v l) : p = (k, v) ∨ p ∈ l := by
  induction l with
  | nil => simpa [setIn] using hp
  | cons q l ih =>
      obtain ⟨j, w⟩ := q
      simp only [setIn] at hp
      split_ifs at hp with h₁ h₂
      · simpa using hp
      · rcases List.mem_cons.1 hp with rfl | hp
        · exact .inl rfl
        · exact .inr (List.mem_cons_of_mem _ hp)
      · rcases List.mem_cons.1 hp with rfl | hp
        · exact .inr (by simp)
        · exact (ih hp).imp_right (List.mem_cons_of_mem _)

theorem setIn_sorted (k : ℕ) (v : β) {l : List (ℕ × β)}
    (hl : l.Pairwise fun a b => a.1 < b.1) :
    (setIn k v l).Pairwise fun a b => a.1 < b.1 := by
  induction l with
  | nil => simp [setIn]
  | cons q l ih =>
      obtain ⟨j, w⟩ := q
      obtain ⟨hhead, htail⟩ := List.pairwise_cons.1 hl
      simp only [setIn]
      split_ifs with h₁ h₂
      · refine List.pairwise_cons.2 ⟨?_, hl⟩
        intro p hp
        rcases List.mem_cons.1 hp with rfl | hp
        · exact h₁
        · exact h₁.trans (hhead p hp)
      · subst h₂
        exact List.pairwise_cons.2 ⟨hhead, htail⟩
      · refine List.pairwise_cons.2 ⟨?_, ih htail⟩
        intro p hp
        rcases mem_setIn hp with rfl | hp
        · exact lt_of_le_of_ne (not_lt.1 h₁) h₂
        · exact hhead p hp

theorem lookupIn_setIn_self (k : ℕ) (v : β) (l : List (ℕ × β)) :
    lookupIn k (setIn k v l) = some v := by
  induction l with
  | nil => simp [setIn, lookupIn]
  | cons q l ih =>
      obtain ⟨j, w⟩ := q
      simp only [setIn]
      split_ifs with h₁ h₂
      · simp [lookupIn]
      · simp [lookupIn]
      · simpa [lookupIn, h₂] using ih

theorem lookupIn_setIn_ne {k i : ℕ} (h : i ≠ k) (v : β) (l : List (ℕ × β)) :
    lookupIn i (setIn k v l) = lookupIn i l := by
  induction l with
  | nil => simp [setIn, lookupIn, h.symm]
  | cons q l ih =>
      obtain ⟨j, w⟩ := q
      simp only [setIn]
      split_ifs with h₁ h₂
      · simp [lookupIn, h.symm]
      · subst h₂
        simp [lookupIn, h.symm]
      · simp [lookupIn, ih]

theorem lookupIn_eraseIn_self (k : ℕ) (l : List (ℕ × β)) :
    lookupIn k (eraseIn k l) = none := by
  induction l with
  | nil => rfl
  | cons q l ih =>
      obtain ⟨j, w⟩ := q
      by_cases h : j = k
      · simpa [eraseIn, h] using ih
      · simpa [eraseIn, h, lookupIn] using ih

theorem lookupIn_eraseIn_ne {k i : ℕ} (h : i ≠ k) (l : List (ℕ × β)) :
    lookupIn i (eraseIn k l) = lookupIn i l := by
  induction l with
  | nil => rfl
  | cons q l ih =>
      obtain ⟨j, w⟩ := q
      by_cases hj : j = k
      · subst hj
        simpa [eraseIn, lookupIn, h.symm] using ih
      · have ih' : lookupIn i (l.filter fun p => p.1 ≠ k) = lookupIn i l := ih
        simp only [eraseIn, List.filter_cons, ne_eq, hj, not_false_eq_true, decide_true,
          if_true, lookupIn]
        split
        · rfl
        · simpa using ih'

theorem lookupIn_eq_none {k : ℕ} {l : List (ℕ × β)} (h : ∀ p ∈ l, p.1 ≠ k) :
    lookupIn k l = none := by
  induction l with
  | nil => rfl
  | cons q l ih =>
      obtain ⟨j, w⟩ := q
      have hj : j ≠ k := h (j, w) (by simp)
      simpa [lookupIn, hj] using ih fun p hp => h p (by simp [hp])

theorem eraseIn_eq_self {k : ℕ} {l : List (ℕ × β)} (h : ∀ p ∈ l, p.1 ≠ k) :
    eraseIn k l = l :=
  List.filter_eq_self.2 fun p hp => by simpa using h p hp

/-! ## Maps -/

def empty : KeyMap β := ⟨[], List.Pairwise.nil⟩

def lookup (m : KeyMap β) (k : ℕ) : Option β := lookupIn k m.entries

def set (m : KeyMap β) (k : ℕ) (v : β) : KeyMap β :=
  ⟨setIn k v m.entries, setIn_sorted k v m.sorted⟩

def erase (m : KeyMap β) (k : ℕ) : KeyMap β :=
  ⟨eraseIn k m.entries, m.sorted.filter _⟩

@[simp] theorem lookup_empty (k : ℕ) : (empty : KeyMap β).lookup k = none := rfl

@[simp] theorem lookup_set_self (m : KeyMap β) (k : ℕ) (v : β) :
    (m.set k v).lookup k = some v := lookupIn_setIn_self k v m.entries

theorem lookup_set_ne (m : KeyMap β) {k i : ℕ} (h : i ≠ k) (v : β) :
    (m.set k v).lookup i = m.lookup i := lookupIn_setIn_ne h v m.entries

@[simp] theorem lookup_erase_self (m : KeyMap β) (k : ℕ) : (m.erase k).lookup k = none :=
  lookupIn_eraseIn_self k m.entries

theorem lookup_erase_ne (m : KeyMap β) {k i : ℕ} (h : i ≠ k) :
    (m.erase k).lookup i = m.lookup i := lookupIn_eraseIn_ne h m.entries

theorem mem_set {m : KeyMap β} {k : ℕ} {v : β} {p : ℕ × β}
    (hp : p ∈ (m.set k v).entries) : p = (k, v) ∨ p ∈ m.entries := mem_setIn hp

theorem mem_erase {m : KeyMap β} {k : ℕ} {p : ℕ × β}
    (hp : p ∈ (m.erase k).entries) : p ∈ m.entries := List.mem_of_mem_filter hp

theorem mem_of_lookupIn {k : ℕ} {v : β} {l : List (ℕ × β)} (h : lookupIn k l = some v) :
    (k, v) ∈ l := by
  induction l with
  | nil => cases h
  | cons q l ih =>
      obtain ⟨j, w⟩ := q
      by_cases hj : j = k
      · subst hj
        simp_all [lookupIn]
      · exact List.mem_cons_of_mem _ (ih (by simpa [lookupIn, hj] using h))

/-! ## Values under a function -/

section MapValues

variable {γ : Type} (f : β → γ)

def mapValues (m : KeyMap β) : KeyMap γ :=
  ⟨m.entries.map fun p => (p.1, f p.2), List.pairwise_map.2 m.sorted⟩

theorem lookupIn_map (k : ℕ) (l : List (ℕ × β)) :
    lookupIn k (l.map fun p => (p.1, f p.2)) = (lookupIn k l).map f := by
  induction l with
  | nil => rfl
  | cons q l ih =>
      rw [List.map_cons, lookupIn, lookupIn, ih]
      split_ifs <;> rfl

theorem setIn_map (k : ℕ) (v : β) (l : List (ℕ × β)) :
    (setIn k v l).map (fun p => (p.1, f p.2)) = setIn k (f v) (l.map fun p => (p.1, f p.2)) := by
  induction l with
  | nil => rfl
  | cons q l ih =>
      rw [List.map_cons, setIn, setIn]
      split_ifs
      · rfl
      · rfl
      · rw [List.map_cons, ih]

theorem lookup_mapValues (m : KeyMap β) (k : ℕ) : (m.mapValues f).lookup k = (m.lookup k).map f :=
  lookupIn_map f k m.entries

theorem mapValues_set (m : KeyMap β) (k : ℕ) (v : β) :
    (m.set k v).mapValues f = (m.mapValues f).set k (f v) := by
  simp only [mapValues, set, setIn_map]

end MapValues

/-! ## Integer values -/

/-- The value of a key, zero when the key is absent. -/
def value (m : KeyMap ℤ) (k : ℕ) : ℤ := (m.lookup k).getD 0

/-- The sum of all values. -/
def total (m : KeyMap ℤ) : ℤ := (m.entries.map Prod.snd).sum

@[simp] theorem value_empty (k : ℕ) : (empty : KeyMap ℤ).value k = 0 := rfl

@[simp] theorem total_empty : (empty : KeyMap ℤ).total = 0 := rfl

@[simp] theorem value_set_self (m : KeyMap ℤ) (k : ℕ) (v : ℤ) : (m.set k v).value k = v := by
  simp [value]

theorem value_set_ne (m : KeyMap ℤ) {k i : ℕ} (h : i ≠ k) (v : ℤ) :
    (m.set k v).value i = m.value i := by
  simp [value, lookup_set_ne m h]

@[simp] theorem value_erase_self (m : KeyMap ℤ) (k : ℕ) : (m.erase k).value k = 0 := by
  simp [value]

theorem value_erase_ne (m : KeyMap ℤ) {k i : ℕ} (h : i ≠ k) :
    (m.erase k).value i = m.value i := by
  simp [value, lookup_erase_ne m h]

theorem sum_setIn (k : ℕ) (v : ℤ) {l : List (ℕ × ℤ)}
    (hl : l.Pairwise fun a b => a.1 < b.1) :
    ((setIn k v l).map Prod.snd).sum =
      (l.map Prod.snd).sum - (lookupIn k l).getD 0 + v := by
  induction l with
  | nil => simp [setIn, lookupIn]
  | cons q l ih =>
      obtain ⟨j, w⟩ := q
      obtain ⟨hhead, htail⟩ := List.pairwise_cons.1 hl
      simp only [setIn]
      split_ifs with h₁ h₂
      · -- `k` lies before every key of the list, so it is absent
        have hnone : lookupIn k ((j, w) :: l) = none := by
          refine lookupIn_eq_none fun p hp => ?_
          rcases List.mem_cons.1 hp with rfl | hp
          · exact h₁.ne'
          · exact (h₁.trans (hhead p hp)).ne'
        rw [hnone]
        simp
        omega
      · subst h₂
        simp [lookupIn]
        omega
      · simp [lookupIn, h₂, ih htail]
        omega

theorem sum_eraseIn (k : ℕ) {l : List (ℕ × ℤ)} (hl : l.Pairwise fun a b => a.1 < b.1) :
    ((eraseIn k l).map Prod.snd).sum = (l.map Prod.snd).sum - (lookupIn k l).getD 0 := by
  induction l with
  | nil => simp [eraseIn, lookupIn]
  | cons q l ih =>
      obtain ⟨j, w⟩ := q
      obtain ⟨hhead, htail⟩ := List.pairwise_cons.1 hl
      by_cases h : j = k
      · subst h
        have hrest : eraseIn j l = l := eraseIn_eq_self fun p hp => (hhead p hp).ne'
        have hcons : eraseIn j ((j, w) :: l) = eraseIn j l := by simp [eraseIn]
        rw [hcons, hrest]
        simp [lookupIn]
      · have hcons : eraseIn k ((j, w) :: l) = (j, w) :: eraseIn k l := by simp [eraseIn, h]
        rw [hcons]
        simp [lookupIn, h, ih htail]
        omega

theorem total_set (m : KeyMap ℤ) (k : ℕ) (v : ℤ) :
    (m.set k v).total = m.total - m.value k + v := sum_setIn k v m.sorted

theorem total_erase (m : KeyMap ℤ) (k : ℕ) : (m.erase k).total = m.total - m.value k :=
  sum_eraseIn k m.sorted

theorem total_nonneg (m : KeyMap ℤ) (h : ∀ p ∈ m.entries, 0 ≤ p.2) : 0 ≤ m.total := by
  refine List.sum_nonneg fun x hx => ?_
  obtain ⟨p, hp, rfl⟩ := List.mem_map.1 hx
  exact h p hp

theorem value_nonneg (m : KeyMap ℤ) (h : ∀ p ∈ m.entries, 0 ≤ p.2) (k : ℕ) : 0 ≤ m.value k := by
  unfold value lookup
  cases hk : lookupIn k m.entries with
  | none => simp
  | some v => exact h (k, v) (mem_of_lookupIn hk)

theorem value_le_total (m : KeyMap ℤ) (h : ∀ p ∈ m.entries, 0 ≤ p.2) (k : ℕ) :
    m.value k ≤ m.total := by
  have hrest := (m.erase k).total_nonneg fun p hp => h p (mem_erase hp)
  rw [total_erase] at hrest
  omega

/-- Distinct keys take at most the total. -/
theorem sum_value_le_total (m : KeyMap ℤ) (h : ∀ p ∈ m.entries, 0 ≤ p.2) {ks : List ℕ} (hks : ks.Nodup) :
    (ks.map m.value).sum ≤ m.total := by
  induction ks generalizing m with
  | nil => exact m.total_nonneg h
  | cons k ks ih =>
      obtain ⟨hk, hks⟩ := List.nodup_cons.1 hks
      have hrest := ih (m.erase k) (fun p hp => h p (mem_erase hp)) hks
      rw [total_erase] at hrest
      have hsame : ks.map (m.erase k).value = ks.map m.value := by
        refine List.map_congr_left fun j hj => value_erase_ne m ?_
        rintro rfl
        exact hk hj
      rw [hsame] at hrest
      rw [List.map_cons, List.sum_cons]
      omega

/-! ## Adding to several keys -/

/-- Add each amount to the value of its key, one after the other. -/
def addAll (m : KeyMap ℤ) (l : List (ℕ × ℤ)) : KeyMap ℤ :=
  l.foldl (fun m p => m.set p.1 (m.value p.1 + p.2)) m

theorem addAll_cons (m : KeyMap ℤ) (p : ℕ × ℤ) (l : List (ℕ × ℤ)) :
    m.addAll (p :: l) = (m.set p.1 (m.value p.1 + p.2)).addAll l := rfl

theorem total_addAll (m : KeyMap ℤ) (l : List (ℕ × ℤ)) :
    (m.addAll l).total = m.total + (l.map Prod.snd).sum := by
  induction l generalizing m with
  | nil => exact (add_zero _).symm
  | cons p l ih =>
      rw [addAll_cons, ih, total_set, List.map_cons, List.sum_cons]
      omega

theorem value_addAll_of_notMem (m : KeyMap ℤ) {l : List (ℕ × ℤ)} {k : ℕ} (hk : k ∉ l.map Prod.fst) :
    (m.addAll l).value k = m.value k := by
  induction l generalizing m with
  | nil => rfl
  | cons p l ih =>
      rw [List.map_cons, List.mem_cons, not_or] at hk
      rw [addAll_cons, ih _ hk.2, value_set_ne m hk.1]

theorem value_addAll_of_mem (m : KeyMap ℤ) {l : List (ℕ × ℤ)} {k : ℕ} {v : ℤ}
    (hl : (l.map Prod.fst).Nodup) (hk : (k, v) ∈ l) : (m.addAll l).value k = m.value k + v := by
  induction l generalizing m with
  | nil => cases hk
  | cons p l ih =>
      obtain ⟨hfresh, hl⟩ := List.nodup_cons.1 hl
      rw [addAll_cons]
      rcases List.mem_cons.1 hk with rfl | hk
      · rw [value_addAll_of_notMem _ hfresh, value_set_self]
      · have hne : k ≠ p.1 := by
          rintro rfl
          exact hfresh (List.mem_map.2 ⟨_, hk, rfl⟩)
        rw [ih _ hl hk, value_set_ne m hne]

theorem addAll_nonneg {m : KeyMap ℤ} (hm : ∀ p ∈ m.entries, 0 ≤ p.2) {l : List (ℕ × ℤ)}
    (hl : ∀ p ∈ l, 0 ≤ p.2) : ∀ p ∈ (m.addAll l).entries, 0 ≤ p.2 := by
  induction l generalizing m with
  | nil => exact hm
  | cons q l ih =>
      rw [addAll_cons]
      refine ih (fun p hp => ?_) fun p hp => hl p (List.mem_cons_of_mem q hp)
      rcases mem_set hp with rfl | hp
      · exact add_nonneg (m.value_nonneg hm q.1) (hl q (by simp))
      · exact hm p hp

end KeyMap
