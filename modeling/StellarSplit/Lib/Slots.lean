import Mathlib.Data.List.DropRight
import Mathlib.Data.List.Sort

/-!
# Insertion sort in place

The first entries of an array are put in order one by one: the entries that may not stay
in front of a key move up one slot, and the key takes the slot they leave. The order is
stable: of two entries that may stand either way the one that came first stays in front.
-/

namespace Slots

variable {α : Type*} (stays : α → α → Prop) [DecidableRel stays]

/-- Entries move up until one may stay in front of the key; the slot that is left, and the
entries. -/
def shiftUp (key : α) : ℕ → List α → ℕ × List α
  | 0, xs => (0, xs)
  | j + 1, xs =>
      match xs[j]? with
      | none => (j + 1, xs)
      | some prev => if stays prev key then (j + 1, xs) else shiftUp key j (xs.set (j + 1) prev)

def insertAt (xs : List α) (i : ℕ) : List α :=
  match xs[i]? with
  | none => xs
  | some key => (shiftUp stays key i xs).2.set (shiftUp stays key i xs).1 key

def sortFirst (n : ℕ) (xs : List α) : List α := (List.range' 1 (n - 1)).foldl (insertAt stays) xs

/-! ## What the loops compute -/

def moves (key x : α) : Bool := !decide (stays x key)

/-- The key behind the last entry that may stay in front of it. -/
def place (front : List α) (key : α) : List α :=
  front.rdropWhile (moves stays key) ++ key :: front.rtakeWhile (moves stays key)

def arranged (xs : List α) : List α := xs.foldl (place stays) []

variable {stays} {front rest xs : List α} {key hole x : α}

theorem place_of_stays (h : stays x key) : place stays (front ++ [x]) key = front ++ [x] ++ [key] := by
  have hstop : ¬moves stays key x := by simpa [moves] using h
  rw [place, List.rdropWhile_concat_neg _ _ _ hstop, List.rtakeWhile_concat_neg _ _ _ hstop]

theorem place_of_moves (h : ¬stays x key) :
    place stays (front ++ [x]) key = place stays front key ++ [x] := by
  have hgo : moves stays key x := by simpa [moves] using h
  rw [place, List.rdropWhile_concat_pos _ _ _ hgo, List.rtakeWhile_concat_pos _ _ _ hgo, place]
  simp only [List.append_assoc, List.cons_append]

theorem set_shiftUp (front rest : List α) (key hole : α) :
    (shiftUp stays key front.length (front ++ hole :: rest)).2.set
      (shiftUp stays key front.length (front ++ hole :: rest)).1 key = place stays front key ++ rest := by
  induction front using List.reverseRecOn generalizing hole rest with
  | nil => simp [shiftUp, place]
  | append_singleton front x ih =>
      have hprev : (front ++ [x] ++ hole :: rest)[front.length]? = some x := by simp
      rw [List.length_append, List.length_singleton, shiftUp, hprev]
      by_cases hstay : stays x key
      · simp only [if_pos hstay, place_of_stays hstay]
        rw [List.set_append_right _ _ (by simp)]
        simp
      · have hset : (front ++ [x] ++ hole :: rest).set (front.length + 1) x = front ++ x :: x :: rest := by
          rw [List.set_append_right _ _ (by simp)]
          simp
        simp only [if_neg hstay, hset]
        rw [ih (x :: rest) x, place_of_moves hstay]
        simp

theorem insertAt_eq {i : ℕ} (hi : front.length = i) :
    insertAt stays (front ++ key :: rest) i = place stays front key ++ rest := by
  subst hi
  have hkey : (front ++ key :: rest)[front.length]? = some key := by simp
  rw [insertAt, hkey]
  exact set_shiftUp front rest key key

theorem place_perm (front : List α) (key : α) : (place stays front key).Perm (key :: front) := by
  rw [place]
  apply List.perm_middle.trans
  rw [List.rdropWhile_append_rtakeWhile]

theorem arranged_concat (xs : List α) (key : α) :
    arranged stays (xs ++ [key]) = place stays (arranged stays xs) key := by
  rw [arranged, List.foldl_append, List.foldl_cons, List.foldl_nil, arranged]

theorem arranged_perm (xs : List α) : (arranged stays xs).Perm xs := by
  induction xs using List.reverseRecOn with
  | nil => exact List.Perm.refl []
  | append_singleton xs key ih =>
      rw [arranged_concat]
      exact (place_perm _ _).trans ((ih.cons key).trans (List.perm_append_singleton key xs).symm)

theorem length_arranged (xs : List α) : (arranged stays xs).length = xs.length := (arranged_perm xs).length_eq

theorem sortFirst_succ (n : ℕ) (xs : List α) :
    sortFirst stays (n + 2) xs = insertAt stays (sortFirst stays (n + 1) xs) (n + 1) := by
  have hrange : List.range' 1 (n + 1) = List.range' 1 n ++ [n + 1] := by
    rw [List.range'_concat, Nat.one_mul, Nat.add_comm]
  change (List.range' 1 (n + 1)).foldl (insertAt stays) xs = _
  rw [hrange, List.foldl_append]
  rfl

theorem sortFirst_eq {n : ℕ} (hn : n ≤ xs.length) :
    sortFirst stays n xs = arranged stays (xs.take n) ++ xs.drop n := by
  induction n with
  | zero => rfl
  | succ n ih =>
      have hlt : n < xs.length := hn
      have htake : xs.take (n + 1) = xs.take n ++ [xs[n]] := List.take_succ_eq_append_getElem hlt
      have hdrop : xs.drop n = xs[n] :: xs.drop (n + 1) := List.drop_eq_getElem_cons hlt
      rw [htake, arranged_concat]
      cases n with
      | zero =>
          rw [List.take_zero, arranged, List.foldl_nil, place, List.rdropWhile_nil, List.rtakeWhile_nil,
            List.nil_append, List.singleton_append, ← hdrop, List.drop_zero]
          rfl
      | succ n =>
          have hlength : (arranged stays (xs.take (n + 1))).length = n + 1 := by
            rw [length_arranged, List.length_take, Nat.min_eq_left hlt.le]
          rw [sortFirst_succ, ih hlt.le, hdrop]
          exact insertAt_eq hlength

/-! ## Order -/

/-- The first stays in front of the second, and came first if it could stand behind it too. -/
def Leads (stays came : α → α → Prop) (a b : α) : Prop := stays a b ∧ (stays b a → came a b)

section Order

variable {came : α → α → Prop} (htrans : ∀ a b c, stays a b → stays b c → stays a c)
  (htotal : ∀ a b, stays a b ∨ stays b a)
include htrans htotal

theorem place_sorted (hsorted : front.Pairwise (Leads stays came)) (hcame : ∀ x ∈ front, came x key) :
    (place stays front key).Pairwise (Leads stays came) := by
  induction front using List.reverseRecOn with
  | nil => simp [place]
  | append_singleton front x ih =>
      obtain ⟨hfront, -, hlast⟩ := List.pairwise_append.1 hsorted
      by_cases hstay : stays x key
      · rw [place_of_stays hstay]
        refine List.pairwise_append.2 ⟨hsorted, List.pairwise_singleton _ _, ?_⟩
        intro a ha b hb
        rw [List.mem_singleton.1 hb]
        refine ⟨?_, fun _ => hcame a ha⟩
        rcases List.mem_append.1 ha with ha | ha
        · exact htrans a x key (hlast a ha x (by simp)).1 hstay
        · rwa [List.mem_singleton.1 ha]
      · rw [place_of_moves hstay]
        refine List.pairwise_append.2
          ⟨ih hfront fun a ha => hcame a (by simp [ha]), List.pairwise_singleton _ _, ?_⟩
        intro a ha b hb
        rw [List.mem_singleton.1 hb]
        rcases List.mem_cons.1 ((place_perm front key).mem_iff.1 ha) with rfl | ha
        · exact ⟨(htotal a x).resolve_right hstay, fun h => absurd h hstay⟩
        · exact hlast a ha x (by simp)

theorem arranged_sorted (hcame : xs.Pairwise came) : (arranged stays xs).Pairwise (Leads stays came) := by
  induction xs using List.reverseRecOn with
  | nil => exact List.Pairwise.nil
  | append_singleton xs key ih =>
      obtain ⟨hxs, -, hkey⟩ := List.pairwise_append.1 hcame
      rw [arranged_concat]
      refine place_sorted htrans htotal (ih hxs) fun x hx => ?_
      exact hkey x ((arranged_perm xs).mem_iff.1 hx) key (by simp)

end Order

/-! ## The sort of lists is stable too -/

section Stable

variable {r came : α → α → Prop} [DecidableRel r] (htrans : ∀ a b c, r a b → r b c → r a c)
  (htotal : ∀ a b, r a b ∨ r b a)
include htrans htotal

theorem orderedInsert_leads (hsorted : xs.Pairwise (Leads r came)) (hcame : ∀ x ∈ xs, came key x) :
    (xs.orderedInsert r key).Pairwise (Leads r came) := by
  induction xs with
  | nil => simp
  | cons x xs ih =>
      obtain ⟨hfirst, hrest⟩ := List.pairwise_cons.1 hsorted
      by_cases hle : r key x
      · rw [List.orderedInsert_cons_of_le r xs hle]
        refine List.pairwise_cons.2 ⟨fun y hy => ?_, hsorted⟩
        rcases List.mem_cons.1 hy with rfl | hy
        · exact ⟨hle, fun _ => hcame y (by simp)⟩
        · exact ⟨htrans key x y hle (hfirst y hy).1, fun _ => hcame y (by simp [hy])⟩
      · rw [List.orderedInsert_of_not_le r xs hle]
        refine List.pairwise_cons.2 ⟨fun y hy => ?_, ih hrest fun y hy => hcame y (by simp [hy])⟩
        rcases (List.mem_orderedInsert r).1 hy with rfl | hy
        · exact ⟨(htotal x y).resolve_right hle, fun h => absurd h hle⟩
        · exact hfirst y hy

theorem insertionSort_leads (hcame : xs.Pairwise came) : (xs.insertionSort r).Pairwise (Leads r came) := by
  induction xs with
  | nil => exact List.Pairwise.nil
  | cons x xs ih =>
      obtain ⟨hfirst, hrest⟩ := List.pairwise_cons.1 hcame
      rw [List.insertionSort_cons]
      refine orderedInsert_leads htrans htotal (ih hrest) fun y hy => ?_
      exact hfirst y ((List.mem_insertionSort r).1 hy)

end Stable

end Slots
