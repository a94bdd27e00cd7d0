import Mathlib.Data.List.Induction
import Mathlib.Data.List.Nodup

/-!
# Groups in the order of first occurrence

The keys of a list, each once and in the order in which they first occur, and the place of
each among them. Appending an element either finds the place of its key or adds a place
at the end, so a place once given is kept.
-/

namespace Grouping

variable {α κ β : Type*} [DecidableEq κ] {key : α → κ} {xs ys : List α} {a : α} {k : κ}

/-- The keys of a list, each once. -/
def keysOf (key : α → κ) (xs : List α) : List κ := (xs.map key).eraseDups

/-- Where a key stands among the keys of a list. -/
def place (key : α → κ) (xs : List α) (k : κ) : ℕ := (keysOf key xs).idxOf k

@[simp] theorem keysOf_nil : keysOf key [] = [] := rfl

theorem mem_keysOf : k ∈ keysOf key xs ↔ ∃ a ∈ xs, key a = k := by
  rw [keysOf, List.mem_eraseDups, List.mem_map]

theorem keysOf_snoc_of_mem (h : key a ∈ keysOf key xs) : keysOf key (xs ++ [a]) = keysOf key xs := by
  have hmem : key a ∈ xs.map key := List.mem_eraseDups.1 h
  have hgone : [key a].removeAll (xs.map key) = [] := by simpa [List.removeAll] using hmem
  rw [keysOf, List.map_append, List.map_singleton, List.eraseDups_append, hgone, List.eraseDups_nil,
    List.append_nil, keysOf]

theorem keysOf_snoc_of_notMem (h : key a ∉ keysOf key xs) :
    keysOf key (xs ++ [a]) = keysOf key xs ++ [key a] := by
  have hmem : key a ∉ xs.map key := fun hmem => h (List.mem_eraseDups.2 hmem)
  have hkept : [key a].removeAll (xs.map key) = [key a] := by simpa [List.removeAll] using hmem
  have hone : [key a].eraseDups = [key a] := by simp [List.eraseDups_cons]
  rw [keysOf, List.map_append, List.map_singleton, List.eraseDups_append, hkept, hone, keysOf]

theorem keysOf_isPrefix (key : α → κ) (xs ys : List α) : keysOf key xs <+: keysOf key (xs ++ ys) := by
  rw [keysOf, keysOf, List.map_append, List.eraseDups_append]
  exact List.prefix_append _ _

theorem nodup_keysOf (key : α → κ) (xs : List α) : (keysOf key xs).Nodup := by
  induction xs using List.reverseRecOn with
  | nil => exact List.nodup_nil
  | append_singleton xs a ih =>
      by_cases h : key a ∈ keysOf key xs
      · rwa [keysOf_snoc_of_mem h]
      · rw [keysOf_snoc_of_notMem h]
        exact List.nodup_append.2 ⟨ih, List.nodup_singleton _, fun j hj k hk hjk =>
          h (List.mem_singleton.1 hk ▸ hjk ▸ hj)⟩

theorem length_keysOf_le (key : α → κ) (xs : List α) : (keysOf key xs).length ≤ xs.length := by
  induction xs using List.reverseRecOn with
  | nil => exact Nat.le_refl 0
  | append_singleton xs a ih =>
      rw [List.length_append, List.length_singleton]
      by_cases h : key a ∈ keysOf key xs
      · rw [keysOf_snoc_of_mem h]
        exact Nat.le_succ_of_le ih
      · rw [keysOf_snoc_of_notMem h, List.length_append, List.length_singleton]
        exact Nat.succ_le_succ ih

/-! ## Places -/

theorem place_lt (h : k ∈ keysOf key xs) : place key xs k < (keysOf key xs).length :=
  List.idxOf_lt_length_of_mem h

theorem getElem?_place (h : k ∈ keysOf key xs) : (keysOf key xs)[place key xs k]? = some k := by
  rw [List.getElem?_eq_getElem (place_lt h)]
  exact congrArg some (List.getElem_idxOf (place_lt h))

/-- A key keeps its place when the list goes on. -/
theorem place_append (h : k ∈ keysOf key xs) : place key (xs ++ ys) k = place key xs k := by
  obtain ⟨rest, hrest⟩ := keysOf_isPrefix key xs ys
  rw [place, ← hrest, List.idxOf_append_of_mem h, place]

/-- A key that is new stands at the end. -/
theorem place_snoc_of_notMem (h : key a ∉ keysOf key xs) :
    place key (xs ++ [a]) (key a) = (keysOf key xs).length := by
  rw [place, keysOf_snoc_of_notMem h, List.idxOf_append_of_notMem h, List.idxOf_cons_self, Nat.add_zero]

/-- The search for the first key finds its place. -/
theorem findIdx?_keysOf (key : α → κ) (xs : List α) (k : κ) :
    ((keysOf key xs).findIdx? fun j => j = k) =
      if k ∈ keysOf key xs then some (place key xs k) else none := by
  split_ifs with h
  · rw [List.findIdx?_eq_some_iff_findIdx_eq]
    refine ⟨place_lt h, ?_⟩
    rw [place, List.idxOf]
    congr 1
  · rw [List.findIdx?_eq_none_iff]
    rintro j hj
    rw [decide_eq_false_iff_not]
    rintro rfl
    exact h hj

/-- What is computed for each key changes at one place when it changes for one key. -/
theorem map_keysOf_update {f g : κ → β} (h : k ∈ keysOf key xs) (hsame : ∀ j, j ≠ k → g j = f j) :
    (keysOf key xs).map g = ((keysOf key xs).map f).set (place key xs k) (g k) := by
  apply List.ext_getElem?
  intro i
  rw [List.getElem?_map, List.getElem?_set, List.getElem?_map, List.length_map]
  by_cases hi : place key xs k = i
  · subst hi
    rw [if_pos rfl, if_pos (place_lt h), getElem?_place h, Option.map_some]
  · rw [if_neg hi]
    cases hj : (keysOf key xs)[i]? with
    | none => rfl
    | some j =>
        have hne : j ≠ k := by
          rintro rfl
          obtain ⟨hlt, hget⟩ := List.getElem?_eq_some_iff.1 hj
          have hplace := (nodup_keysOf key xs).idxOf_getElem i hlt
          rw [hget] at hplace
          exact hi hplace
        rw [Option.map_some, Option.map_some, hsame j hne]

end Grouping
