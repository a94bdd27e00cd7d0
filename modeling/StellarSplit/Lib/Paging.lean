import Mathlib.Data.List.Basic
import Mathlib.Data.List.Pairwise
import Mathlib.Order.Basic
import Mathlib.Order.Nat

/-!
# Lists read page by page

A sorted list is read in pages of a fixed size, each starting after the last entry
of the page before, until a page is not full. Read so, the list is read once and
in its order.
-/

namespace Paging

variable {page : ℕ → List ℕ} {size cursor last : ℕ} {l ids : List ℕ}

/-- Reading from a cursor until a page is not full yields these entries. -/
inductive Reads (page : ℕ → List ℕ) (size : ℕ) : ℕ → List ℕ → Prop where
  | done {cursor : ℕ} (hshort : (page cursor).length < size) : Reads page size cursor (page cursor)
  | more {cursor last : ℕ} {rest : List ℕ} (hfull : size ≤ (page cursor).length)
      (hlast : (page cursor).getLast? = some last) (hrest : Reads page size last rest) :
      Reads page size cursor (page cursor ++ rest)

theorem Reads.unique {ids' : List ℕ} (h : Reads page size cursor ids) (h' : Reads page size cursor ids') :
    ids = ids' := by
  induction h generalizing ids' with
  | done hshort =>
      cases h' with
      | done => rfl
      | more hfull => omega
  | more hfull hlast _ ih =>
      cases h' with
      | done hshort => omega
      | more _ hlast' hrest' =>
          obtain rfl := Option.some.inj (hlast.symm.trans hlast')
          rw [ih hrest']

/-- What comes after the last entry of a full page is what the page leaves out. -/
theorem filter_after_page (hsorted : l.Pairwise (· < ·))
    (hlast : ((l.filter (cursor < ·)).take size).getLast? = some last) :
    l.filter (last < ·) = (l.filter (cursor < ·)).drop size := by
  have hmem : last ∈ (l.filter (cursor < ·)).take size := List.mem_of_getLast? hlast
  have hcursor : cursor < last := by
    simpa using (List.mem_filter.1 (List.mem_of_mem_take hmem)).2
  have hrest : (l.filter (cursor < ·)).Pairwise (· < ·) := hsorted.filter _
  rw [← List.take_append_drop size (l.filter (cursor < ·)), List.pairwise_append] at hrest
  obtain ⟨htake, -, hbetween⟩ := hrest
  have htwice : l.filter (last < ·) = (l.filter (cursor < ·)).filter (last < ·) := by
    rw [List.filter_filter]
    refine List.filter_congr fun a _ => ?_
    by_cases ha : last < a
    · simp [ha, hcursor.trans ha]
    · simp [ha]
  -- nothing of the page lies after its last entry, and all that follows does
  have hpage : ((l.filter (cursor < ·)).take size).filter (last < ·) = [] := by
    obtain ⟨init, hinit⟩ := List.getLast?_eq_some_iff.1 hlast
    rw [hinit, List.pairwise_append] at htake
    rw [hinit, List.filter_eq_nil_iff]
    intro a ha
    rcases List.mem_append.1 ha with ha | ha
    · have hlt := htake.2.2 a ha last (List.mem_singleton_self last)
      simpa using hlt.le
    · simp [List.mem_singleton.1 ha]
  have hdrop : ((l.filter (cursor < ·)).drop size).filter (last < ·) = (l.filter (cursor < ·)).drop size :=
    List.filter_eq_self.2 fun a ha => by simpa using hbetween last hmem a ha
  calc l.filter (last < ·)
      = ((l.filter (cursor < ·)).take size ++ (l.filter (cursor < ·)).drop size).filter (last < ·) := by
        rw [List.take_append_drop, htwice]
    _ = (l.filter (cursor < ·)).drop size := by rw [List.filter_append, hpage, hdrop, List.nil_append]

/-- Pages that are cut out of a sorted list read all of it that comes after the cursor. -/
theorem reads_filter (hsorted : l.Pairwise (· < ·)) (hsize : 0 < size)
    (hpage : ∀ cursor, page cursor = (l.filter (cursor < ·)).take size) (cursor : ℕ) :
    Reads page size cursor (l.filter (cursor < ·)) := by
  induction hn : (l.filter (cursor < ·)).length using Nat.strongRecOn generalizing cursor with
  | _ n ih =>
      by_cases hshort : (l.filter (cursor < ·)).length < size
      · have hall : page cursor = l.filter (cursor < ·) := by
          rw [hpage, List.take_of_length_le hshort.le]
        have hdone : Reads page size cursor (page cursor) := .done (by rwa [hall])
        rwa [hall] at hdone
      · have hlength : ((l.filter (cursor < ·)).take size).length = size := by
          rw [List.length_take, min_eq_left (not_lt.1 hshort)]
        have hne : (l.filter (cursor < ·)).take size ≠ [] := List.ne_nil_of_length_pos (by omega)
        obtain ⟨last, hlast⟩ : ∃ last, ((l.filter (cursor < ·)).take size).getLast? = some last :=
          ⟨_, List.getLast?_eq_some_getLast hne⟩
        have hafter := filter_after_page hsorted hlast
        have hless : (l.filter (last < ·)).length < n := by
          rw [hafter, List.length_drop, hn]
          omega
        have hmore : Reads page size cursor (page cursor ++ l.filter (last < ·)) :=
          .more (by rw [hpage, hlength]) (by rw [hpage, hlast]) (ih _ hless last rfl)
        rwa [hpage, hafter, List.take_append_drop] at hmore

end Paging
