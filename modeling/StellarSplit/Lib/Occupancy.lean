import Mathlib.Data.Finset.Card
import Mathlib.Data.Finset.Range

/-!
# Places and their holders

Each place has a holder or is vacant. How many places a holder has changes by one
when a place falls vacant or a new place is taken, and not at all for the others.
-/

namespace Occupancy

variable {ι α : Type*} [DecidableEq ι] [DecidableEq α] {s : Finset ι} {f g : ι → Option α} {i : ι} {a b : α}

/-- How many of the places are held by `a`. -/
def seats (s : Finset ι) (f : ι → Option α) (a : α) : ℕ := (s.filter fun i => f i = some a).card

omit [DecidableEq ι] in
theorem seats_congr (h : ∀ i ∈ s, g i = f i) (a : α) : seats s g a = seats s f a := by
  unfold seats
  rw [Finset.filter_congr fun i hi => by rw [h i hi]]

/-- A new place counts for its holder. -/
theorem seats_insert (hi : i ∉ s) (a : α) :
    seats (insert i s) f a = seats s f a + if f i = some a then 1 else 0 := by
  unfold seats
  rw [Finset.filter_insert]
  split_ifs with hholds
  · exact Finset.card_insert_of_notMem fun hmem => hi (Finset.mem_filter.1 hmem).1
  · rfl

/-- A place that changes hands is taken from one holder and given to the other. -/
theorem seats_change (hi : i ∈ s) (hothers : ∀ j, j ≠ i → g j = f j) (a : α) :
    seats s g a + (if f i = some a then 1 else 0) = seats s f a + if g i = some a then 1 else 0 := by
  have hf := seats_insert (f := f) (Finset.notMem_erase i s) a
  have hg := seats_insert (f := g) (Finset.notMem_erase i s) a
  rw [Finset.insert_erase hi] at hf hg
  have hrest : seats (s.erase i) g a = seats (s.erase i) f a :=
    seats_congr (fun j hj => hothers j (Finset.ne_of_mem_erase hj)) a
  omega

/-- A place that falls vacant is taken from its holder. -/
theorem seats_vacated (hi : i ∈ s) (hbefore : f i = some b) (hafter : g i = none)
    (hothers : ∀ j, j ≠ i → g j = f j) (a : α) :
    seats s f a = seats s g a + if a = b then 1 else 0 := by
  have hchange := seats_change hi hothers a
  rw [hbefore, hafter] at hchange
  simpa [eq_comm] using hchange.symm

/-- The places up to the next one. -/
theorem seats_range_succ (n : ℕ) (f : ℕ → Option α) (a : α) :
    seats (Finset.range (n + 1)) f a = seats (Finset.range n) f a + if f n = some a then 1 else 0 := by
  rw [Finset.range_add_one]
  exact seats_insert Finset.notMem_range_self a

end Occupancy
