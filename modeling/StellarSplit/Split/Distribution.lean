import Mathlib.Data.List.GetD
import StellarSplit.Lib.Proportion
import StellarSplit.Lib.Slots
import StellarSplit.Split.Rebalance

/-!
# Distribution by largest remainders

A total is divided by ratios out of a denominator: each share is rounded down, and the
units that are left over go one by one to the largest remainders. The indices of the
recipients are sorted in an array of fixed size.
-/

namespace StellarSplit.Split.Distribution

open Exec Machine Proportion Slots

/-! ## Fixed-point helpers -/

def mulDiv (a b d : ℤ) : Result ℤ :=
  if d ≤ 0 then .error (.error .arithmeticOverflow)
  else if a < 0 ∨ b < 0 then .error (.error .arithmeticOverflow)
  else
    match checkedMulI128 a b with
    | some product => .ok (product / d)
    | none => .error (.error .arithmeticOverflow)

def mulMod (a b d : ℤ) : Result ℤ :=
  if d ≤ 0 then .error (.error .arithmeticOverflow)
  else
    match checkedMulI128 a b with
    | some product => .ok (product % d)
    | none =>
        if a < 0 ∨ b < 0 then .error (.error .arithmeticOverflow)
        else
          match checkedMulI128 (Int.tmod a d) (Int.tmod b d) with
          | some reduced => .ok (Int.tmod reduced d)
          | none => .error (.error .arithmeticOverflow)

/-! ## The distribution -/

def maxRecipients : ℕ := 64

/-- The floor share and the remainder of one ratio. -/
def floorShare (total denom r : ℤ) : Result (ℤ × ℤ) := do
  let share ← mulDiv total r denom
  let rem ← mulMod total r denom
  .ok (share, rem)

/-- `prev_rem >= key_rem` -/
def Stays (remainders : List ℤ) (prev key : ℕ) : Prop := remainders.getD key 0 ≤ remainders.getD prev 0

instance (remainders : List ℤ) : DecidableRel (Stays remainders) :=
  fun _ _ => inferInstanceAs (Decidable (_ ≤ _))

def sortedIndices (remainders : List ℤ) (n : ℕ) : List ℕ :=
  let indices := (List.range n).foldl (fun xs i => xs.set i i) (List.replicate maxRecipients 0)
  sortFirst (Stays remainders) n indices

def raiseShare (shares : List ℤ) (idx : ℕ) : Result (List ℤ) := do
  let raised ← plainAdd (shares.getD idx 0) 1
  if idx < shares.length then .ok (shares.set idx raised) else .error (.panic "index out of bounds")

/-- The share that stands at a place of the index array gets one more unit. -/
def addExtra (indices : List ℕ) (shares : List ℤ) (i : ℕ) : Result (List ℤ) :=
  match indices[i]? with
  | some idx => raiseShare shares idx
  | none => .error (.panic "index out of bounds")

/-- `usize` is a `u32` on the target the contract is built for. -/
def distributeWithRemainder (total : ℤ) (ratios : List ℤ) (denom : ℤ) : Result (List ℤ) :=
  if ratios = [] then .error (.error .invalidAmount)
  else if denom ≤ 0 then .error (.error .invalidAmount)
  else do
    let parts ← ratios.mapM (floorShare total denom)
    let distributed ← (parts.map Prod.fst).foldlM plainAdd 0
    let rest ← plainAdd total (-distributed)
    let leftover := asU32 rest
    if maxRecipients < ratios.length then .error (.error .invalidAmount)
    else
      let indices := sortedIndices (parts.map Prod.snd) ratios.length
      (List.range leftover).foldlM (addExtra indices) (parts.map Prod.fst)

variable {total denom : ℤ} {ratios shares : List ℤ}

/-! ## The shares before the rest is given out -/

def remainder (total denom r : ℤ) : ℤ := total * r % denom

/-- Some product is refused by the checked helpers, or there is nothing to divide by. -/
def Rejected (total : ℤ) (ratios : List ℤ) (denom : ℤ) : Prop :=
  ratios = [] ∨ denom ≤ 0 ∨ ∃ r ∈ ratios, total < 0 ∨ r < 0 ∨ i128Max < total * r

instance (total : ℤ) (ratios : List ℤ) (denom : ℤ) : Decidable (Rejected total ratios denom) :=
  inferInstanceAs (Decidable (_ ∨ _))

theorem floorShare_run {r : ℤ} (hdenom : 0 < denom) (htotal : 0 ≤ total) (hr : 0 ≤ r)
    (hfits : total * r ≤ i128Max) :
    floorShare total denom r = .ok (part total denom r, remainder total denom r) := by
  have hin : InI128 (total * r) := ⟨(by norm_num [i128Min] : i128Min ≤ 0).trans (mul_nonneg htotal hr), hfits⟩
  have hsign : ¬(total < 0 ∨ r < 0) := by omega
  have hproduct : checkedMulI128 total r = some (total * r) := if_pos hin
  rw [floorShare, mulDiv, mulMod, if_neg hdenom.not_ge, if_neg hsign, if_neg hdenom.not_ge, hproduct]
  rfl

theorem floorShare_fails {r : ℤ} (hdenom : 0 < denom) (h : total < 0 ∨ r < 0 ∨ i128Max < total * r) :
    floorShare total denom r = .error (.error .arithmeticOverflow) := by
  have hdiv : mulDiv total r denom = .error (.error .arithmeticOverflow) := by
    rw [mulDiv, if_neg hdenom.not_ge]
    by_cases hsign : total < 0 ∨ r < 0
    · rw [if_pos hsign]
    · have hlarge : i128Max < total * r := by omega
      have hproduct : checkedMulI128 total r = none := if_neg fun hin => hlarge.not_ge hin.2
      rw [if_neg hsign, hproduct]
  rw [floorShare, hdiv]
  rfl

theorem floorShares_fail (hdenom : 0 < denom)
    (h : ∃ r ∈ ratios, total < 0 ∨ r < 0 ∨ i128Max < total * r) :
    ratios.mapM (floorShare total denom) = .error (.error .arithmeticOverflow) := by
  induction ratios with
  | nil => simp at h
  | cons r ratios ih =>
      rw [List.mapM_cons]
      by_cases hbad : total < 0 ∨ r < 0 ∨ i128Max < total * r
      · rw [floorShare_fails hdenom hbad]
        rfl
      · obtain ⟨x, hx, hxbad⟩ := h
        have htail : x ∈ ratios := by
          rcases List.mem_cons.1 hx with rfl | hx
          · exact absurd hxbad hbad
          · exact hx
        rw [floorShare_run hdenom (by omega) (by omega) (by omega), ih ⟨x, htail, hxbad⟩]
        rfl

theorem distribute_rejected (h : Rejected total ratios denom) :
    ∃ e, distributeWithRemainder total ratios denom = .error (.error e) := by
  unfold distributeWithRemainder
  by_cases hempty : ratios = []
  · exact ⟨_, if_pos hempty⟩
  · rw [if_neg hempty]
    by_cases hdenom : denom ≤ 0
    · exact ⟨_, if_pos hdenom⟩
    · have hbad := (h.resolve_left hempty).resolve_left hdenom
      rw [if_neg hdenom, floorShares_fail (by omega) hbad]
      exact ⟨_, rfl⟩

/-- The shares of the ratios, rounded down. -/
def floors (total : ℤ) (ratios : List ℤ) (denom : ℤ) : List ℤ := ratios.map (part total denom)

/-- What the floor shares leave of the total. -/
def spare (total : ℤ) (ratios : List ℤ) (denom : ℤ) : ℤ := total - (floors total ratios denom).sum

section Accepted

variable (haccepted : ¬Rejected total ratios denom)
include haccepted

theorem accepted_parts : ratios ≠ [] ∧ 0 < denom ∧ 0 ≤ total ∧
    ∀ r ∈ ratios, 0 ≤ r ∧ total * r ≤ i128Max := by
  unfold Rejected at haccepted
  push Not at haccepted
  obtain ⟨hne, hdenom, hratios⟩ := haccepted
  obtain ⟨r, hr⟩ := List.exists_mem_of_ne_nil ratios hne
  exact ⟨hne, hdenom, (hratios r hr).1, fun x hx => (hratios x hx).2⟩

theorem floors_nonneg : ∀ x ∈ floors total ratios denom, 0 ≤ x := by
  obtain ⟨-, hdenom, htotal, hratios⟩ := accepted_parts haccepted
  exact parts_nonneg htotal hdenom.le fun r hr => (hratios r hr).1

theorem floorShares_run : ratios.mapM (floorShare total denom) =
    .ok (ratios.map fun r => (part total denom r, remainder total denom r)) := by
  obtain ⟨-, hdenom, htotal, hratios⟩ := accepted_parts haccepted
  exact Rebalance.mapM_ok_map fun r hr => floorShare_run hdenom htotal (hratios r hr).1 (hratios r hr).2

theorem distribute_accepted : distributeWithRemainder total ratios denom = (do
    let distributed ← (floors total ratios denom).foldlM plainAdd 0
    let rest ← plainAdd total (-distributed)
    if maxRecipients < ratios.length then .error (.error .invalidAmount)
    else
      (List.range (asU32 rest)).foldlM
        (addExtra (sortedIndices (ratios.map (remainder total denom)) ratios.length))
        (floors total ratios denom)) := by
  obtain ⟨hne, hdenom, -, -⟩ := accepted_parts haccepted
  have hfirst : (ratios.map fun r => (part total denom r, remainder total denom r)).map Prod.fst =
      floors total ratios denom := List.map_map
  have hsecond : (ratios.map fun r => (part total denom r, remainder total denom r)).map Prod.snd =
      ratios.map (remainder total denom) := List.map_map
  rw [distributeWithRemainder, if_neg hne, if_neg hdenom.not_ge, floorShares_run haccepted]
  simp only [bind, Except.bind, hfirst, hsecond]

end Accepted

/-! ## Units given out by index -/

/-- One more unit for every index of a list. -/
def raisedBy (shares : List ℤ) (indices : List ℕ) : List ℤ :=
  indices.foldl (fun xs i => xs.set i (xs.getD i 0 + 1)) shares

theorem raisedBy_cons (shares : List ℤ) (i : ℕ) (indices : List ℕ) :
    raisedBy shares (i :: indices) = raisedBy (shares.set i (shares.getD i 0 + 1)) indices := rfl

theorem length_raisedBy (shares : List ℤ) (indices : List ℕ) :
    (raisedBy shares indices).length = shares.length := by
  induction indices generalizing shares with
  | nil => rfl
  | cons i indices ih => rw [raisedBy_cons, ih, List.length_set]

theorem getD_raisedBy {i : ℕ} (indices : List ℕ) (hi : i < shares.length) :
    (raisedBy shares indices).getD i 0 = shares.getD i 0 + indices.count i := by
  induction indices generalizing shares with
  | nil => simp [raisedBy]
  | cons j indices ih =>
      rw [raisedBy_cons, ih (by rwa [List.length_set]), List.count_cons]
      by_cases hij : j = i
      · subst hij
        simp [List.getD_eq_getElem?_getD, hi]
        ring
      · simp [List.getD_eq_getElem?_getD, hij]

theorem sum_set_succ {i : ℕ} (hi : i < shares.length) :
    (shares.set i (shares.getD i 0 + 1)).sum = shares.sum + 1 := by
  induction shares generalizing i with
  | nil => simp at hi
  | cons x shares ih =>
      cases i with
      | zero => simp; ring
      | succ i =>
          have hrest := ih (Nat.lt_of_succ_lt_succ hi)
          simp only [List.getD_cons_succ, List.set_cons_succ, List.sum_cons, hrest]
          ring

theorem sum_raisedBy {indices : List ℕ} (h : ∀ i ∈ indices, i < shares.length) :
    (raisedBy shares indices).sum = shares.sum + indices.length := by
  induction indices generalizing shares with
  | nil => simp [raisedBy]
  | cons i indices ih =>
      have hrest : ∀ j ∈ indices, j < (shares.set i (shares.getD i 0 + 1)).length := by
        intro j hj
        rw [List.length_set]
        exact h j (by simp [hj])
      rw [raisedBy_cons, ih hrest, sum_set_succ (h i (by simp)), List.length_cons]
      push_cast
      ring

theorem raiseShare_ok {xs : List ℤ} {i : ℕ} (h : raiseShare shares i = .ok xs) :
    i < shares.length ∧ xs = raisedBy shares [i] := by
  unfold raiseShare at h
  obtain ⟨raised, hraised, h⟩ := except_bind_ok.1 h
  split_ifs at h with hi
  refine ⟨hi, ?_⟩
  rw [← Except.ok.inj h, Rebalance.plainAdd_ok hraised]
  rfl

theorem raiseShare_run {i : ℕ} (hi : i < shares.length) (hnonneg : ∀ x ∈ shares, 0 ≤ x)
    (hfits : shares.sum + 1 ≤ i128Max) : raiseShare shares i = .ok (raisedBy shares [i]) := by
  have hmem : shares.getD i 0 ∈ shares := by
    rw [List.getD_eq_getElem _ _ hi]
    exact List.getElem_mem hi
  have hle : shares.getD i 0 ≤ shares.sum := List.single_le_sum hnonneg _ hmem
  have hzero : i128Min ≤ 0 := by norm_num [i128Min]
  have hin : InI128 (shares.getD i 0 + 1) := ⟨by linarith [hnonneg _ hmem], by linarith⟩
  rw [raiseShare, Rebalance.plainAdd_run hin]
  exact if_pos hi

theorem raiseEach_ok {xs : List ℤ} {indices : List ℕ} (h : indices.foldlM raiseShare shares = .ok xs) :
    (∀ i ∈ indices, i < shares.length) ∧ xs = raisedBy shares indices := by
  induction indices generalizing shares with
  | nil =>
      cases h
      exact ⟨by simp, rfl⟩
  | cons i indices ih =>
      rw [List.foldlM_cons] at h
      obtain ⟨next, hnext, hrest⟩ := except_bind_ok.1 h
      obtain ⟨hi, rfl⟩ := raiseShare_ok hnext
      obtain ⟨hall, rfl⟩ := ih hrest
      refine ⟨?_, rfl⟩
      intro j hj
      rcases List.mem_cons.1 hj with rfl | hj
      · exact hi
      · simpa [length_raisedBy] using hall j hj

theorem raiseEach_run {indices : List ℕ} (h : ∀ i ∈ indices, i < shares.length)
    (hnonneg : ∀ x ∈ shares, 0 ≤ x) (hfits : shares.sum + indices.length ≤ i128Max) :
    indices.foldlM raiseShare shares = .ok (raisedBy shares indices) := by
  induction indices generalizing shares with
  | nil => rfl
  | cons i indices ih =>
      have hi : i < shares.length := h i (by simp)
      have hsum : (raisedBy shares [i]).sum = shares.sum + 1 := sum_set_succ hi
      rw [List.length_cons] at hfits
      push_cast at hfits
      have hstep : raiseShare shares i = .ok (raisedBy shares [i]) :=
        raiseShare_run hi hnonneg (by linarith [Int.natCast_nonneg indices.length])
      rw [List.foldlM_cons, hstep]
      refine ih ?_ ?_ (by linarith)
      · intro j hj
        rw [length_raisedBy]
        exact h j (by simp [hj])
      · intro x hx
        obtain ⟨j, hj, rfl⟩ := List.mem_iff_getElem.1 hx
        rw [length_raisedBy] at hj
        rw [← List.getD_eq_getElem _ 0, getD_raisedBy [i] hj, List.getD_eq_getElem _ _ hj]
        linarith [hnonneg _ (List.getElem_mem hj), Int.natCast_nonneg ([i].count j)]

/-! ## The index array -/

theorem extras_eq {indices : List ℕ} {k : ℕ} (hk : k ≤ indices.length) (shares : List ℤ) :
    (List.range k).foldlM (addExtra indices) shares = (indices.take k).foldlM raiseShare shares := by
  induction k with
  | zero => rfl
  | succ k ih =>
      have hlt : k < indices.length := hk
      rw [List.range_succ, List.foldlM_append, ih hlt.le, List.take_succ_eq_append_getElem hlt,
        List.foldlM_append]
      refine congrArg _ (funext fun xs => ?_)
      simp [addExtra, hlt]

/-- An index behind the array traps. -/
theorem extras_within {indices : List ℕ} {xs : List ℤ} {k : ℕ}
    (h : (List.range k).foldlM (addExtra indices) shares = .ok xs) : k ≤ indices.length := by
  cases k with
  | zero => exact Nat.zero_le _
  | succ k =>
      rw [List.range_succ, List.foldlM_append] at h
      obtain ⟨next, -, hlast⟩ := except_bind_ok.1 h
      rw [List.foldlM_cons] at hlast
      obtain ⟨last, hlast, -⟩ := except_bind_ok.1 hlast
      rcases lt_or_ge k indices.length with hlt | hge
      · exact hlt
      · rw [addExtra, List.getElem?_eq_none hge] at hlast
        cases hlast

theorem addExtra_traps {indices : List ℕ} {i : ℕ} {e : ContractError} :
    addExtra indices shares i ≠ .error (.error e) := by
  unfold addExtra
  cases indices[i]? with
  | none => simp
  | some idx =>
      intro h
      simp only [raiseShare, plainAdd] at h
      split_ifs at h <;> cases h

theorem extras_trap {indices : List ℕ} {ks : List ℕ} {e : ContractError} :
    ks.foldlM (addExtra indices) shares ≠ .error (.error e) := by
  induction ks generalizing shares with
  | nil => simp [pure, Except.pure]
  | cons k ks ih =>
      rw [List.foldlM_cons]
      cases hstep : addExtra indices shares k with
      | error fault =>
          intro h
          cases h
          exact addExtra_traps hstep
      | ok next => exact ih

theorem filled_range {n : ℕ} (hn : n ≤ maxRecipients) :
    (List.range n).foldl (fun xs i => xs.set i i) (List.replicate maxRecipients 0) =
      List.range n ++ List.replicate (maxRecipients - n) 0 := by
  induction n with
  | zero => rfl
  | succ n ih =>
      have hroom : maxRecipients - n = maxRecipients - (n + 1) + 1 := by omega
      rw [List.range_succ, List.foldl_append, ih (by omega), hroom, List.replicate_succ]
      simp

def ranking (remainders : List ℤ) (n : ℕ) : List ℕ := arranged (Stays remainders) (List.range n)

section Ranking

variable {remainders : List ℤ} {n : ℕ}

theorem ranking_perm : (ranking remainders n).Perm (List.range n) := arranged_perm _

theorem length_ranking : (ranking remainders n).length = n := by rw [ranking, length_arranged, List.length_range]

theorem ranking_sorted : (ranking remainders n).Pairwise (Leads (Stays remainders) (· < ·)) := by
  apply arranged_sorted
  · exact fun _ _ _ hab hbc => le_trans hbc hab
  · exact fun _ _ => le_total _ _
  · exact List.pairwise_lt_range

theorem sortedIndices_eq (hn : n ≤ maxRecipients) :
    sortedIndices remainders n = ranking remainders n ++ List.replicate (maxRecipients - n) 0 := by
  have hlength : n ≤ (List.range n ++ List.replicate (maxRecipients - n) 0).length := by simp
  rw [sortedIndices, filled_range hn, sortFirst_eq hlength, ranking]
  simp

theorem length_sortedIndices (hn : n ≤ maxRecipients) :
    (sortedIndices remainders n).length = maxRecipients := by
  rw [sortedIndices_eq hn, List.length_append, length_ranking, List.length_replicate]
  omega

theorem sortedIndices_lt (hpos : 0 < n) (hn : n ≤ maxRecipients) :
    ∀ i ∈ sortedIndices remainders n, i < n := by
  intro i hi
  rw [sortedIndices_eq hn] at hi
  rcases List.mem_append.1 hi with hi | hi
  · exact List.mem_range.1 (ranking_perm.mem_iff.1 hi)
  · rwa [(List.mem_replicate.1 hi).2]

end Ranking

/-! ## Runs -/

theorem sum_overflows {xs : List ℤ} {start : ℤ} (hxs : ∀ x ∈ xs, 0 ≤ x) (hstart : 0 ≤ start)
    (hfits : start ≤ i128Max) (hlarge : i128Max < start + xs.sum) :
    xs.foldlM plainAdd start = .error .overflow := by
  induction xs generalizing start with
  | nil => simp at hlarge; omega
  | cons x xs ih =>
      have hx : 0 ≤ x := hxs x (by simp)
      rw [List.sum_cons, ← add_assoc] at hlarge
      rw [List.foldlM_cons]
      by_cases hin : InI128 (start + x)
      · rw [Rebalance.plainAdd_run hin]
        exact ih (fun y hy => hxs y (by simp [hy])) (by omega) hin.2 hlarge
      · rw [plainAdd, if_neg hin]
        rfl

/-- The indices of the shares that get one more unit. -/
def extras (total : ℤ) (ratios : List ℤ) (denom : ℤ) (k : ℕ) : List ℕ :=
  (sortedIndices (ratios.map (remainder total denom)) ratios.length).take k

theorem length_extras (hn : ratios.length ≤ maxRecipients) {k : ℕ} (hk : k ≤ maxRecipients) :
    (extras total ratios denom k).length = k := by
  rw [extras, List.length_take, length_sortedIndices hn, Nat.min_eq_left hk]

section Runs

variable (haccepted : ¬Rejected total ratios denom)
include haccepted

theorem floors_sum_nonneg : 0 ≤ (floors total ratios denom).sum := List.sum_nonneg (floors_nonneg haccepted)

theorem distribute_overflows (hlarge : i128Max < (floors total ratios denom).sum) :
    distributeWithRemainder total ratios denom = .error .overflow := by
  have hsum := sum_overflows (floors_nonneg haccepted) le_rfl (by norm_num [i128Max]) (by rwa [zero_add])
  rw [distribute_accepted haccepted, hsum]
  rfl

theorem distribute_fits (htotal : total ≤ i128Max) (hfits : (floors total ratios denom).sum ≤ i128Max) :
    distributeWithRemainder total ratios denom =
      if maxRecipients < ratios.length then .error (.error .invalidAmount)
      else
        (List.range (asU32 (spare total ratios denom))).foldlM
          (addExtra (sortedIndices (ratios.map (remainder total denom)) ratios.length))
          (floors total ratios denom) := by
  obtain ⟨-, -, hpos, -⟩ := accepted_parts haccepted
  have hnonneg := floors_sum_nonneg haccepted
  have hsum := Rebalance.sum_run (floors_nonneg haccepted) le_rfl (by rwa [zero_add])
  rw [zero_add] at hsum
  have hbound : i128Min ≤ -i128Max := by norm_num [i128Min, i128Max]
  have hrest : plainAdd total (-(floors total ratios denom).sum) = .ok (spare total ratios denom) :=
    Rebalance.plainAdd_run ⟨by linarith, by linarith⟩
  rw [distribute_accepted haccepted, hsum]
  simp only [bind, Except.bind, hrest]

theorem extras_lt (hn : ratios.length ≤ maxRecipients) (k : ℕ) :
    ∀ i ∈ extras total ratios denom k, i < (floors total ratios denom).length := by
  obtain ⟨hne, -, -, -⟩ := accepted_parts haccepted
  intro i hi
  rw [floors, List.length_map]
  exact sortedIndices_lt (List.length_pos_iff.2 hne) hn i (List.mem_of_mem_take hi)

theorem sum_extras (hn : ratios.length ≤ maxRecipients) {k : ℕ} (hk : k ≤ maxRecipients) :
    (raisedBy (floors total ratios denom) (extras total ratios denom k)).sum =
      (floors total ratios denom).sum + k := by
  rw [sum_raisedBy (extras_lt haccepted hn k), length_extras hn hk]

theorem extras_run (hn : ratios.length ≤ maxRecipients) {k : ℕ} (hk : k ≤ maxRecipients)
    (hfits : (floors total ratios denom).sum + k ≤ i128Max) :
    (List.range k).foldlM (addExtra (sortedIndices (ratios.map (remainder total denom)) ratios.length))
        (floors total ratios denom) =
      .ok (raisedBy (floors total ratios denom) (extras total ratios denom k)) := by
  rw [extras_eq (by rwa [length_sortedIndices hn])]
  refine raiseEach_run (extras_lt haccepted hn k) (floors_nonneg haccepted) ?_
  rwa [← extras, length_extras hn hk]

end Runs

/-! ## When the distribution answers -/

/-- An error, or shares that sum to the total; no trap. -/
def Answers (total : ℤ) (result : Result (List ℤ)) : Prop :=
  (∃ e, result = .error (.error e)) ∨ ∃ xs, result = .ok xs ∧ xs.sum = total

/-- The floor shares sum to a word, and what they leave of the total fits the index array. -/
def Distributable (total : ℤ) (ratios : List ℤ) (denom : ℤ) : Prop :=
  Rejected total ratios denom ∨ (floors total ratios denom).sum ≤ i128Max ∧
    (maxRecipients < ratios.length ∨
      0 ≤ spare total ratios denom ∧ spare total ratios denom ≤ maxRecipients)

theorem asU32_natCast {a : ℤ} (h₀ : 0 ≤ a) (h₁ : a ≤ maxRecipients) : (asU32 a : ℤ) = a := by
  have hmax : (maxRecipients : ℤ) = 64 := rfl
  have hlt : a < 2 ^ 32 := by omega
  rw [asU32, Int.emod_eq_of_lt h₀ hlt, Int.toNat_of_nonneg h₀]

theorem answers_of_distributable (htotal : total ≤ i128Max) (h : Distributable total ratios denom) :
    Answers total (distributeWithRemainder total ratios denom) := by
  by_cases hrejected : Rejected total ratios denom
  · exact .inl (distribute_rejected hrejected)
  obtain ⟨hfits, hrest⟩ := h.resolve_left hrejected
  rw [distribute_fits hrejected htotal hfits]
  by_cases hmany : maxRecipients < ratios.length
  · exact .inl ⟨_, if_pos hmany⟩
  · obtain ⟨hnonneg, hle⟩ := hrest.resolve_left hmany
    have hcast := asU32_natCast hnonneg hle
    have hsmall : asU32 (spare total ratios denom) ≤ maxRecipients := by exact_mod_cast hcast.trans_le hle
    have hsum : (floors total ratios denom).sum + asU32 (spare total ratios denom) = total := by
      rw [hcast, spare]
      ring
    rw [if_neg hmany]
    refine .inr ⟨_, extras_run hrejected (not_lt.1 hmany) hsmall (by rwa [hsum]), ?_⟩
    rw [sum_extras hrejected (not_lt.1 hmany) hsmall, hsum]

theorem distributable_of_answers (htotal : total ≤ i128Max)
    (h : Answers total (distributeWithRemainder total ratios denom)) : Distributable total ratios denom := by
  by_cases hrejected : Rejected total ratios denom
  · exact .inl hrejected
  refine .inr ?_
  rcases lt_or_ge i128Max (floors total ratios denom).sum with hlarge | hfits
  · rw [distribute_overflows hrejected hlarge] at h
    rcases h with ⟨e, h⟩ | ⟨xs, h, -⟩ <;> cases h
  refine ⟨hfits, ?_⟩
  by_cases hmany : maxRecipients < ratios.length
  · exact .inl hmany
  rw [distribute_fits hrejected htotal hfits, if_neg hmany] at h
  rcases h with ⟨e, h⟩ | ⟨xs, h, hsum⟩
  · exact absurd h extras_trap
  · have hk := extras_within h
    rw [extras_eq hk] at h
    obtain ⟨-, rfl⟩ := raiseEach_ok h
    rw [length_sortedIndices (not_lt.1 hmany)] at hk
    rw [← extras, sum_extras hrejected (not_lt.1 hmany) hk] at hsum
    have hspare : spare total ratios denom = asU32 (spare total ratios denom) := by
      rw [spare] at hsum ⊢
      linarith
    refine .inr ⟨?_, ?_⟩
    · rw [hspare]
      exact Int.natCast_nonneg _
    · rw [hspare]
      exact_mod_cast hk

/-- With the sum of the ratios as the denominator less than one unit a recipient is left over. -/
theorem spare_bounds (haccepted : ¬Rejected total ratios denom) (hsum : ratios.sum = denom) :
    0 ≤ spare total ratios denom ∧ spare total ratios denom < ratios.length := by
  obtain ⟨-, hdenom, -, -⟩ := accepted_parts haccepted
  exact ⟨sub_nonneg.2 (sum_part_le hdenom hsum total), rest_lt hdenom hsum total⟩

theorem distributable_of_sum (htotal : total ≤ i128Max) (hsum : ratios.sum = denom) :
    Distributable total ratios denom := by
  by_cases hrejected : Rejected total ratios denom
  · exact .inl hrejected
  obtain ⟨hnonneg, hlt⟩ := spare_bounds hrejected hsum
  refine .inr ⟨(sub_nonneg.1 hnonneg).trans htotal, ?_⟩
  rcases lt_or_ge maxRecipients ratios.length with hmany | hfew
  · exact .inl hmany
  · have hbound : (ratios.length : ℤ) ≤ maxRecipients := by exact_mod_cast hfew
    exact .inr ⟨hnonneg, by linarith⟩

/-! ## Largest remainders -/

/-- The shares sum to the total, each is its floor or one more, and the larger remainders,
then the lower indices, come first. -/
structure LargestRemainder (total denom : ℤ) (ratios shares : List ℤ) : Prop where
  length : shares.length = ratios.length
  sum : shares.sum = total
  floors : ∀ i < ratios.length, shares.getD i 0 = part total denom (ratios.getD i 0) ∨
    shares.getD i 0 = part total denom (ratios.getD i 0) + 1
  largest : ∀ i < ratios.length, ∀ j < ratios.length,
    shares.getD i 0 = part total denom (ratios.getD i 0) + 1 →
      shares.getD j 0 = part total denom (ratios.getD j 0) →
        remainder total denom (ratios.getD j 0) < remainder total denom (ratios.getD i 0) ∨
          remainder total denom (ratios.getD j 0) = remainder total denom (ratios.getD i 0) ∧ i < j

theorem getD_floors {i : ℕ} (hi : i < ratios.length) :
    (floors total ratios denom).getD i 0 = part total denom (ratios.getD i 0) := by
  have hlt : i < (floors total ratios denom).length := by rwa [floors, List.length_map]
  rw [List.getD_eq_getElem _ _ hlt, List.getD_eq_getElem _ _ hi]
  exact List.getElem_map _

theorem getD_remainders {i : ℕ} (hi : i < ratios.length) :
    (ratios.map (remainder total denom)).getD i 0 = remainder total denom (ratios.getD i 0) := by
  have hlt : i < (ratios.map (remainder total denom)).length := by rwa [List.length_map]
  rw [List.getD_eq_getElem _ _ hlt, List.getD_eq_getElem _ _ hi, List.getElem_map]

theorem extras_eq_ranking (hn : ratios.length ≤ maxRecipients) {k : ℕ} (hk : k ≤ ratios.length) :
    extras total ratios denom k = (ranking (ratios.map (remainder total denom)) ratios.length).take k := by
  rw [extras, sortedIndices_eq hn, List.take_append_of_le_length (by rwa [length_ranking])]

theorem nodup_extras (hn : ratios.length ≤ maxRecipients) {k : ℕ} (hk : k ≤ ratios.length) :
    (extras total ratios denom k).Nodup := by
  rw [extras_eq_ranking hn hk]
  exact (ranking_perm.nodup_iff.2 List.nodup_range).sublist (List.take_sublist _ _)

/-- The indices that get a unit lead all the others. -/
theorem extras_lead (hn : ratios.length ≤ maxRecipients) {k i j : ℕ} (hk : k ≤ ratios.length)
    (hi : i ∈ extras total ratios denom k) (hj : j < ratios.length) (hout : j ∉ extras total ratios denom k) :
    Leads (Stays (ratios.map (remainder total denom))) (· < ·) i j := by
  rw [extras_eq_ranking hn hk] at hi hout
  have hsorted : (ranking (ratios.map (remainder total denom)) ratios.length).Pairwise _ := ranking_sorted
  rw [← List.take_append_drop k (ranking _ _)] at hsorted
  refine (List.pairwise_append.1 hsorted).2.2 i hi j ?_
  have hmem : j ∈ ranking (ratios.map (remainder total denom)) ratios.length :=
    ranking_perm.mem_iff.2 (List.mem_range.2 hj)
  rw [← List.take_append_drop k (ranking _ _)] at hmem
  exact (List.mem_append.1 hmem).resolve_left hout

/-- The ratios are not all zero, so that the total is at most one of the products. -/
theorem total_le_of_sum (hratios : ∀ r ∈ ratios, 0 ≤ r) (hsum : ratios.sum = denom) (hdenom : 0 < denom)
    (htotal : 0 ≤ total) (hfits : ∀ r ∈ ratios, total * r ≤ i128Max) : total ≤ i128Max := by
  have hsome : ∃ r ∈ ratios, 0 < r := by
    by_contra hnone
    push Not at hnone
    have hzero : ratios.sum = 0 := List.sum_eq_zero fun r hr => le_antisymm (hnone r hr) (hratios r hr)
    omega
  obtain ⟨r, hr, hpos⟩ := hsome
  calc total = total * 1 := (mul_one total).symm
    _ ≤ total * r := mul_le_mul_of_nonneg_left hpos htotal
    _ ≤ i128Max := hfits r hr

theorem largestRemainder_raisedBy (haccepted : ¬Rejected total ratios denom)
    (hn : ratios.length ≤ maxRecipients) {k : ℕ} (hk : k ≤ ratios.length)
    (hspare : spare total ratios denom = k) :
    LargestRemainder total denom ratios
      (raisedBy (floors total ratios denom) (extras total ratios denom k)) := by
  have hlength : (floors total ratios denom).length = ratios.length := List.length_map _
  have hshare : ∀ i < ratios.length,
      (raisedBy (floors total ratios denom) (extras total ratios denom k)).getD i 0 =
        part total denom (ratios.getD i 0) + (extras total ratios denom k).count i := by
    intro i hi
    rw [getD_raisedBy _ (by rwa [hlength]), getD_floors hi]
  have hcount : ∀ i, (extras total ratios denom k).count i =
      if i ∈ extras total ratios denom k then 1 else 0 := fun i => (nodup_extras hn hk).count
  refine ⟨by rw [length_raisedBy, hlength], ?_, ?_, ?_⟩
  · rw [sum_extras haccepted hn (hk.trans hn), ← hspare, spare]
    ring
  · intro i hi
    rw [hshare i hi, hcount]
    split_ifs <;> simp
  · intro i hi j hj hraised hfloor
    rw [hshare i hi, hcount] at hraised
    rw [hshare j hj, hcount] at hfloor
    have hin : i ∈ extras total ratios denom k := by
      by_contra hout
      simp [hout] at hraised
    have hout : j ∉ extras total ratios denom k := by
      intro hin
      simp [hin] at hfloor
    obtain ⟨hle, htie⟩ := extras_lead hn hk hin hj hout
    unfold Stays at hle htie
    rw [getD_remainders hi, getD_remainders hj] at hle htie
    rcases hle.lt_or_eq with hlt | heq
    · exact .inl hlt
    · exact .inr ⟨heq, htie heq.ge⟩

theorem distribution_exact (total : ℤ) (ratios : List ℤ) (denom : ℤ) (htotal : 0 ≤ total)
    (hlength : 1 ≤ ratios.length ∧ ratios.length ≤ 64) (hratios : ∀ r ∈ ratios, 0 ≤ r)
    (hsum : ratios.sum = denom) (hdenom : 0 < denom) (hfits : ∀ r ∈ ratios, total * r ≤ i128Max) :
    ∃ shares, distributeWithRemainder total ratios denom = .ok shares ∧
      LargestRemainder total denom ratios shares := by
  have hn : ratios.length ≤ maxRecipients := hlength.2
  have haccepted : ¬Rejected total ratios denom := by
    rintro (rfl | h | ⟨r, hr, h | h | h⟩)
    · simp at hlength
    · omega
    · omega
    · exact absurd (hratios r hr) h.not_ge
    · exact absurd (hfits r hr) h.not_ge
  obtain ⟨hnonneg, hlt⟩ := spare_bounds haccepted hsum
  have hk : asU32 (spare total ratios denom) ≤ ratios.length := by
    have hcast := asU32_natCast hnonneg (hlt.le.trans (by exact_mod_cast hn))
    exact_mod_cast hcast.trans_le hlt.le
  have hspare : spare total ratios denom = asU32 (spare total ratios denom) :=
    (asU32_natCast hnonneg (hlt.le.trans (by exact_mod_cast hn))).symm
  have hword : total ≤ i128Max := total_le_of_sum hratios hsum hdenom htotal hfits
  have hfloors : (floors total ratios denom).sum ≤ i128Max := (sub_nonneg.1 hnonneg).trans hword
  refine ⟨_, ?_, largestRemainder_raisedBy haccepted hn hk hspare⟩
  rw [distribute_fits haccepted hword hfloors, if_neg hn.not_gt]
  refine extras_run haccepted hn (hk.trans hn) ?_
  rw [← hspare, spare]
  linarith

theorem distribution_exact_sample :
    ∃ shares, distributeWithRemainder 1000 [1, 3, 3] 7 = .ok shares ∧
      LargestRemainder 1000 7 [1, 3, 3] shares :=
  distribution_exact 1000 [1, 3, 3] 7 (by decide) (by decide) (by decide) (by decide) (by decide) (by decide)

/-! ## When it traps -/

theorem distribution_answers_iff (total : ℤ) (ratios : List ℤ) (denom : ℤ) (htotal : total ≤ i128Max) :
    (Answers total (distributeWithRemainder total ratios denom) ↔ Distributable total ratios denom) ∧
      (ratios.sum = denom → Answers total (distributeWithRemainder total ratios denom)) :=
  ⟨⟨distributable_of_answers htotal, answers_of_distributable htotal⟩,
    fun hsum => answers_of_distributable htotal (distributable_of_sum htotal hsum)⟩

theorem distribution_answers_sample :
    Answers 10 (distributeWithRemainder 10 [1, 1, 1] 3) :=
  (distribution_answers_iff 10 [1, 1, 1] 3 (by norm_num [i128Max])).2 (by decide)

/-- The ratios make up one percent of the denominator: 990 units are left for 64 slots. -/
theorem distribution_traps : ¬Answers 1000 (distributeWithRemainder 1000 [1] 100) := by
  have hrun : distributeWithRemainder 1000 [1] 100 = .error (.panic "index out of bounds") := by
    decide +kernel
  rw [hrun]
  rintro (⟨e, h⟩ | ⟨xs, h, -⟩) <;> cases h

end StellarSplit.Split.Distribution
