import Mathlib.Data.List.GetD
import StellarSplit.Lib.Slots
import StellarSplit.Split.Rebalance
import StellarSplit.Split.Records

/-!
# Partial releases

The creator pays a part of the funding out before the invoice is full. Without
priorities the part is divided in proportion and goes out as a whole; with priorities
each recipient in turn gets its amount when the rest covers it, and the whole part is
booked whether or not it was used up.
-/

namespace StellarSplit.Split.PartialRelease

open Exec Function Machine Slots

variable {env : Env} {s t : Store} {v : Unit} {id : ℕ} {inv : Invoice} {token : Address}

/-! ## The order of the recipients -/

def priorityAt (inv : Invoice) (i : ℕ) : ℕ := inv.priorities.getD i 0

/-- A lower priority comes first, and of two equal ones the lower index. -/
abbrev Before (inv : Invoice) : ℕ → ℕ → Prop :=
  Leads (fun i j => priorityAt inv i ≤ priorityAt inv j) (· < ·)

theorem before_antisymm {i j : ℕ} (hij : Before inv i j) (hji : Before inv j i) : i = j :=
  absurd (hji.2 hij.1) (Nat.lt_asymm (hij.2 hji.1))

theorem priorityOrder_ok {order : List ℕ} (h : priorityOrder inv = .ok order) :
    order.Perm (List.range inv.recipients.length) ∧ order.Pairwise (Before inv) := by
  obtain ⟨pairs, hpairs, h⟩ := except_bind_ok.1 h
  have hread : pairs = (List.range inv.recipients.length).map fun i => (i, priorityAt inv i) := by
    refine Rebalance.mapM_eq_map (fun i _ b hb => ?_) hpairs
    obtain ⟨p, hp, hb⟩ := except_bind_ok.1 hb
    rw [← Except.ok.inj hb, priorityAt, List.getD_eq_getElem?_getD, unwrap_ok.1 hp]
    rfl
  obtain rfl := Except.ok.inj h
  have hcame : pairs.Pairwise fun a b => a.1 < b.1 := by
    rw [hread, List.pairwise_map]
    exact List.pairwise_lt_range
  have hsorted : (pairs.insertionSort fun a b => a.2 ≤ b.2).Pairwise
      (Leads (fun a b => a.2 ≤ b.2) fun a b => a.1 < b.1) :=
    insertionSort_leads (fun _ _ _ => le_trans) (fun _ _ => le_total _ _) hcame
  have hperm := List.perm_insertionSort (fun a b : ℕ × ℕ => a.2 ≤ b.2) pairs
  refine ⟨?_, ?_⟩
  · refine (hperm.map Prod.fst).trans (List.Perm.of_eq ?_)
    rw [hread, List.map_map]
    exact List.map_id _
  · have hvalue : ∀ a ∈ pairs, a.2 = priorityAt inv a.1 := by
      intro a ha
      rw [hread] at ha
      obtain ⟨i, -, rfl⟩ := List.mem_map.1 ha
      rfl
    rw [List.pairwise_map]
    refine hsorted.imp_of_mem fun {a b} ha hb hab => ?_
    change priorityAt inv a.1 ≤ priorityAt inv b.1 ∧ (priorityAt inv b.1 ≤ priorityAt inv a.1 → a.1 < b.1)
    rwa [← hvalue a (hperm.mem_iff.1 ha), ← hvalue b (hperm.mem_iff.1 hb)]

/-! ### The selection sort of the source -/

/-- The position in the pool of the lowest priority, and that priority. -/
def findLowest (inv : Invoice) (pool : List ℕ) : Result (ℕ × ℕ) :=
  pool.zipIdx.foldlM (fun best ip => do
    let p ← unwrap inv.priorities[ip.1]?
    .ok (if p < best.2 then (ip.2, p) else best)) (0, u32Max)

/-- Pick the lowest priority out of the pool, round after round. -/
def selectFrom (inv : Invoice) : ℕ → List ℕ → Result (List ℕ)
  | 0, _ => .ok []
  | rounds + 1, pool => do
      let best ← findLowest inv pool
      let chosen ← unwrap pool[best.1]?
      let rest ← selectFrom inv rounds (pool.eraseIdx best.1)
      .ok (chosen :: rest)

def sortedIndices (inv : Invoice) : Result (List ℕ) :=
  selectFrom inv inv.recipients.length (List.range inv.recipients.length)

/-- A position of the lowest priority of a pool, the first of equal ones. -/
structure Lowest (inv : Invoice) (pool : List ℕ) (best : ℕ × ℕ) : Prop where
  least : ∀ j i : ℕ, pool[j]? = some i → best.2 ≤ priorityAt inv i
  first : ∀ j i : ℕ, pool[j]? = some i → j < best.1 → best.2 < priorityAt inv i
  found : best = (0, u32Max) ∨ ∃ i, pool[best.1]? = some i ∧ priorityAt inv i = best.2

theorem unwrap_priority {i : ℕ} (hi : i < inv.priorities.length) :
    unwrap inv.priorities[i]? = .ok (priorityAt inv i) := by
  rw [priorityAt, List.getD_eq_getElem?_getD, List.getElem?_eq_getElem hi]
  rfl

theorem findLowest_run {pool : List ℕ} (hpool : ∀ i ∈ pool, i < inv.priorities.length) :
    ∃ best, findLowest inv pool = .ok best ∧ Lowest inv pool best := by
  induction pool using List.reverseRecOn with
  | nil => exact ⟨(0, u32Max), rfl, ⟨by simp, by simp, .inl rfl⟩⟩
  | append_singleton pool x ih =>
      obtain ⟨best, hbest, hlowest⟩ := ih fun i hi => hpool i (by simp [hi])
      have hx := unwrap_priority (hpool x (by simp))
      have hlast : ∀ j i : ℕ, (pool ++ [x])[j]? = some i → pool[j]? = some i ∨ j = pool.length ∧ i = x := by
        intro j i hj
        rcases lt_trichotomy j pool.length with hlt | rfl | hgt
        · rw [List.getElem?_append_left hlt] at hj
          exact .inl hj
        · right
          simpa using hj.symm
        · rw [List.getElem?_eq_none (by simp; omega)] at hj
          cases hj
      have hrun : findLowest inv (pool ++ [x]) =
          .ok (if priorityAt inv x < best.2 then (pool.length, priorityAt inv x) else best) := by
        unfold findLowest at hbest ⊢
        rw [List.zipIdx_append, List.foldlM_append, hbest]
        simp [List.zipIdx_cons, hx, bind, Except.bind, pure, Except.pure]
      refine ⟨_, hrun, ?_⟩
      split_ifs with hlt
      · refine ⟨fun j i hj => ?_, fun j i hj hbefore => ?_, .inr ⟨x, by simp, rfl⟩⟩
        · rcases hlast j i hj with hj | ⟨-, rfl⟩
          · exact hlt.le.trans (hlowest.least j i hj)
          · exact le_rfl
        · rcases hlast j i hj with hj | ⟨rfl, -⟩
          · exact hlt.trans_le (hlowest.least j i hj)
          · exact absurd hbefore (lt_irrefl _)
      · refine ⟨fun j i hj => ?_, fun j i hj hbefore => ?_, ?_⟩
        · rcases hlast j i hj with hj | ⟨-, rfl⟩
          · exact hlowest.least j i hj
          · exact not_lt.1 hlt
        · rcases hlast j i hj with hj | ⟨rfl, -⟩
          · exact hlowest.first j i hj hbefore
          · rcases hlowest.found with rfl | ⟨i', hi', -⟩
            · exact absurd hbefore (Nat.not_lt_zero _)
            · exact absurd (List.getElem?_eq_some_iff.1 hi').1 (Nat.lt_asymm hbefore)
        · rcases hlowest.found with rfl | ⟨i', hi', hval⟩
          · exact .inl rfl
          · refine .inr ⟨i', ?_, hval⟩
            rw [List.getElem?_append_left (List.getElem?_eq_some_iff.1 hi').1]
            exact hi'

theorem Lowest.found_of_ne {pool : List ℕ} {best : ℕ × ℕ} (h : Lowest inv pool best) (hne : pool ≠ [])
    (hwords : ∀ i ∈ pool, priorityAt inv i ≤ u32Max) :
    ∃ i, pool[best.1]? = some i ∧ priorityAt inv i = best.2 := by
  rcases h.found with rfl | hfound
  · obtain ⟨i, pool, rfl⟩ := List.exists_cons_of_ne_nil hne
    exact ⟨i, rfl, le_antisymm (hwords i (by simp)) (h.least 0 i rfl)⟩
  · exact hfound

theorem selectFrom_run {rounds : ℕ} {pool : List ℕ} (hrounds : rounds = pool.length)
    (hpool : ∀ i ∈ pool, i < inv.priorities.length) (hwords : ∀ i ∈ pool, priorityAt inv i ≤ u32Max)
    (hincreasing : pool.Pairwise (· < ·)) :
    ∃ order, selectFrom inv rounds pool = .ok order ∧ order.Perm pool ∧ order.Pairwise (Before inv) := by
  induction rounds generalizing pool with
  | zero =>
      obtain rfl := List.length_eq_zero_iff.1 hrounds.symm
      exact ⟨[], rfl, List.Perm.nil, List.Pairwise.nil⟩
  | succ rounds ih =>
      have hne : pool ≠ [] := by
        rintro rfl
        cases hrounds
      obtain ⟨best, hbest, hlowest⟩ := findLowest_run hpool
      obtain ⟨chosen, hchosen, hvalue⟩ := hlowest.found_of_ne hne hwords
      obtain ⟨hlt, hget⟩ := List.getElem?_eq_some_iff.1 hchosen
      have hsub := List.eraseIdx_sublist pool best.1
      have hlength : rounds = (pool.eraseIdx best.1).length := by
        rw [List.length_eraseIdx_of_lt hlt, ← hrounds]
        rfl
      obtain ⟨rest, hrest, hperm, hsorted⟩ := ih hlength (fun i hi => hpool i (hsub.mem hi))
        (fun i hi => hwords i (hsub.mem hi)) (hincreasing.sublist hsub)
      refine ⟨chosen :: rest, ?_, ?_, List.pairwise_cons.2 ⟨fun i hi => ?_, hsorted⟩⟩
      · simp only [selectFrom, hbest, hchosen, hrest, bind, Except.bind, unwrap]
      · refine (hperm.cons chosen).trans ?_
        rw [← hget]
        exact List.getElem_cons_eraseIdx_perm hlt
      · obtain ⟨j, hj, hi⟩ := List.mem_eraseIdx_iff_getElem?.1 (hperm.mem_iff.1 hi)
        change priorityAt inv chosen ≤ priorityAt inv i ∧ (priorityAt inv i ≤ priorityAt inv chosen → chosen < i)
        rw [hvalue]
        refine ⟨hlowest.least j i hi, fun hle => ?_⟩
        have hafter : best.1 < j := by
          refine lt_of_le_of_ne ?_ hj.symm
          by_contra hbefore
          exact absurd (hlowest.first j i hi (not_le.1 hbefore)) hle.not_gt
        obtain ⟨hjlt, hjget⟩ := List.getElem?_eq_some_iff.1 hi
        have hless := List.pairwise_iff_getElem.1 hincreasing best.1 j hlt hjlt hafter
        rwa [hget, hjget] at hless

/-- The selection sort picks the order that the sorted list gives: every position once, by ascending
priority and among equal priorities in turn. -/
theorem selection_sorts (hpriorities : inv.recipients.length ≤ inv.priorities.length)
    (hwords : ∀ p ∈ inv.priorities, p ≤ u32Max) :
    ∃ order, sortedIndices inv = .ok order ∧ priorityOrder inv = .ok order ∧
      order.Perm (List.range inv.recipients.length) ∧ order.Pairwise (Before inv) := by
  have hall : ∀ i ∈ List.range inv.recipients.length, i < inv.priorities.length := fun i hi =>
    (List.mem_range.1 hi).trans_le hpriorities
  have hlength : inv.recipients.length = (List.range inv.recipients.length).length := List.length_range.symm
  obtain ⟨order, horder, hperm, hsorted⟩ := selectFrom_run hlength hall
    (fun i hi => by
      rw [priorityAt, List.getD_eq_getElem _ _ (hall i hi)]
      exact hwords _ (List.getElem_mem _)) List.pairwise_lt_range
  have hread : ((List.range inv.recipients.length).mapM fun i => do
      let p ← unwrap inv.priorities[i]?
      .ok (i, p) : Result (List (ℕ × ℕ))) =
        .ok ((List.range inv.recipients.length).map fun i => (i, priorityAt inv i)) :=
    Rebalance.mapM_ok_map fun i hi => by rw [unwrap_priority (hall i hi)]; rfl
  have hother : ∃ order', priorityOrder inv = .ok order' := by
    rw [priorityOrder, hread]
    exact ⟨_, rfl⟩
  obtain ⟨order', horder'⟩ := hother
  obtain ⟨hperm', hsorted'⟩ := priorityOrder_ok horder'
  have hsame : order' = order :=
    (hperm'.trans hperm.symm).eq_of_pairwise (fun _ _ _ _ => before_antisymm) hsorted' hsorted
  exact ⟨order, horder, hsame ▸ horder', hperm, hsorted⟩

/-- Two recipients, the second with the lower priority. -/
theorem selection_sorts_sample :
    ∃ order, sortedIndices { sampleInvoice with priorities := [2, 1] } = .ok order ∧
      priorityOrder { sampleInvoice with priorities := [2, 1] } = .ok order ∧ order.Perm (List.range 2) ∧
      order.Pairwise (Before { sampleInvoice with priorities := [2, 1] }) :=
  selection_sorts (by decide) (by decide)

/-! ## Payouts by priority -/

def amountAt (inv : Invoice) (i : ℕ) : ℤ := inv.amounts.getD i 0

/-- The payout of a recipient in full. -/
def payoutAt (inv : Invoice) (token : Address) (id i : ℕ) : Transfer Memo :=
  ⟨token, currentContract, inv.recipients.getD i 0, amountAt inv i, ⟨id, .payout⟩⟩

/-- Those of an order that the rest covers when their turn comes. -/
def covered (inv : Invoice) : ℤ → List ℕ → List ℕ
  | _, [] => []
  | rest, i :: order =>
      if amountAt inv i ≤ rest then i :: covered inv (rest - amountAt inv i) order else covered inv rest order

theorem covered_sublist (rest : ℤ) (order : List ℕ) : (covered inv rest order).Sublist order := by
  induction order generalizing rest with
  | nil => exact List.Sublist.slnil
  | cons i order ih =>
      rw [covered]
      split_ifs
      · exact (ih _).cons_cons i
      · exact (ih _).cons i

theorem payByPriority_ok {rest next : ℤ} {i : ℕ} (hrun : payByPriority env id inv token rest i s = .ok (next, t)) :
    i < inv.recipients.length ∧ t.entries = s.entries ∧
      if amountAt inv i ≤ rest then next = rest - amountAt inv i ∧ t.log = payoutAt inv token id i :: s.log
      else next = rest ∧ t.log = s.log := by
  simp only [payByPriority, ofResult_bind] at hrun
  obtain ⟨recipient, hrecipient, amount, hamount, hrun⟩ := hrun
  obtain ⟨_, u, hpay, hrun⟩ := bind_ok.1 hrun
  obtain ⟨rfl, rfl⟩ := pure_ok.1 hrun
  have hrecipient : inv.recipients[i]? = some recipient := unwrap_ok.1 hrecipient
  have hamount : inv.amounts[i]? = some amount := unwrap_ok.1 hamount
  have hlt := (List.getElem?_eq_some_iff.1 hrecipient).1
  have hat : amountAt inv i = amount := by rw [amountAt, List.getD_eq_getElem?_getD, hamount, Option.getD_some]
  have hto : inv.recipients.getD i 0 = recipient := by
    rw [List.getD_eq_getElem?_getD, hrecipient, Option.getD_some]
  rw [hat]
  rcases onlyIf_ok.1 hpay with ⟨hle, hpay⟩ | ⟨hnot, rfl⟩
  · obtain ⟨-, rfl⟩ := transfer_ok.1 hpay
    rw [if_pos hle, if_pos hle]
    refine ⟨hlt, rfl, rfl, ?_⟩
    rw [payoutAt, hat, hto]
    rfl
  · rw [if_neg hnot, if_neg hnot]
    exact ⟨hlt, rfl, rfl, rfl⟩

theorem payPriorities_ok {order : List ℕ} {rest last : ℤ}
    (hrun : order.foldlM (payByPriority env id inv token) rest s = .ok (last, t)) :
    t.entries = s.entries ∧ (∀ i ∈ order, i < inv.recipients.length) ∧
      t.log = ((covered inv rest order).map (payoutAt inv token id)).reverse ++ s.log := by
  induction order generalizing s rest with
  | nil =>
      obtain ⟨rfl, rfl⟩ := pure_ok.1 hrun
      exact ⟨rfl, by simp, rfl⟩
  | cons i order ih =>
      rw [List.foldlM_cons] at hrun
      obtain ⟨next, u, hfirst, hrun⟩ := bind_ok.1 hrun
      obtain ⟨hi, hentries, hpays⟩ := payByPriority_ok hfirst
      obtain ⟨hentries', hall, hlog⟩ := ih hrun
      refine ⟨hentries'.trans hentries, List.forall_mem_cons.2 ⟨hi, hall⟩, ?_⟩
      rw [hlog, covered]
      split_ifs at hpays ⊢ with hle
      · rw [hpays.1, hpays.2, List.map_cons, List.reverse_cons, List.append_assoc]
        rfl
      · rw [hpays.1, hpays.2]

/-! ### When the rest is used up -/

def sumAmounts (inv : Invoice) (order : List ℕ) : ℤ := (order.map (amountAt inv)).sum

/-- The chosen recipients of an order share the amount out exactly, and each of the others asks for
more than the chosen ones before it leave. -/
structure SharedOut (inv : Invoice) (amount : ℤ) (order : List ℕ) (chosen : ℕ → Bool) : Prop where
  sum : sumAmounts inv (order.filter chosen) = amount
  others : ∀ before i after, order = before ++ i :: after → chosen i = false →
    amount - sumAmounts inv (before.filter chosen) < amountAt inv i

theorem sumAmounts_cons (i : ℕ) (order : List ℕ) :
    sumAmounts inv (i :: order) = amountAt inv i + sumAmounts inv order := by
  rw [sumAmounts, List.map_cons, List.sum_cons, sumAmounts]

section Covered

variable {order : List ℕ} {rest : ℤ}

/-- Whoever is not covered asked for more than was left. -/
theorem covered_chosen (rest : ℤ) (hnodup : order.Nodup) :
    ∃ chosen : ℕ → Bool, order.filter chosen = covered inv rest order ∧ ∀ before i after,
      order = before ++ i :: after → chosen i = false →
        rest - sumAmounts inv (before.filter chosen) < amountAt inv i := by
  induction order generalizing rest with
  | nil => exact ⟨fun _ => false, rfl, fun before i after h => by simp at h⟩
  | cons k order ih =>
      obtain ⟨hfresh, hnodup⟩ := List.nodup_cons.1 hnodup
      have hkeep : ∀ (chosen : ℕ → Bool) (b : Bool) (xs : List ℕ), (∀ x ∈ xs, x ∈ order) →
          xs.filter (update chosen k b) = xs.filter chosen := by
        intro chosen b xs hxs
        refine List.filter_congr fun x hx => update_of_ne ?_ _ _
        rintro rfl
        exact hfresh (hxs x hx)
      by_cases hle : amountAt inv k ≤ rest
      · obtain ⟨chosen, hfilter, hothers⟩ := ih (rest - amountAt inv k) hnodup
        refine ⟨update chosen k true, ?_, fun before i after h hi => ?_⟩
        · rw [List.filter_cons_of_pos (update_self ..), covered, if_pos hle, hkeep chosen true order fun _ h => h, hfilter]
        · cases before with
          | nil =>
              obtain ⟨rfl, -⟩ := List.cons.inj h
              rw [update_self] at hi
              cases hi
          | cons x before =>
              obtain ⟨rfl, rfl⟩ := List.cons.inj h
              have hne : i ≠ k := by
                rintro rfl
                exact hfresh (by simp)
              rw [update_of_ne hne] at hi
              rw [List.filter_cons_of_pos (update_self ..), hkeep chosen true before fun x hx => by simp [hx],
                sumAmounts_cons]
              linarith [hothers before i after rfl hi]
      · obtain ⟨chosen, hfilter, hothers⟩ := ih rest hnodup
        have hno : ¬update chosen k false k = true := by rw [update_self]; exact Bool.false_ne_true
        refine ⟨update chosen k false, ?_, fun before i after h hi => ?_⟩
        · rw [List.filter_cons_of_neg hno, covered, if_neg hle, hkeep chosen false order fun _ h => h, hfilter]
        · cases before with
          | nil =>
              obtain ⟨rfl, -⟩ := List.cons.inj h
              rw [List.filter_nil, sumAmounts, List.map_nil, List.sum_nil, sub_zero]
              exact not_le.1 hle
          | cons x before =>
              obtain ⟨rfl, rfl⟩ := List.cons.inj h
              have hne : i ≠ k := by
                rintro rfl
                exact hfresh (by simp)
              rw [update_of_ne hne] at hi
              rw [List.filter_cons_of_neg hno, hkeep chosen false before fun x hx => by simp [hx]]
              exact hothers before i after rfl hi

theorem sumAmounts_nonneg (hamounts : ∀ a ∈ inv.amounts, 0 ≤ a) (order : List ℕ) : 0 ≤ sumAmounts inv order := by
  apply List.sum_nonneg
  intro x hx
  obtain ⟨i, -, rfl⟩ := List.mem_map.1 hx
  exact amount_nonneg hamounts i

theorem SharedOut.covered_eq {chosen : ℕ → Bool} (hamounts : ∀ a ∈ inv.amounts, 0 ≤ a)
    (h : SharedOut inv rest order chosen) : covered inv rest order = order.filter chosen := by
  induction order generalizing rest with
  | nil => rfl
  | cons k order ih =>
      by_cases hk : chosen k = true
      · have hsum := h.sum
        rw [List.filter_cons_of_pos hk, sumAmounts_cons] at hsum
        have hle : amountAt inv k ≤ rest := by linarith [sumAmounts_nonneg hamounts (order.filter chosen)]
        rw [covered, if_pos hle, List.filter_cons_of_pos hk, ih ⟨by linarith, fun before i after hsplit hi => ?_⟩]
        have hother := h.others (k :: before) i after (by rw [hsplit, List.cons_append]) hi
        rw [List.filter_cons_of_pos hk, sumAmounts_cons] at hother
        linarith
      · have hlt := h.others [] k order rfl (by simpa using hk)
        rw [List.filter_nil, sumAmounts, List.map_nil, List.sum_nil, sub_zero] at hlt
        have hsum := h.sum
        rw [List.filter_cons_of_neg hk] at hsum
        rw [covered, if_neg hlt.not_ge, List.filter_cons_of_neg hk, ih ⟨hsum, fun before i after hsplit hi => ?_⟩]
        have hother := h.others (k :: before) i after (by rw [hsplit, List.cons_append]) hi
        rwa [List.filter_cons_of_neg hk] at hother

/-- The whole amount is paid out exactly when some of the recipients can share it out. -/
theorem sum_covered_iff (hamounts : ∀ a ∈ inv.amounts, 0 ≤ a) (hnodup : order.Nodup) :
    sumAmounts inv (covered inv rest order) = rest ↔ ∃ chosen, SharedOut inv rest order chosen := by
  constructor
  · intro h
    obtain ⟨chosen, hfilter, hothers⟩ := covered_chosen rest hnodup
    exact ⟨chosen, by rw [hfilter, h], hothers⟩
  · rintro ⟨chosen, h⟩
    rw [h.covered_eq hamounts, h.sum]

end Covered

/-! ## Payouts in proportion -/

/-- The shares of a pot from a place on. -/
def splitShares (inv : Invoice) (pot : ℤ) : ℕ → ℕ → ℤ → Result (List ℤ)
  | _, 0, _ => .ok []
  | k, m + 1, distributed => do
      let share ← splitShare inv pot distributed k
      let shares ← splitShares inv pot (k + 1) m (distributed + share)
      .ok (share :: shares)

theorem splitShare_last {pot distributed share : ℤ} {k : ℕ} (hlast : k + 1 = inv.recipients.length)
    (h : splitShare inv pot distributed k = .ok share) : share = pot - distributed := by
  unfold splitShare at h
  obtain ⟨amount, -, h⟩ := except_bind_ok.1 h
  rw [if_pos hlast] at h
  exact (Except.ok.inj h).symm

theorem sum_take_succ_le (hwords : WordAmounts inv) {k : ℕ} {amount : ℤ} (hamount : inv.amounts[k]? = some amount) :
    (inv.amounts.take (k + 1)).sum = (inv.amounts.take k).sum + amount ∧
      (inv.amounts.take (k + 1)).sum ≤ inv.total := by
  refine ⟨by rw [List.take_add_one, hamount]; simp, ?_⟩
  exact List.Sublist.sum_le_sum (List.take_sublist _ _) hwords.nonneg

/-- The shares up to the last recipient make up the pot, and none is negative. -/
theorem splitShares_exact {pot distributed : ℤ} {shares : List ℤ} {k m : ℕ} (hwords : WordAmounts inv)
    (hpot : 0 ≤ pot ∧ pot ≤ i128Max) (hk : k + (m + 1) = inv.recipients.length) (hwithin : distributed ≤ pot)
    (hparts : distributed * inv.total ≤ pot * (inv.amounts.take k).sum)
    (h : splitShares inv pot k (m + 1) distributed = .ok shares) :
    shares.length = m + 1 ∧ shares.sum = pot - distributed ∧ ∀ x ∈ shares, 0 ≤ x := by
  induction m generalizing k distributed shares with
  | zero =>
      obtain ⟨share, hshare, h⟩ := except_bind_ok.1 h
      obtain ⟨rest, hrest, h⟩ := except_bind_ok.1 h
      cases hrest
      obtain rfl := Except.ok.inj h
      have hlast := splitShare_last hk hshare
      refine ⟨rfl, by simpa using hlast, ?_⟩
      intro x hx
      rw [List.mem_singleton.1 hx, hlast]
      linarith
  | succ m ih =>
      obtain ⟨share, hshare, h⟩ := except_bind_ok.1 h
      obtain ⟨rest, hrest, h⟩ := except_bind_ok.1 h
      obtain rfl := Except.ok.inj h
      obtain ⟨hnonneg, hpos, amount, hamount, hpart⟩ := splitShare_part hwords hpot (by omega) hshare
      obtain ⟨htaken, hle⟩ := sum_take_succ_le hwords hamount
      have hparts' : (distributed + share) * inv.total ≤ pot * (inv.amounts.take (k + 1)).sum := by
        rw [htaken]
        linarith
      have hwithin' : distributed + share ≤ pot :=
        le_of_mul_le_mul_right (hparts'.trans (mul_le_mul_of_nonneg_left hle hpot.1)) hpos
      obtain ⟨hlength, hsum, hall⟩ := ih (by omega) hwithin' hparts' hrest
      refine ⟨by rw [List.length_cons, hlength], by rw [List.sum_cons, hsum]; ring, ?_⟩
      exact List.forall_mem_cons.2 ⟨hnonneg, hall⟩

/-- The movements of the shares that are positive. -/
def shareTransfers (token src : Address) (memo : Memo) (shares : List (Address × ℤ)) : List (Transfer Memo) :=
  (shares.filter fun p => 0 < p.2).map fun p => ⟨token, src, p.1, p.2, memo⟩

section Paid

variable {pot distributed done : ℤ} {src : Address} {memo : Memo}

/-- One step of a loop that pays the shares of a pot. -/
def PaysShare (inv : Invoice) (pot : ℤ) (token src : Address) (memo : Memo)
    (step : ℤ → Address × ℕ → SplitM ℤ) : Prop :=
  ∀ d ri s next t, step d ri s = .ok (next, t) → ∃ share, splitShare inv pot d ri.2 = .ok share ∧
    next = d + share ∧ t.entries = s.entries ∧ t.log = shareTransfers token src memo [(ri.1, share)] ++ s.log

theorem payProportional_pays :
    PaysShare inv pot token currentContract ⟨id, .payout⟩ (payProportional env id inv token pot) := by
  intro d ri s next t hrun
  simp only [payProportional, ofResult_bind] at hrun
  obtain ⟨share, hshare, hrun⟩ := hrun
  obtain ⟨_, u, hpay, hrun⟩ := bind_ok.1 hrun
  obtain ⟨rfl, rfl⟩ := pure_ok.1 hrun
  refine ⟨share, hshare, rfl, ?_⟩
  rcases transferPositive_ok.1 hpay with ⟨hpos, -, rfl⟩ | ⟨hnot, rfl⟩
  · exact ⟨rfl, by simp [shareTransfers, hpos]⟩
  · exact ⟨rfl, by simp [shareTransfers, hnot]⟩

theorem payShares_ok {step : ℤ → Address × ℕ → SplitM ℤ} (hstep : PaysShare inv pot token src memo step)
    {rs : List Address} {k : ℕ} (hrun : (rs.zipIdx k).foldlM step distributed s = .ok (done, t)) :
    ∃ shares, splitShares inv pot k rs.length distributed = .ok shares ∧ t.entries = s.entries ∧
      t.log = (shareTransfers token src memo (rs.zip shares)).reverse ++ s.log := by
  induction rs generalizing s k distributed with
  | nil =>
      obtain ⟨rfl, rfl⟩ := pure_ok.1 hrun
      exact ⟨[], rfl, rfl, rfl⟩
  | cons r rs ih =>
      rw [List.zipIdx_cons, List.foldlM_cons] at hrun
      obtain ⟨next, u, hfirst, hrun⟩ := bind_ok.1 hrun
      obtain ⟨share, hshare, rfl, hentries, hlog⟩ := hstep _ _ _ _ _ hfirst
      obtain ⟨shares, hshares, hentries', hlog'⟩ := ih hrun
      refine ⟨share :: shares, ?_, hentries'.trans hentries, ?_⟩
      · simp only [List.length_cons, splitShares, hshare, hshares, bind, Except.bind]
      · rw [hlog', hlog, List.zip_cons_cons]
        unfold shareTransfers
        by_cases hpos : 0 < share <;> simp [hpos]

theorem sum_shareTransfers {rs : List Address} {shares : List ℤ} (hlength : rs.length = shares.length)
    (hshares : ∀ x ∈ shares, 0 ≤ x) :
    ((shareTransfers token src memo (rs.zip shares)).map Transfer.amount).sum = shares.sum := by
  induction rs generalizing shares with
  | nil =>
      obtain rfl := List.length_eq_zero_iff.1 hlength.symm
      rfl
  | cons r rs ih =>
      obtain ⟨x, shares, rfl⟩ := List.exists_cons_of_length_eq_add_one hlength.symm
      obtain ⟨hx, hrest⟩ := List.forall_mem_cons.1 hshares
      have hsum := ih (Nat.succ.inj hlength) hrest
      unfold shareTransfers at hsum ⊢
      rw [List.zip_cons_cons, List.sum_cons]
      by_cases hpos : 0 < x
      · rw [List.filter_cons_of_pos (by simpa using hpos), List.map_cons, List.map_cons, List.sum_cons, hsum]
      · rw [List.filter_cons_of_neg (by simpa using hpos), hsum]
        omega

/-- The movements that divide a pot among the recipients. -/
structure Divides (inv : Invoice) (pot : ℤ) (token src : Address) (memo : Memo) (moved : List (Transfer Memo)) :
    Prop where
  each : ∀ m ∈ moved, m.token = token ∧ m.src = src ∧ m.dst ∈ inv.recipients ∧ m.memo = memo ∧ 0 < m.amount
  sum : inv.recipients ≠ [] → (moved.map Transfer.amount).sum = pot

theorem payShares_divides {step : ℤ → Address × ℕ → SplitM ℤ} (hstep : PaysShare inv pot token src memo step)
    (hwords : WordAmounts inv) (hpot : 0 ≤ pot ∧ pot ≤ i128Max)
    (hrun : inv.recipients.zipIdx.foldlM step 0 s = .ok (done, t)) :
    ∃ moved, Divides inv pot token src memo moved ∧ t.entries = s.entries ∧ t.log = moved.reverse ++ s.log := by
  obtain ⟨shares, hshares, hentries, hlog⟩ := payShares_ok hstep hrun
  refine ⟨_, ⟨fun m hm => ?_, fun hne => ?_⟩, hentries, hlog⟩
  · obtain ⟨p, hp, rfl⟩ := List.mem_map.1 hm
    obtain ⟨hp, hpos⟩ := List.mem_filter.1 hp
    exact ⟨rfl, rfl, (List.of_mem_zip hp).1, rfl, by simpa using hpos⟩
  · obtain ⟨m, hm⟩ := Nat.exists_eq_succ_of_ne_zero (List.length_pos_iff.2 hne).ne'
    rw [hm] at hshares
    obtain ⟨hlength, hsum, hnonneg⟩ := splitShares_exact hwords hpot (by omega) hpot.1 (by simp) hshares
    rw [sum_shareTransfers (hm.trans hlength.symm) hnonneg, hsum, sub_zero]

end Paid

/-! ## What a partial release books -/

/-- A payout of the contract to one of the recipients. -/
def PaysRecipient (inv : Invoice) (id : ℕ) (m : Transfer Memo) : Prop :=
  m.src = currentContract ∧ m.dst ∈ inv.recipients ∧ m.memo = ⟨id, .payout⟩

theorem paysRecipient_payoutAt {i : ℕ} (hi : i < inv.recipients.length) :
    PaysRecipient inv id (payoutAt inv token id i) := by
  refine ⟨rfl, ?_, rfl⟩
  rw [payoutAt, List.getD_eq_getElem _ _ hi]
  exact List.getElem_mem hi

theorem partialRelease_ok {creator : Address} {amount : ℤ} (hload : (s.entries id).load = some inv)
    (hrun : partialRelease env id creator amount s = .ok (v, t)) :
    0 < amount ∧ amount ≤ inv.funded ∧ ∃ token u, payPartialRelease env id inv token amount s = .ok ((), u) ∧
      t.log = u.log ∧ ∃ inv', (t.entries id).load = some inv' ∧ inv'.funded = inv.funded - amount := by
  simp only [partialRelease, requireNotPaused_bind, requireAuth_bind, loadInvoice_bind, require_bind,
    orPanic_bind] at hrun
  obtain ⟨-, -, inv', hload', -, -, -, -, hpositive, hle, token, -, hrun⟩ := hrun
  obtain rfl := Option.some.inj (hload.symm.trans hload')
  obtain ⟨_, u, hpay, hsave⟩ := bind_ok.1 hrun
  refine ⟨hpositive, hle, token, u, hpay, ?_, _, saveInvoice_load hsave, rfl⟩
  obtain ⟨-, rfl⟩ := saveInvoice_ok.1 hsave
  rfl

/-- The recipients a release by priority pays, in the order in which it pays them. -/
def InOrder (inv : Invoice) (order paid : List ℕ) (new : List (Transfer Memo)) : Prop :=
  priorityOrder inv = .ok order ∧ order.Perm (List.range inv.recipients.length) ∧
    order.Pairwise (Before inv) ∧ paid.Sublist order ∧
    new.reverse.map (fun m => (m.dst, m.amount)) = paid.map fun i => (inv.recipients.getD i 0, amountAt inv i)

/-- The payouts of a partial release, the order of those by priority, and when the whole amount
goes out. -/
theorem payPartialRelease_ok {amount : ℤ} (hwords : WordAmounts inv) (hamount : 0 < amount ∧ amount ≤ i128Max)
    (hrun : payPartialRelease env id inv token amount s = .ok (v, t)) :
    ∃ new, t.log = new ++ s.log ∧ (∀ m ∈ new, PaysRecipient inv id m) ∧
      (inv.priorities ≠ [] → ∃ order paid, InOrder inv order paid new) ∧
      ((new.map Transfer.amount).sum = amount ↔ inv.priorities = [] ∧ inv.recipients ≠ [] ∨
        inv.priorities ≠ [] ∧ ∃ order chosen, priorityOrder inv = .ok order ∧ SharedOut inv amount order chosen) := by
  unfold payPartialRelease at hrun
  by_cases hmode : inv.priorities = []
  · rw [if_neg (not_not.2 hmode)] at hrun
    obtain ⟨done, hrun⟩ := ignore_ok.1 hrun
    obtain ⟨moved, hdivides, -, hlog⟩ :=
      payShares_divides payProportional_pays hwords ⟨hamount.1.le, hamount.2⟩ hrun
    refine ⟨_, hlog, fun m hm => ?_, fun h => absurd hmode h, ?_⟩
    · obtain ⟨-, hsrc, hdst, hmemo, -⟩ := hdivides.each m (List.mem_reverse.1 hm)
      exact ⟨hsrc, hdst, hmemo⟩
    · rw [List.map_reverse, List.sum_reverse]
      by_cases hne : inv.recipients = []
      · have hnone : moved = [] := List.eq_nil_iff_forall_not_mem.2 fun m hm => by
          simpa [hne] using (hdivides.each m hm).2.2.1
        simp [hnone, hne, hmode, hamount.1.ne]
      · rw [hdivides.sum hne]
        exact ⟨fun _ => .inl ⟨hmode, hne⟩, fun _ => rfl⟩
  · rw [if_pos hmode] at hrun
    obtain ⟨order, horder, hrun⟩ := ofResult_bind.1 hrun
    obtain ⟨rest, hrun⟩ := ignore_ok.1 hrun
    obtain ⟨-, hbounds, hlog⟩ := payPriorities_ok hrun
    obtain ⟨hperm, hsorted⟩ := priorityOrder_ok horder
    have hnodup : order.Nodup := hperm.nodup_iff.2 List.nodup_range
    have hsub : (covered inv amount order).Sublist order := covered_sublist amount order
    refine ⟨_, hlog, fun m hm => ?_, fun _ => ⟨order, covered inv amount order, horder, hperm, hsorted, hsub, ?_⟩, ?_⟩
    · obtain ⟨i, hi, rfl⟩ := List.mem_map.1 (List.mem_reverse.1 hm)
      exact paysRecipient_payoutAt (hbounds i (hsub.mem hi))
    · rw [List.reverse_reverse, List.map_map]
      rfl
    · have hsum : ((((covered inv amount order).map (payoutAt inv token id)).reverse).map Transfer.amount).sum =
          sumAmounts inv (covered inv amount order) := by
        rw [List.map_reverse, List.sum_reverse, List.map_map]
        rfl
      rw [hsum, sum_covered_iff hwords.nonneg hnodup]
      constructor
      · rintro ⟨chosen, h⟩
        exact .inr ⟨hmode, order, chosen, horder, h⟩
      · rintro (⟨h, -⟩ | ⟨-, order', chosen, horder', h⟩)
        · exact absurd h hmode
        · obtain rfl := Except.ok.inj (horder.symm.trans horder')
          exact ⟨chosen, h⟩

/-- The funding goes down by what the recipients were paid exactly when the amount is divided in
proportion or some of the recipients can share it out. -/
theorem partial_release_books_iff {creator : Address} {amount : ℤ} (hwords : WordAmounts inv)
    (hamount : amount ≤ i128Max) (hload : (s.entries id).load = some inv)
    (hrun : partialRelease env id creator amount s = .ok (v, t)) :
    ∃ new inv', t.log = new ++ s.log ∧ (∀ m ∈ new, PaysRecipient inv id m) ∧
      (t.entries id).load = some inv' ∧
      (inv.priorities ≠ [] → ∃ order paid, InOrder inv order paid new) ∧
      (inv.funded - inv'.funded = (new.map Transfer.amount).sum ↔
        inv.priorities = [] ∧ inv.recipients ≠ [] ∨ inv.priorities ≠ [] ∧
          ∃ order chosen, priorityOrder inv = .ok order ∧ SharedOut inv amount order chosen) := by
  obtain ⟨hpositive, -, token, u, hpay, hlog, inv', hload', hfunded⟩ := partialRelease_ok hload hrun
  obtain ⟨new, hnew, hpays, horder, hiff⟩ := payPartialRelease_ok hwords ⟨hpositive, hamount⟩ hpay
  refine ⟨new, inv', hlog.trans hnew, hpays, hload', horder, ?_⟩
  rw [hfunded, sub_sub_cancel, eq_comm]
  exact hiff

/-- Two recipients with 60 and 50, the second before the first. -/
def rankedInvoice : Invoice := { sampleInvoice with
  amounts := [60, 50]
  funded := 100
  priorities := [2, 1] }

theorem partial_release_books_sample :
    ∃ new inv', (commit (partialRelease (sampleEnv 5 100) 1 2 60) (sampleStore rankedInvoice [])).log =
        new ++ (sampleStore rankedInvoice []).log ∧ (∀ m ∈ new, PaysRecipient rankedInvoice 1 m) ∧
      (((commit (partialRelease (sampleEnv 5 100) 1 2 60) (sampleStore rankedInvoice [])).entries 1).load =
        some inv') ∧
      (rankedInvoice.priorities ≠ [] → ∃ order paid, InOrder rankedInvoice order paid new) ∧
      (rankedInvoice.funded - inv'.funded = (new.map Transfer.amount).sum ↔
        rankedInvoice.priorities = [] ∧ rankedInvoice.recipients ≠ [] ∨ rankedInvoice.priorities ≠ [] ∧
          ∃ order chosen, priorityOrder rankedInvoice = .ok order ∧ SharedOut rankedInvoice 60 order chosen) :=
  partial_release_books_iff (v := ()) ⟨by decide, by decide⟩ (by decide) rfl
    (ok_commit (s := sampleStore rankedInvoice []) (a := ()) (by decide +kernel))

/-- Of 60 the second recipient gets its 50; 10 are booked and go to nobody. -/
theorem partial_release_loses :
    ((partialRelease (sampleEnv 5 100) 1 2 60 (sampleStore rankedInvoice [])).toOption.map fun r =>
      (r.2.log.map fun m => (m.dst, m.amount), (r.2.entries 1).load.map Invoice.funded)) =
        some ([(11, 50)], some 40) := by
  decide +kernel

end StellarSplit.Split.PartialRelease
