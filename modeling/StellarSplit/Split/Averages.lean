import StellarSplit.Lib.Staircase
import StellarSplit.Split.Storage

/-!
# The time-weighted average funding

Each payment adds to a sum of what the invoice held in the ledgers up to it. The average
divides the sum by the ledgers since the creation, without what was held since the last
payment.
-/

namespace StellarSplit.Split.Averages

open Exec Machine Staircase

/-- The fields of an invoice that the average is made of; `created` is the ledger of its creation. -/
structure Averaged where
  created : Option ℕ
  funded : ℤ := 0
  twafrNumerator : ℤ := 0
  twafrLastLedger : ℕ := 0
deriving DecidableEq, Repr

def updateTwafr (inv : Averaged) (creationLedger currentLedger : ℕ) (amount : ℤ) : Averaged :=
  if currentLedger ≤ creationLedger ∨ amount ≤ 0 then inv
  else if inv.twafrLastLedger = 0 then
    { inv with twafrNumerator := satAddI128 inv.twafrNumerator amount, twafrLastLedger := currentLedger }
  else if inv.twafrLastLedger < currentLedger then
    { inv with
      twafrNumerator := satAddI128 (satAddI128 inv.twafrNumerator
        (satMulI128 inv.funded (currentLedger - inv.twafrLastLedger : ℕ))) amount
      twafrLastLedger := currentLedger }
  else
    { inv with twafrNumerator := satAddI128 inv.twafrNumerator amount, twafrLastLedger := currentLedger }

/-- The steps of `_pay` that bring the average and the funding up to date. -/
def creditPayment (inv : Averaged) (sequence : ℕ) (creditedAmount : ℤ) : Result Averaged :=
  let inv := updateTwafr inv (inv.created.getD sequence) sequence creditedAmount
  match checkedAddI128 inv.funded creditedAmount with
  | some funded => .ok { inv with funded := funded }
  | none => .error (.error .arithmeticOverflow)

def getTwafr (inv : Averaged) (sequence : ℕ) : ℤ :=
  if inv.twafrLastLedger = 0 then 0
  else
    let elapsed : ℤ := (sequence - inv.created.getD sequence : ℕ)
    if elapsed ≤ 0 then 0 else inv.twafrNumerator.tdiv elapsed

/-- Payments into a new invoice, each with its ledger and amount. -/
def payAll (created : ℕ) (payments : List (ℕ × ℤ)) : Result Averaged :=
  payments.foldlM (fun inv p => creditPayment inv p.1 p.2) { created := some created }

/-- Payments after the creation, in the order of the ledgers, whose sum fits the word at each of them. -/
structure InOrder (created : ℕ) (payments : List (ℕ × ℤ)) : Prop where
  positive : ∀ p ∈ payments, 0 < p.2
  later : ∀ p ∈ payments, created < p.1
  ordered : payments.Pairwise fun p q => p.1 ≤ q.1
  fits : ∀ p ∈ payments, area payments created p.1 ≤ i128Max

/-- The ledger of the last payment. -/
def lastLedger (payments : List (ℕ × ℤ)) : ℕ := (payments.getLast?.map Prod.fst).getD 0

variable {created sequence : ℕ} {payments : List (ℕ × ℤ)} {inv : Averaged} {p : ℕ × ℤ}

/-! ## The accumulator -/

/-- The numerator is the sum of the funding over the ledgers up to the last payment. -/
structure Accumulates (created : ℕ) (payments : List (ℕ × ℤ)) (inv : Averaged) : Prop where
  opened : inv.created = some created
  funded : inv.funded = top payments
  last : inv.twafrLastLedger = lastLedger payments
  numerator : inv.twafrNumerator = area payments created (lastLedger payments)

theorem lastLedger_snoc : lastLedger (payments ++ [p]) = p.1 := by
  simp [lastLedger]

theorem InOrder.le_last (h : InOrder created payments) : ∀ q ∈ payments, q.1 ≤ lastLedger payments := by
  cases payments using List.reverseRecOn with
  | nil => exact fun q hq => absurd hq List.not_mem_nil
  | append_singleton xs p =>
      intro q hq
      rw [lastLedger_snoc]
      rcases List.mem_append.1 hq with hq | hq
      · exact (List.pairwise_append.1 h.ordered).2.2 q hq p (List.mem_singleton_self p)
      · rw [List.mem_singleton.1 hq]

theorem InOrder.init (h : InOrder created (payments ++ [p])) : InOrder created payments where
  positive q hq := h.positive q (List.mem_append_left _ hq)
  later q hq := h.later q (List.mem_append_left _ hq)
  ordered := (List.pairwise_append.1 h.ordered).1
  fits q hq := (area_le_snoc (h.positive p (by simp)).le).trans (h.fits q (List.mem_append_left _ hq))

theorem satAddI128_of_le {a b : ℤ} (hnonneg : 0 ≤ a + b) (hle : a + b ≤ i128Max) : satAddI128 a b = a + b := by
  unfold satAddI128 i128Min
  omega

theorem InOrder.nonneg (h : InOrder created payments) : ∀ q ∈ payments, 0 ≤ q.2 := fun q hq => (h.positive q hq).le

theorem InOrder.top_nonneg (h : InOrder created payments) : 0 ≤ top payments := List.sum_nonneg fun x hx => by
  obtain ⟨q, hq, rfl⟩ := List.mem_map.1 hx
  exact h.nonneg q hq

theorem InOrder.created_lt_last (h : InOrder created payments) (hne : payments ≠ []) :
    created < lastLedger payments := by
  obtain ⟨xs, p, rfl⟩ := payments.eq_nil_or_concat'.resolve_left hne
  rw [lastLedger_snoc]
  exact h.later p (by simp)

theorem lastLedger_le {n : ℕ} (h : ∀ q ∈ payments, q.1 ≤ n) : lastLedger payments ≤ n := by
  cases payments using List.reverseRecOn with
  | nil => exact Nat.zero_le n
  | append_singleton xs p =>
      rw [lastLedger_snoc]
      exact h p (by simp)

/-- The funding has stayed the same since the last payment. -/
theorem InOrder.area_since (h : InOrder created payments) (hne : payments ≠ []) {n : ℕ}
    (hread : ∀ q ∈ payments, q.1 ≤ n) :
    area payments created n =
      area payments created (lastLedger payments) + top payments * (n - lastLedger payments : ℕ) := by
  have hflat : area payments (lastLedger payments) n = top payments * (n - lastLedger payments : ℕ) :=
    area_flat h.le_last
  rw [← hflat, area_add (h.created_lt_last hne).le (lastLedger_le hread)]

/-- All three cases of the update add up to the sum with the new payment. -/
theorem updateTwafr_eq (h : Accumulates created payments inv) (hin : InOrder created (payments ++ [p])) :
    updateTwafr inv created p.1 p.2 =
      { inv with twafrNumerator := area (payments ++ [p]) created p.1, twafrLastLedger := p.1 } := by
  have hmem : p ∈ payments ++ [p] := by simp
  have hpos := hin.positive p hmem
  have hlater := hin.later p hmem
  have hsum : area (payments ++ [p]) created p.1 = area payments created p.1 + p.2 := area_snoc hlater
  have hfits : area payments created p.1 + p.2 ≤ i128Max := hsum ▸ hin.fits p hmem
  have hbefore : 0 ≤ area payments created p.1 := area_nonneg hin.init.nonneg
  unfold updateTwafr
  rw [if_neg (by omega), h.last, h.numerator, h.funded, hsum]
  by_cases hne : payments = []
  · subst hne
    have hzero : area [] created p.1 = 0 := Finset.sum_eq_zero fun _ _ => rfl
    have hnone : area [] created (lastLedger []) = 0 := Finset.sum_eq_zero fun _ _ => rfl
    have hstart : lastLedger [] = 0 := rfl
    rw [hnone, hstart, if_pos rfl, hzero, satAddI128_of_le (by omega) (by omega)]
  · have hfrom := hin.init.created_lt_last hne
    have hread : ∀ q ∈ payments, q.1 ≤ p.1 := fun q hq =>
      (List.pairwise_append.1 hin.ordered).2.2 q hq p (List.mem_singleton_self p)
    have huntil := lastLedger_le hread
    have hsince := hin.init.area_since hne hread
    have hsofar : 0 ≤ area payments created (lastLedger payments) := area_nonneg hin.init.nonneg
    have hopen := mul_nonneg hin.init.top_nonneg (Int.natCast_nonneg (p.1 - lastLedger payments))
    rw [if_neg (by omega)]
    split_ifs with hless
    · have hmul : satMulI128 (top payments) (p.1 - lastLedger payments : ℕ) =
          top payments * (p.1 - lastLedger payments : ℕ) := by
        unfold satMulI128 i128Min
        omega
      have hinner : satAddI128 (area payments created (lastLedger payments))
          (top payments * (p.1 - lastLedger payments : ℕ)) = area payments created p.1 := by
        rw [hsince]
        exact satAddI128_of_le (by omega) (by omega)
      rw [hmul, hinner, satAddI128_of_le (by omega) (by omega)]
    · obtain heq : lastLedger payments = p.1 := le_antisymm huntil (not_lt.1 hless)
      rw [heq, satAddI128_of_le (by omega) (by omega)]

theorem Accumulates.snoc (h : Accumulates created payments inv) (hin : InOrder created (payments ++ [p])) :
    ∃ inv', creditPayment inv p.1 p.2 = .ok inv' ∧ Accumulates created (payments ++ [p]) inv' := by
  have hmem : p ∈ payments ++ [p] := by simp
  have htop : top (payments ++ [p]) = top payments + p.2 := top_snoc
  have hle : top (payments ++ [p]) ≤ area (payments ++ [p]) created p.1 :=
    top_le_area (hin.later p hmem) (by simpa [lastLedger_snoc] using hin.le_last) hin.nonneg
  have hfits := hin.fits p hmem
  have hnonneg : 0 ≤ top (payments ++ [p]) := by
    rw [← level_of_past hin.le_last]
    exact level_nonneg hin.nonneg
  have hword : InI128 (inv.funded + p.2) := by
    rw [h.funded, ← htop]
    unfold InI128 i128Min
    omega
  refine ⟨{ inv with
    funded := inv.funded + p.2
    twafrNumerator := area (payments ++ [p]) created p.1
    twafrLastLedger := p.1 }, ?_, ?_⟩
  · have hcreation : inv.created.getD p.1 = created := by rw [h.opened, Option.getD_some]
    unfold creditPayment
    dsimp only
    rw [hcreation, updateTwafr_eq h hin]
    unfold checkedAddI128
    rw [if_pos hword]
  · exact ⟨h.opened, by rw [htop, ← h.funded], lastLedger_snoc.symm, by rw [lastLedger_snoc]⟩

theorem payAll_accumulates (h : InOrder created payments) :
    ∃ inv, payAll created payments = .ok inv ∧ Accumulates created payments inv := by
  induction payments using List.reverseRecOn with
  | nil => exact ⟨_, rfl, rfl, rfl, rfl, (Finset.sum_eq_zero fun _ _ => rfl).symm⟩
  | append_singleton xs p ih =>
      obtain ⟨inv, hrun, hinv⟩ := ih h.init
      obtain ⟨inv', hcredit, hinv'⟩ := hinv.snoc h
      refine ⟨inv', ?_, hinv'⟩
      rw [payAll, List.foldlM_append]
      exact except_bind_ok.2 ⟨inv, hrun, except_bind_ok.2 ⟨inv', hcredit, rfl⟩⟩

/-! ## The average -/

theorem getTwafr_eq (h : Accumulates created payments inv) (hin : InOrder created payments)
    (hread : ∀ q ∈ payments, q.1 ≤ sequence) :
    getTwafr inv sequence = area payments created (lastLedger payments) / (sequence - created : ℕ) := by
  unfold getTwafr
  rw [h.last, h.numerator, h.opened, Option.getD_some]
  by_cases hne : payments = []
  · subst hne
    have hnone : area [] created (lastLedger []) = 0 := Finset.sum_eq_zero fun _ _ => rfl
    rw [hnone, Int.zero_ediv]
    exact if_pos rfl
  · have hfrom := hin.created_lt_last hne
    have huntil := lastLedger_le hread
    rw [if_neg (by omega), if_neg (by omega), Int.tdiv_eq_ediv_of_nonneg (area_nonneg hin.nonneg)]

/-- A part that is added leaves the quotient when it fits beside the remainder. -/
theorem ediv_add_eq_iff {a b d : ℤ} (hd : 0 < d) (hb : 0 ≤ b) : a / d = (a + b) / d ↔ a % d + b < d := by
  have hsum : (a + b) / d = a / d + (a % d + b) / d := by
    conv_lhs => rw [← Int.mul_ediv_add_emod a d, add_assoc]
    exact Int.mul_add_ediv_left _ _ hd.ne'
  have hrest : 0 ≤ a % d + b := add_nonneg (Int.emod_nonneg a hd.ne') hb
  have hquot : 0 ≤ (a % d + b) / d := Int.ediv_nonneg hrest hd.le
  have hlt : (a % d + b) / d < 1 ↔ a % d + b < d := by rw [Int.ediv_lt_iff_lt_mul hd, one_mul]
  rw [hsum, left_eq_add, ← hlt]
  omega

/-- The average is the true one exactly if what was held since the last payment does not come to one
more unit of it. -/
theorem getTwafr_average_iff (h : InOrder created payments) (hread : ∀ q ∈ payments, q.1 ≤ sequence) :
    ∃ inv, payAll created payments = .ok inv ∧
      (getTwafr inv sequence = area payments created sequence / (sequence - created : ℕ) ↔
        payments = [] ∨ area payments created (lastLedger payments) % (sequence - created : ℕ) +
          top payments * (sequence - lastLedger payments : ℕ) < (sequence - created : ℕ)) := by
  obtain ⟨inv, hrun, hinv⟩ := payAll_accumulates h
  refine ⟨inv, hrun, ?_⟩
  rw [getTwafr_eq hinv h hread]
  by_cases hne : payments = []
  · subst hne
    have hzero : ∀ b, area [] created b = 0 := fun _ => Finset.sum_eq_zero fun _ _ => rfl
    rw [hzero, hzero]
    exact iff_of_true rfl (.inl rfl)
  · have hfrom := h.created_lt_last hne
    have huntil := lastLedger_le hread
    have hopen := mul_nonneg h.top_nonneg (Int.natCast_nonneg (sequence - lastLedger payments))
    rw [h.area_since hne hread, ediv_add_eq_iff (by omega) hopen]
    simp [hne]

theorem getTwafr_average_sample :
    ∃ inv, payAll 10 [(11, 30), (13, 6)] = .ok inv ∧
      (getTwafr inv 13 = area [(11, 30), (13, 6)] 10 13 / (13 - 10 : ℕ) ↔
        [(11, (30 : ℤ)), (13, 6)] = [] ∨
          area [(11, 30), (13, 6)] 10 (lastLedger [(11, 30), (13, 6)]) % (13 - 10 : ℕ) +
            top [(11, 30), (13, 6)] * (13 - lastLedger [(11, 30), (13, 6)] : ℕ) < (13 - 10 : ℕ)) :=
  getTwafr_average_iff ⟨by decide, by decide, by decide, by decide⟩ (by decide)

/-- A hundred held from the first ledger on is an average of a hundred, and of ten nine ledgers later. -/
theorem getTwafr_falls :
    ∃ inv, payAll 10 [(11, 100)] = .ok inv ∧ getTwafr inv 11 = 100 ∧ getTwafr inv 20 = 10 ∧
      area [(11, 100)] 10 20 / (20 - 10 : ℕ) = 100 :=
  ⟨⟨some 10, 100, 100, 11⟩, by decide, by decide, by decide, by decide⟩

end StellarSplit.Split.Averages
