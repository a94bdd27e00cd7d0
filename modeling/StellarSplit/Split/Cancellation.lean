import StellarSplit.Lib.Proportion
import StellarSplit.Split.Disputes
import StellarSplit.Split.PayerBooks

/-!
# The refunds of a cancelled invoice

A cancellation sends every payer what is on record for it and its part of the insurance
fund, rounded down, and the bonus pool to the creator. The parts are taken of the sums per
payer, so less than one unit a payer stays behind.
-/

namespace StellarSplit.Split.Cancellation

open Exec Machine Proportion

variable {env : Env} {s t : Store} {v : Unit} {id : ℕ} {inv : Invoice} {caller token : Address}
  {payments : List Payment}

/-! ## What is sent -/

/-- What a payer gets back: its payments and its part of the insurance fund. -/
def refundOf (inv : Invoice) (payments : List Payment) (payer : Address) : ℤ :=
  paidBy payments payer + part inv.insuranceFund inv.funded (paidBy payments payer)

/-- The refunds, one to each payer. -/
def refunds (id : ℕ) (inv : Invoice) (token : Address) (payments : List Payment) : List (Transfer Memo) :=
  (payersOf payments).map fun payer =>
    ⟨token, currentContract, payer, refundOf inv payments payer, ⟨id, .refund⟩⟩

/-- Everything a cancellation sends, in this order. -/
def cancelTransfers (id : ℕ) (inv : Invoice) (token : Address) (payments : List Payment) :
    List (Transfer Memo) :=
  refunds id inv token payments ++ bonusMovements id inv token

def outflow (ms : List (Transfer Memo)) : ℤ := (ms.map Transfer.amount).sum

/-- What a funded invoice has to be for its refunds to be computed: it has funded what is on record,
and its amounts are words. -/
structure Insured (inv : Invoice) (payments : List Payment) : Prop where
  recorded : Recorded payments
  sum : (payments.map Payment.amount).sum = inv.funded
  funded : 0 < inv.funded
  word : inv.funded ≤ i128Max
  fund : 0 ≤ inv.insuranceFund ∧ inv.insuranceFund ≤ i128Max
  bonus : 0 ≤ inv.bonusPool

section Amounts

theorem paidBy_le_sum (hrecorded : Recorded payments) (payer : Address) :
    paidBy payments payer ≤ (payments.map Payment.amount).sum := by
  rw [← sumOf_totalsOf]
  by_cases hp : payer ∈ payersOf payments
  · refine List.single_le_sum ?_ _ (List.mem_map.2 ⟨(payer, paidBy payments payer), ?_, rfl⟩)
    · intro x hx
      obtain ⟨y, hy, rfl⟩ := List.mem_map.1 hx
      exact totalsOf_nonneg hrecorded y hy
    · exact List.mem_map.2 ⟨payer, hp, rfl⟩
  · rw [paidBy_of_not_mem hp]
    refine List.sum_nonneg fun x hx => ?_
    obtain ⟨y, hy, rfl⟩ := List.mem_map.1 hx
    exact totalsOf_nonneg hrecorded y hy

theorem refundWithPremium_ok (h : Insured inv payments) {payer : Address} {amount : ℤ}
    (hrun : refundWithPremium inv (paidBy payments payer) = .ok amount) :
    amount = refundOf inv payments payer := by
  have hle : paidBy payments payer ≤ inv.funded := (paidBy_le_sum h.recorded payer).trans_eq h.sum
  unfold refundWithPremium at hrun
  unfold refundOf
  split_ifs at hrun with hfund
  · obtain ⟨premium, hpremium, hamount⟩ := except_bind_ok.1 hrun
    obtain rfl := Except.ok.inj hamount
    rw [plainMulDiv_comm] at hpremium
    rw [plainMulDiv_eq_part h.fund (paidBy_nonneg h.recorded payer) hle h.word hpremium]
  · have hnone : inv.insuranceFund = 0 := le_antisymm (not_lt.1 hfund) h.fund.1
    obtain rfl := Except.ok.inj hrun
    rw [hnone, part, zero_mul, Int.zero_ediv, add_zero]

/-- The recorded sums of the payers, whose parts the premium refunds are. -/
theorem sum_shares (h : Insured inv payments) : ((payersOf payments).map (paidBy payments)).sum = inv.funded := by
  rw [← h.sum, ← sumOf_totalsOf, sumOf, totalsOf, List.map_map]
  rfl

theorem outflow_refunds (id : ℕ) (token : Address) (h : Insured inv payments) :
    outflow (refunds id inv token payments) =
      inv.funded + (((payersOf payments).map (paidBy payments)).map (part inv.insuranceFund inv.funded)).sum := by
  have hsplit : outflow (refunds id inv token payments) = ((payersOf payments).map fun payer =>
      paidBy payments payer + part inv.insuranceFund inv.funded (paidBy payments payer)).sum := by
    rw [outflow, refunds, List.map_map]
    rfl
  rw [hsplit, List.sum_map_add, sum_shares h, List.map_map]
  rfl

theorem outflow_bonusMovements (id : ℕ) (token : Address) (h : 0 ≤ inv.bonusPool) :
    outflow (bonusMovements id inv token) = inv.bonusPool := by
  unfold bonusMovements
  split_ifs with hpos
  · simp [outflow]
  · exact (le_antisymm (not_lt.1 hpos) h).symm

theorem outflow_cancelTransfers (h : Insured inv payments) :
    outflow (cancelTransfers id inv token payments) =
      inv.funded + (((payersOf payments).map (paidBy payments)).map (part inv.insuranceFund inv.funded)).sum +
        inv.bonusPool := by
  rw [← outflow_refunds id token h, ← outflow_bonusMovements id token h.bonus,
    cancelTransfers, outflow, outflow, outflow, List.map_append, List.sum_append]

end Amounts

/-! ## The call -/

/-- A loop whose rounds make one transfer each. -/
theorem forM_sent {ι : Type} {xs : List ι} {f : ι → SplitM Unit} {g : ι → Transfer Memo}
    (hf : ∀ x ∈ xs, ∀ s v t, f x s = .ok (v, t) → t.log = g x :: s.log)
    (hrun : forM xs f s = .ok (v, t)) : t.log = (xs.map g).reverse ++ s.log := by
  induction xs generalizing s with
  | nil =>
      obtain ⟨-, rfl⟩ := pure_ok.1 hrun
      rfl
  | cons x xs ih =>
      rw [List.forM_cons] at hrun
      obtain ⟨_, u, hfirst, hrest⟩ := bind_ok.1 hrun
      rw [ih (fun y hy => hf y (List.mem_cons_of_mem x hy)) hrest, hf x (by simp) s _ u hfirst, List.map_cons,
        List.reverse_cons, List.append_assoc]
      rfl

theorem cancelFunded_log (h : Insured inv (s.entries id).payments)
    (hrun : cancelFunded env id inv s = .ok (v, t)) :
    ∃ token, inv.tokens.head? = some token ∧
      t.log = (cancelTransfers id inv token (s.entries id).payments).reverse ++ s.log := by
  unfold cancelFunded at hrun
  obtain ⟨token, htoken, hrun⟩ := orPanic_bind.1 hrun
  simp only [aggregateShardPayments, bind_assoc, getEntry_bind, pure_bind] at hrun
  obtain ⟨_, u₁, hrefund, hrun⟩ := bind_ok.1 hrun
  obtain ⟨_, u₂, hreturn, hrun⟩ := bind_ok.1 hrun
  have hrefunds : u₁.log = (refunds id inv token (s.entries id).payments).reverse ++ s.log := by
    have hsent := forM_sent (g := fun x : Address × ℤ =>
      ⟨token, currentContract, x.1, refundOf inv (s.entries id).payments x.1, ⟨id, .refund⟩⟩)
      (fun x hx w _ w' hone => ?_) hrefund
    · rwa [totalsOf, List.map_map] at hsent
    · obtain ⟨payer, -, rfl⟩ := List.mem_map.1 hx
      obtain ⟨amount, hamount, hone⟩ := ofResult_bind.1 hone
      obtain rfl := refundWithPremium_ok h hamount
      obtain ⟨-, rfl⟩ := transfer_ok.1 hone
      rfl
  have hrest : Framed (Frame Set.univ ∅ noMemo) (do
      maybeRecordRefunded env
      addTotalRefunded (sumOf (totalsOf (s.entries id).payments))) := inferInstance
  obtain ⟨-, rfl⟩ := returnBonus_run.1 hreturn
  refine ⟨token, htoken, ?_⟩
  rw [(quiet_of_framed hrest hrun).2, Store.withLog_log, hrefunds, cancelTransfers, List.reverse_append,
    List.append_assoc]

theorem cancelInvoice_log (hload : (s.entries id).load = some inv) (h : Insured inv (s.entries id).payments)
    (hrun : cancelInvoice env caller id s = .ok (v, t)) :
    ∃ token, inv.tokens.head? = some token ∧
      t.log = (cancelTransfers id inv token (s.entries id).payments).reverse ++ s.log := by
  unfold cancelInvoice at hrun
  obtain ⟨_, _, hlock, hrun⟩ := bind_ok.1 hrun
  obtain ⟨-, rfl⟩ := acquireLock_ok.1 hlock
  simp only [requireNotPaused_bind, requireAuth_bind, loadInvoice_bind, require_bind] at hrun
  obtain ⟨-, -, inv', hload', -, -, -, hrun⟩ := hrun
  obtain rfl : inv = inv' := Option.some.inj (hload.symm.trans hload')
  obtain ⟨_, u₁, hauthorize, hrun⟩ := bind_ok.1 hrun
  obtain rfl := eq_of_framed hauthorize
  obtain ⟨_, u₂, hrate, hrun⟩ := bind_ok.1 hrun
  obtain rfl := eq_of_framed hrate
  obtain ⟨_, u₃, hrefunds, hrun⟩ := bind_ok.1 hrun
  obtain ⟨_, u₄, hsave, hrun⟩ := bind_ok.1 hrun
  have hrest : Framed (Frame Set.univ ∅ noMemo) (do
      countCancel env inv.creator caller
      removeLock) := inferInstance
  rw [cancelRefunds, if_pos h.funded] at hrefunds
  obtain ⟨token, htoken, hsent⟩ := cancelFunded_log (s := s.withLock true) h hrefunds
  obtain ⟨-, rfl⟩ := saveInvoice_ok.1 hsave
  refine ⟨token, htoken, ?_⟩
  rw [(quiet_of_framed hrest hrun).2]
  exact hsent

/-- A cancellation of a funded invoice makes one refund to each payer, of its payments and its part of
the insurance fund, and one of the bonus pool to the creator. All of it is covered by what the
invoice holds, and less than one unit a payer of that stays behind. -/
theorem cancel_refunds_exactly (hload : (s.entries id).load = some inv)
    (h : Insured inv (s.entries id).payments) (hrun : cancelInvoice env caller id s = .ok (v, t)) :
    ∃ token, inv.tokens.head? = some token ∧
      t.log = (cancelTransfers id inv token (s.entries id).payments).reverse ++ s.log ∧
      outflow (cancelTransfers id inv token (s.entries id).payments) ≤
        inv.funded + inv.insuranceFund + inv.bonusPool ∧
      inv.funded + inv.insuranceFund + inv.bonusPool -
        outflow (cancelTransfers id inv token (s.entries id).payments) < (payersOf (s.entries id).payments).length := by
  obtain ⟨token, htoken, hlog⟩ := cancelInvoice_log hload h hrun
  refine ⟨token, htoken, hlog, ?_, ?_⟩
  · have hle := sum_part_le h.funded (sum_shares h) inv.insuranceFund
    rw [outflow_cancelTransfers h]
    linarith
  · have hlt := rest_lt h.funded (sum_shares h) inv.insuranceFund
    rw [List.length_map] at hlt
    rw [outflow_cancelTransfers h]
    linarith

def insuredPayments : List Payment := [⟨20, 40, 0, false⟩, ⟨20, 1, 0, false⟩, ⟨21, 60, 0, false⟩]

/-- Two payers have put 41 and 60 into an invoice with 10 in the insurance fund. -/
def insuredInvoice : Invoice :=
  { sampleInvoice with
    amounts := [51, 50]
    payments := insuredPayments
    funded := 101
    insuranceFund := 10
    bonusPool := 7 }

/-- The parts of the fund are 4 and 5. -/
theorem cancel_refunds_sample :
    ∃ t, cancelInvoice (sampleEnv 10 1000) 2 1 (sampleStore insuredInvoice insuredPayments) = .ok ((), t) ∧
      t.log.map Transfer.amount = [7, 65, 45] ∧ ∃ token, insuredInvoice.tokens.head? = some token ∧
        t.log = (cancelTransfers 1 insuredInvoice token
          ((sampleStore insuredInvoice insuredPayments).entries 1).payments).reverse ++
            (sampleStore insuredInvoice insuredPayments).log ∧
        outflow (cancelTransfers 1 insuredInvoice token
          ((sampleStore insuredInvoice insuredPayments).entries 1).payments) ≤
            insuredInvoice.funded + insuredInvoice.insuranceFund + insuredInvoice.bonusPool ∧
        insuredInvoice.funded + insuredInvoice.insuranceFund + insuredInvoice.bonusPool -
            outflow (cancelTransfers 1 insuredInvoice token
              ((sampleStore insuredInvoice insuredPayments).entries 1).payments) <
          (payersOf ((sampleStore insuredInvoice insuredPayments).entries 1).payments).length := by
  obtain ⟨t, hrun, hamounts⟩ : ∃ t,
      cancelInvoice (sampleEnv 10 1000) 2 1 (sampleStore insuredInvoice insuredPayments) = .ok ((), t) ∧
        t.log.map Transfer.amount = [7, 65, 45] := ⟨_, rfl, by decide +kernel⟩
  have hinsured : Insured insuredInvoice ((sampleStore insuredInvoice insuredPayments).entries 1).payments :=
    ⟨by unfold Recorded; decide +kernel, by decide +kernel, by decide, by decide, by decide, by decide⟩
  exact ⟨t, hrun, hamounts, cancel_refunds_exactly rfl hinsured hrun⟩

end StellarSplit.Split.Cancellation
