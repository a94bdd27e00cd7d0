import StellarSplit.Escrow.Solvency

/-!
# Settling an invoice

What a reachable storage guarantees to the parties of an invoice: the
creator is paid exactly when the gates are open, and a payer gets a deposit
back exactly while the invoice is still open.
-/

namespace StellarSplit.Escrow

open Exec Function

section Refund

variable {env : Env} {s t : Store} {id : ℕ} {inv : EscrowInvoice}

/-- The movement that returns the recorded deposit of a payer. -/
def payerRefund (s : Store) (id : ℕ) (inv : EscrowInvoice) (payer : Address) : Transfer Memo :=
  ⟨inv.token, currentContract, payer, (s.deposits id).value payer, .refund id⟩

theorem refund_isOpen {payers : List Address} {reason : RefundReason} {v : Unit}
    (hinv : s.invoices id = some inv) (h : refund env id payers reason s = .ok (v, t)) :
    isOpen inv = true := by
  simp only [refund, requireUnsettled, bind_ok, getInvoice_ok, require_ok] at h
  obtain ⟨inv', _, ⟨hinv', rfl⟩, -, _, ⟨hs, rfl⟩, -⟩ := h
  obtain rfl := Option.some.inj (hinv.symm.trans hinv')
  exact isOpen_of_unsettled hs

/-- A refund of one payer of an open invoice returns once the token pays out. -/
theorem refund_run {payer : Address} {reason : RefundReason} (hinv : s.invoices id = some inv)
    (hopen : isOpen inv = true) (hdeposit : 0 < (s.deposits id).value payer)
    (hdeadline : inv.deadline < env.now) (hgrace : refundOpensAt inv (s.graces id) < env.now)
    (haccept : env.accepts s.log (payerRefund s id inv payer) = true) :
    ∃ t, refund env id [payer] reason s = .ok ((), t) ∧
      t.log = payerRefund s id inv payer :: s.log := by
  have hone : refundPayer env id inv.token payer s = .ok ((),
      { s with
        deposits := update s.deposits id ((s.deposits id).erase payer)
        log := payerRefund s id inv payer :: s.log }) := by
    simp only [refundPayer, bind_ok, get_ok]
    refine ⟨s, s, ⟨rfl, rfl⟩, ?_⟩
    rw [if_pos hdeposit]
    simp only [bind_ok, set_ok, transfer_ok]
    exact ⟨(), _, rfl, haccept, rfl⟩
  have hloop : forM [payer] (refundPayer env id inv.token) s = .ok ((),
      { s with
        deposits := update s.deposits id ((s.deposits id).erase payer)
        log := payerRefund s id inv payer :: s.log }) := by
    rw [List.forM_cons, bind_run hone]
    rfl
  refine ⟨{ s with
    invoices := update s.invoices id
      (some { inv with status := .refunded, refundReason := some reason })
    deposits := update s.deposits id ((s.deposits id).erase payer)
    log := payerRefund s id inv payer :: s.log }, ?_, rfl⟩
  simp only [refund, requireUnsettled, bind_ok, getInvoice_ok, require_ok, get_ok, saveInvoice_ok]
  exact ⟨inv, s, ⟨hinv, rfl⟩, (), s, ⟨unsettled_of_isOpen hopen, rfl⟩, (), s, ⟨hdeadline, rfl⟩, s, s,
    ⟨rfl, rfl⟩, (), s, ⟨hgrace, rfl⟩, (), _, hloop, rfl⟩

/-- A recorded deposit of an invoice that was not released is covered by what is held. -/
theorem deposit_le_held (hs : s.Sound) (hinv : s.invoices id = some inv)
    (hstatus : inv.status ≠ .released) (payer : Address) :
    (s.deposits id).value payer ≤ held s.log inv.token :=
  ((hs.solvent.sound.account id).value_le_total payer).trans
    (hs.solvent.sound.total_le_held hinv hstatus)

end Refund

/-- After the deadline and the grace period, a payer of an invoice that was not released gets
exactly the recorded deposit back if and only if the invoice is still open: an earlier refund
of other payers or a cancellation leaves the deposit where it is. -/
theorem refund_pays_deposit_iff (calls : List (Env × Op)) (env : Env) (id : ℕ)
    (inv : EscrowInvoice) (payer : Address) (reason : RefundReason)
    (hinv : (reach calls).invoices id = some inv) (hstatus : inv.status ≠ .released)
    (hdeposit : 0 < ((reach calls).deposits id).value payer)
    (hdeadline : inv.deadline < env.now)
    (hgrace : refundOpensAt inv ((reach calls).graces id) < env.now)
    (htoken : env.PaysHeld) :
    (∃ t, refund env id [payer] reason (reach calls) = .ok ((), t) ∧
      t.log = payerRefund (reach calls) id inv payer :: (reach calls).log) ↔
    (inv.status = .pending ∨ inv.status = .active) := by
  constructor
  · rintro ⟨t, h, -⟩
    exact of_decide_eq_true (refund_isOpen hinv h)
  · intro hopen
    refine refund_run hinv (decide_eq_true hopen) hdeposit hdeadline hgrace ?_
    exact htoken _ _ rfl hdeposit (deposit_le_held (reach_sound calls) hinv hstatus payer)

/-- Everybody signs, and the token pays out what is held. -/
def openEnv (now : ℕ) : Env where
  now := now
  sequence := 0
  auth _ := true
  accepts log t := t.src = currentContract → t.amount ≤ held log t.token
  lastprice _ _ := none

theorem openEnv_paysHeld (now : ℕ) : (openEnv now).PaysHeld := by
  intro log t _ _ hle
  simp [openEnv, hle]

/-- Two payers deposit into invoice 0 of creator 2, which stays short of its total. -/
def twoDeposits : List (Env × Op) :=
  [(openEnv 0, .initializeEscrow 1), (openEnv 0, .createInvoice 2 9 100 50),
    (openEnv 1, .deposit 3 0 40), (openEnv 1, .deposit 4 0 30)]

/-- A refund of the first payer alone closes the invoice for the second. -/
theorem refund_strands_second_payer :
    ¬∀ (calls : List (Env × Op)) (env : Env) (id : ℕ) (inv : EscrowInvoice) (payer : Address)
      (reason : RefundReason), (reach calls).invoices id = some inv → inv.status ≠ .released →
      0 < ((reach calls).deposits id).value payer → inv.deadline < env.now →
      refundOpensAt inv ((reach calls).graces id) < env.now → env.PaysHeld →
      ∃ t, refund env id [payer] reason (reach calls) = .ok ((), t) ∧
        t.log = payerRefund (reach calls) id inv payer :: (reach calls).log := by
  intro h
  let calls := twoDeposits ++ [(openEnv 60, .refund 0 [3] .deadlineExpired)]
  let inv : EscrowInvoice := ⟨2, 9, 100, 70, 50, .refunded, some .deadlineExpired⟩
  have hinv : (reach calls).invoices 0 = some inv := by decide +kernel
  obtain ⟨t, ht, -⟩ := h calls (openEnv 60) 0 inv 4 .deadlineExpired hinv (by decide)
    (by decide +kernel) (by decide) (by decide +kernel) (openEnv_paysHeld 60)
  simpa [inv, isOpen] using refund_isOpen hinv ht

theorem refund_pays_first_payer :
    ∃ t, refund (openEnv 60) 0 [3] .deadlineExpired (reach twoDeposits) = .ok ((), t) ∧
      t.log = ⟨9, currentContract, 3, 40, .refund 0⟩ :: (reach twoDeposits).log := by
  have hinv : (reach twoDeposits).invoices 0 = some ⟨2, 9, 100, 70, 50, .active, none⟩ := by
    decide +kernel
  have hvalue : ((reach twoDeposits).deposits 0).value 3 = 40 := by decide +kernel
  have h := (refund_pays_deposit_iff twoDeposits (openEnv 60) 0 _ 3 .deadlineExpired hinv
    (by decide) (by decide +kernel) (by decide) (by decide +kernel) (openEnv_paysHeld 60)).2
    (.inr rfl)
  simpa [payerRefund, hvalue] using h

section Release

variable {env : Env} {s t : Store} {id : ℕ} {inv : EscrowInvoice}

/-- With its gates open, a full invoice is released once the token pays out. -/
theorem release_run (hinv : s.invoices id = some inv) (hopen : isOpen inv = true)
    (hfull : inv.totalAmount ≤ inv.fundedAmount) (hgates : GatesOpen env s id)
    (haccept : env.accepts s.log (creatorPayment id inv) = true) :
    ∃ t, release env id s = .ok ((), t) ∧ t.log = creatorPayment id inv :: s.log := by
  obtain ⟨r, reads, hcheck, hr⟩ := checkReleaseGates_spec env id s
  obtain rfl := hr.2 hgates
  obtain ⟨t, hrun, hb, -⟩ := executeRelease_run inv (s := { s with oracleReads := reads }) haccept
  refine ⟨t, ?_, congrArg Books.log hb⟩
  simp only [release, requireUnsettled, bind_ok, getInvoice_ok, require_ok]
  exact ⟨inv, s, ⟨hinv, rfl⟩, (), s, ⟨unsettled_of_isOpen hopen, rfl⟩, (), s, ⟨hfull, rfl⟩, _, _,
    hcheck, ignore_ok.2 ⟨_, hrun⟩⟩

/-- A deposit that completes an invoice with open gates pays the creator in the same call. -/
theorem deposit_run_open {payer : Address} {amount : ℤ}
    (hd : Depositable env s payer id amount inv)
    (hfull : inv.totalAmount ≤ inv.fundedAmount + amount) (hgates : GatesOpen env s id)
    (haccept : env.accepts (s.funded id inv payer amount).log (creatorPayment id inv) = true) :
    ∃ t, deposit env payer id amount s = .ok ((), t) ∧
      t.log = creatorPayment id inv :: (s.funded id inv payer amount).log := by
  obtain ⟨r, reads, hcheck, hr⟩ := checkReleaseGates_spec env id (s.funded id inv payer amount)
  obtain rfl := hr.2 hgates
  obtain ⟨t, hrun, hb, -⟩ := executeRelease_run
    { inv with fundedAmount := inv.fundedAmount + amount, status := .active }
    (s := { s.funded id inv payer amount with oracleReads := reads }) haccept
  refine ⟨t, deposit_ok.2 ⟨inv, hd, ?_⟩, congrArg Books.log hb⟩
  unfold releaseOrSave
  rw [if_pos hfull, bind_run hcheck]
  exact ignore_ok.2 ⟨_, hrun⟩

/-- A deposit that completes an invoice with a closed gate leaves it active. -/
theorem deposit_run_closed {payer : Address} {amount : ℤ}
    (hd : Depositable env s payer id amount inv)
    (hfull : inv.totalAmount ≤ inv.fundedAmount + amount) (hgates : ¬GatesOpen env s id) :
    ∃ t, deposit env payer id amount s = .ok ((), t) ∧
      t.log = (s.funded id inv payer amount).log := by
  obtain ⟨r, reads, hcheck, hr⟩ := checkReleaseGates_spec env id (s.funded id inv payer amount)
  cases r with
  | ok u => exact (hgates (hr.1 rfl)).elim
  | error e =>
      refine ⟨{ s.funded id inv payer amount with
        oracleReads := reads
        invoices := update s.invoices id
          (some { inv with fundedAmount := inv.fundedAmount + amount, status := .active }) },
        deposit_ok.2 ⟨inv, hd, ?_⟩, rfl⟩
      unfold releaseOrSave
      rw [if_pos hfull, bind_run hcheck]
      exact saveInvoice_ok.2 rfl

theorem funded_le_held (hs : s.Sound) (hinv : s.invoices id = some inv) (hopen : isOpen inv = true) :
    inv.fundedAmount ≤ held s.log inv.token := by
  rw [((hs.solvent.sound.account id).whileOpen inv hinv hopen).1]
  exact hs.solvent.sound.total_le_held hinv (Books.Sound.not_released_of_isOpen hopen)

end Release

/-- In every reachable storage the votes of an invoice are distinct, disjoint votes of its
signers with the status they call for, and both `release` and the release at the end of
`deposit` pay an open, full invoice if and only if all its gates are open. -/
theorem release_pays_iff_gates_open (calls : List (Env × Op)) :
    (∀ id a, (reach calls).approvals id = some a →
      a.signers.Nodup ∧ a.approvals.Nodup ∧ a.rejections.Nodup ∧
      a.approvals ⊆ a.signers ∧ a.rejections ⊆ a.signers ∧ a.approvals.Disjoint a.rejections ∧
      (a.status = .approved ↔ a.threshold ≤ a.approvals.length) ∧
      (a.status = .rejected ↔ a.status ≠ .approved ∧
        (a.signers.filter (· ∉ a.rejections)).length < a.threshold)) ∧
    (∀ (env : Env) id inv, (reach calls).invoices id = some inv → isOpen inv = true →
      inv.totalAmount ≤ inv.fundedAmount → env.PaysHeld →
      ((∃ t, release env id (reach calls) = .ok ((), t) ∧
        t.log = creatorPayment id inv :: (reach calls).log) ↔ GatesOpen env (reach calls) id)) ∧
    (∀ (env : Env) payer id amount inv, Depositable env (reach calls) payer id amount inv →
      inv.totalAmount ≤ inv.fundedAmount + amount → env.PaysHeld →
      ∃ t, deposit env payer id amount (reach calls) = .ok ((), t) ∧
        (t.log = creatorPayment id inv :: ((reach calls).funded id inv payer amount).log ↔
          GatesOpen env (reach calls) id) ∧
        (t.log = ((reach calls).funded id inv payer amount).log ↔
          ¬GatesOpen env (reach calls) id)) := by
  have hsound := reach_sound calls
  generalize reach calls = s at hsound
  refine ⟨?_, ?_, ?_⟩
  · intro id a ha
    have hv := hsound.votes id a ha
    exact ⟨hv.signers, hv.approvals, hv.rejections, hv.approvals_subset, hv.rejections_subset,
      hv.disjoint, hv.approved, hv.rejected⟩
  · intro env id inv hinv hopen hfull htoken
    constructor
    · rintro ⟨t, h, -⟩
      obtain ⟨_, _, _, _, hgates, -⟩ := release_books h
      exact hgates
    · intro hgates
      have hheld := funded_le_held hsound hinv hopen
      have hpos := ((hsound.solvent.sound.account id).funded inv hinv).2.2
      exact release_run hinv hopen hfull hgates (htoken _ _ rfl hpos (hfull.trans hheld))
  · intro env payer id amount inv hd hfull htoken
    by_cases hgates : GatesOpen env s id
    · have hfunded := hsound.solvent.sound.fund hd.invoice hd.isOpen hd.positive hd.auth.2 hd.fits
      have hself : (s.books.fundBy id inv payer amount).invoices id = _ :=
        Books.withInvoice_self _ _ _
      have hheld := hfunded.total_le_held hself (by simp)
      have hdue := ((hfunded.account id).whileOpen _ hself rfl).1
      have hpos := ((hfunded.account id).funded _ hself).2.2
      obtain ⟨t, ht, hlog⟩ := deposit_run_open hd hfull hgates
        (htoken _ _ rfl hpos (hfull.trans (hdue.le.trans hheld)))
      refine ⟨t, ht, ?_, ?_⟩
      · simp [hlog, hgates]
      · simp [hlog, hgates]
    · obtain ⟨t, ht, hlog⟩ := deposit_run_closed hd hfull hgates
      refine ⟨t, ht, ?_, ?_⟩
      · simp [hlog, hgates]
      · simp [hlog, hgates]

/-- A co-signed invoice is funded in full and then approved by one of its two signers. -/
def approvedInvoice : List (Env × Op) :=
  [(openEnv 0, .initializeEscrow 1), (openEnv 0, .createInvoice 2 9 100 50),
    (openEnv 0, .setCosigners 0 [5, 6] 1), (openEnv 1, .deposit 3 0 100),
    (openEnv 2, .approveRelease 6 0)]

theorem approved_invoice_released :
    ∃ t, release (openEnv 2) 0 (reach approvedInvoice) = .ok ((), t) ∧
      t.log = ⟨9, currentContract, 2, 100, .release 0⟩ :: (reach approvedInvoice).log := by
  have hinv : (reach approvedInvoice).invoices 0 = some ⟨2, 9, 100, 100, 50, .active, none⟩ := by
    decide +kernel
  have hschedule : (reach approvedInvoice).schedules 0 = none := by decide +kernel
  have happroval : (reach approvedInvoice).approvals 0 =
      some ⟨[5, 6], 1, [6], [], .approved, 0⟩ := by decide +kernel
  have horacle : (reach approvedInvoice).oracleConds 0 = none := by decide +kernel
  have hgates : GatesOpen (openEnv 2) (reach approvedInvoice) 0 := by
    simp [GatesOpen, hschedule, happroval, horacle]
  exact ((release_pays_iff_gates_open approvedInvoice).2.1 (openEnv 2) 0 _ hinv rfl le_rfl
    (openEnv_paysHeld 2)).2 hgates

end StellarSplit.Escrow
