import Mathlib.Algebra.BigOperators.Group.Finset.Basic
import StellarSplit.Split.Payout

/-!
# Failed payouts

A failed payout is kept in the list of failed recipients and in the record of
its amount. `claim_fallback` and `sweep_unclaimed_funds` clear both;
`retry_failed_payout` clears the list only and `release_to_recipient` neither,
so after these two the same payout can be settled again.
-/

namespace StellarSplit.Split

open Exec Function Machine

variable {s t : Store} {env : Env} {id : ℕ} {inv : Invoice} {r : Address} {a : ℤ}

/-! ## What a sweep collects -/

theorem sweepBalances_fst (balances : Address → ℤ) (as : List Address) (b : Address) :
    (sweepBalances balances as).1 b = if b ∈ as ∧ 0 < balances b then 0 else balances b := by
  induction as generalizing balances with
  | nil => simp [sweepBalances]
  | cons c as ih =>
      unfold sweepBalances
      by_cases hpos : 0 < balances c
      · simp only [hpos, if_true]
        rw [ih]
        by_cases hbc : b = c
        · subst hbc
          simp [hpos]
        · simp [hbc]
      · rw [if_neg hpos, ih]
        by_cases hbc : b = c
        · subst hbc
          simp [hpos]
        · simp [hbc]

/-- The part of a sweep that is collected for one address. -/
def sweptFor (e : Entry) (recipients : List Address) (r : Address) : ℤ :=
  (if r ∈ recipients then max (e.fallbackEscrow r) 0 else 0) +
    if r ∈ e.failedPayouts then max (e.failedRecord r) 0 else 0

/-! ## The calls -/

inductive FailedCall where
  | retryFailedPayout (recipient : Address)
  | claimFallback (recipient : Address)
  | sweepUnclaimedFunds (admin : Address)
  | releaseToRecipient (recipient : Address)
deriving DecidableEq

structure FailedStep where
  env : Env
  call : FailedCall

def FailedStep.run (id : ℕ) (step : FailedStep) : SplitM Unit :=
  match step.call with
  | .retryFailedPayout recipient => Split.retryFailedPayout step.env id recipient
  | .claimFallback recipient => Split.claimFallback step.env recipient id
  | .sweepUnclaimedFunds admin => ignore (Split.sweepUnclaimedFunds step.env admin id)
  | .releaseToRecipient recipient => Split.releaseToRecipient step.env id recipient

/-- The movements to a recipient that settle a payout of the invoice. -/
def settlesTo (id : ℕ) (r : Address) (m : Transfer Memo) : Bool :=
  m.memo.invoice = id ∧
    (m.memo.purpose = .retry ∨ m.memo.purpose = .fallback ∨ m.memo.purpose = .single) ∧ m.dst = r

def settledTo (id : ℕ) (r : Address) (s : Store) : ℤ := tally (settlesTo id r) s.log

/-- The part of a sweep call that is collected for the recipient. -/
def FailedStep.sweeps (id : ℕ) (r : Address) (step : FailedStep) (s : Store) : ℤ :=
  match step.call, (s.entries id).invoice with
  | .sweepUnclaimedFunds _, some inv => sweptFor (s.entries id) inv.recipients r
  | _, _ => 0

/-- What a returning call sends out for the payout of `r`, to the recipient or to the treasury. -/
def FailedStep.settles (id : ℕ) (r : Address) (step : FailedStep) (s t : Store) : ℤ :=
  settledTo id r t - settledTo id r s + step.sweeps id r s

/-- What the calls of a run that return send out for the payout of `r`. -/
def settlement (id : ℕ) (r : Address) : Store → List FailedStep → ℤ
  | _, [] => 0
  | s, step :: steps =>
      (match step.run id s with
        | .ok (_, t) => step.settles id r s t
        | .error _ => 0) +
        settlement id r (commit (step.run id) s) steps

theorem settlement_cons_ok {step : FailedStep} {v : Unit} (hrun : step.run id s = .ok (v, t))
    (steps : List FailedStep) :
    settlement id r s (step :: steps) = step.settles id r s t + settlement id r t steps := by
  rw [settlement, hrun, commit_ok hrun]

theorem settlement_cons_error {step : FailedStep} {e : SplitFault} (hrun : step.run id s = .error e)
    (steps : List FailedStep) : settlement id r s (step :: steps) = settlement id r s steps := by
  rw [settlement, hrun, commit_error hrun, zero_add]

/-! ## What a call does to the records of one recipient -/

/-- The three records of a recipient are the same. -/
structure SameDebt (r : Address) (e e' : Entry) : Prop where
  listed : r ∈ e'.failedPayouts ↔ r ∈ e.failedPayouts
  record : e'.failedRecord r = e.failedRecord r
  escrow : e'.fallbackEscrow r = e.fallbackEscrow r

theorem SameDebt.trans {e₁ e₂ e₃ : Entry} (h₁ : SameDebt r e₁ e₂) (h₂ : SameDebt r e₂ e₃) :
    SameDebt r e₁ e₃ :=
  ⟨h₂.listed.trans h₁.listed, h₂.record.trans h₁.record, h₂.escrow.trans h₁.escrow⟩

theorem SameDebt.of_eq {e e' : Entry} (h : e' = e) : SameDebt r e e' := by
  subst h
  exact ⟨Iff.rfl, rfl, rfl⟩

theorem SameDebt.removeFailed {other : Address} (hne : other ≠ r) (e : Entry) :
    SameDebt r e (e.removeFailed other) := by
  refine ⟨?_, rfl, rfl⟩
  simp only [Entry.removeFailed, List.mem_filter, decide_eq_true_eq, and_iff_left_iff_imp]
  exact fun _ => hne.symm

theorem SameDebt.appendFailed {other : Address} (hne : other ≠ r) (e : Entry) :
    SameDebt r e (e.appendFailed other) := by
  unfold Entry.appendFailed
  split
  · exact .of_eq rfl
  · exact ⟨by simp [hne.symm], rfl, rfl⟩

theorem saveInvoice_debt {v : Unit} (hrun : saveInvoice env id inv s = .ok (v, t)) :
    SameDebt r (s.entries id) (t.entries id) ∧ t.log = s.log := by
  obtain ⟨-, rfl⟩ := saveInvoice_ok.1 hrun
  rw [Store.setEntry_self]
  exact ⟨⟨Iff.rfl, rfl, rfl⟩, rfl⟩

theorem settledTo_log (h : t.log = s.log) : settledTo id r t = settledTo id r s := by
  unfold settledTo
  rw [h]

theorem settledTo_other {m : Transfer Memo} (h : m.dst ≠ r) :
    settledTo id r (s.withLog (m :: s.log)) = settledTo id r s := by
  unfold settledTo
  rw [Store.withLog_log, tally_cons, if_neg (by simp [settlesTo, h]), zero_add]

theorem retryFailedPayout_other {recipient : Address} {v : Unit} (hne : recipient ≠ r)
    (hrun : retryFailedPayout env id recipient s = .ok (v, t)) :
    SameDebt r (s.entries id) (t.entries id) ∧ settledTo id r t = settledTo id r s := by
  simp only [retryFailedPayout, requireNotPaused_bind, loadInvoice_bind, getEntry_bind, require_bind,
    orPanic_bind, ofResult_bind] at hrun
  obtain ⟨-, inv, -, -, -, -, _, -, payout, -, hrun⟩ := hrun
  obtain ⟨_, u₁, hpay, hrun⟩ := bind_ok.1 hrun
  obtain ⟨-, rfl⟩ := transfer_ok.1 hpay
  obtain ⟨_, u₂, hremove, hrun⟩ := bind_ok.1 hrun
  obtain rfl := modifyEntry_ok.1 hremove
  have hremoved := SameDebt.removeFailed hne (s.entries id)
  rcases onlyIf_ok.1 hrun with ⟨-, hfinish⟩ | ⟨-, rfl⟩
  · obtain ⟨_, u₃, hsave, hclose⟩ := bind_ok.1 hfinish
    obtain ⟨hentries, hlog⟩ := quiet_of_framed inferInstance hclose
    obtain ⟨hsame, hlog'⟩ := saveInvoice_debt (r := r) hsave
    rw [Store.setEntry_self] at hsame
    refine ⟨?_, ?_⟩
    · rw [hentries]
      exact hremoved.trans hsame
    · exact (settledTo_log (hlog.trans hlog')).trans (settledTo_other hne)
  · rw [Store.setEntry_self]
    exact ⟨hremoved, settledTo_other hne⟩

theorem releaseToRecipient_other {recipient : Address} {v : Unit} (hne : recipient ≠ r)
    (hrun : releaseToRecipient env id recipient s = .ok (v, t)) :
    SameDebt r (s.entries id) (t.entries id) ∧ settledTo id r t = settledTo id r s := by
  simp only [releaseToRecipient, requireFnNotPaused_bind, loadInvoice_bind, getEntry_bind,
    require_bind, requireAuth_bind] at hrun
  obtain ⟨-, inv, -, -, -, -, -, -, -, hrun⟩ := hrun
  obtain ⟨_, u, hdelay, hrun⟩ := bind_ok.1 hrun
  obtain rfl := eq_of_framed hdelay
  simp only [orPanic_bind, ofResult_bind, require_bind] at hrun
  obtain ⟨_, -, -, amount, -, -, hrun⟩ := hrun
  obtain ⟨sent, u, htry, hrun⟩ := bind_ok.1 hrun
  obtain ⟨-, rfl⟩ := tryTransfer_ok.1 htry
  cases sent with
  | true =>
      simp only [if_true] at hrun
      simp only [bookRecipientPaid, bind_ok, modifyEntry_ok, getEntry_ok] at hrun
      obtain ⟨_, _, rfl, _, _, ⟨rfl, rfl⟩, hsave⟩ := hrun
      obtain ⟨hsame, hlog⟩ := saveInvoice_debt (r := r) hsave
      rw [Store.setEntry_self] at hsame
      have hbooked : SameDebt r (s.entries id)
          { s.entries id with paidRecipients := (s.entries id).paidRecipients ++ [recipient] } :=
        ⟨Iff.rfl, rfl, rfl⟩
      exact ⟨hbooked.trans hsame, (settledTo_log hlog).trans (settledTo_other hne)⟩
  | false =>
      simp only [Bool.false_eq_true, if_false] at hrun
      simp only [bookRecipientFailed, recordFailedPayout, bind_ok, modifyEntry_ok] at hrun
      obtain ⟨_, _, rfl, hsave⟩ := hrun
      obtain ⟨hsame, hlog⟩ := saveInvoice_debt (r := r) hsave
      rw [Store.setEntry_self] at hsame
      have hrecord : SameDebt r (s.entries id)
          { s.entries id with failedRecord := update (s.entries id).failedRecord recipient amount } :=
        ⟨Iff.rfl, update_of_ne hne.symm _ _, rfl⟩
      exact ⟨(hrecord.trans (.appendFailed hne _)).trans hsame, settledTo_log hlog⟩

theorem claimFallback_ok {recipient : Address} {v : Unit}
    (hrun : claimFallback env recipient id s = .ok (v, t)) :
    0 < max ((s.entries id).failedRecord recipient) ((s.entries id).fallbackEscrow recipient) ∧
      ∃ token, t.log = ⟨token, currentContract, recipient,
          max ((s.entries id).failedRecord recipient) ((s.entries id).fallbackEscrow recipient),
          ⟨id, .fallback⟩⟩ :: s.log ∧
        (recipient ≠ r → SameDebt r (s.entries id) (t.entries id)) ∧
        ((s.entries id).fallbackEscrow recipient = 0 → recipient ∉ (t.entries id).failedPayouts ∧
          (t.entries id).failedRecord recipient = 0 ∧ (t.entries id).fallbackEscrow recipient = 0) := by
  simp only [claimFallback, requireAuth_bind, getEntry_bind, require_bind, loadInvoice_bind] at hrun
  obtain ⟨-, hpos, inv, -, hrun⟩ := hrun
  obtain ⟨_, u₁, hrecord, hrun⟩ := bind_ok.1 hrun
  obtain ⟨_, u₂, hescrow, hpay⟩ := bind_ok.1 hrun
  obtain ⟨-, rfl⟩ := transfer_ok.1 hpay
  refine ⟨hpos, fundingTokenFor inv, ?_⟩
  rcases onlyIf_ok.1 hrecord with ⟨hrec, hclear⟩ | ⟨hrec, rfl⟩
  · obtain rfl := modifyEntry_ok.1 hclear
    have hother : recipient ≠ r → SameDebt r (s.entries id) ({ s.entries id with
        failedRecord := update (s.entries id).failedRecord recipient 0 }.removeFailed recipient) := by
      intro hne
      have hupdate : SameDebt r (s.entries id)
          { s.entries id with failedRecord := update (s.entries id).failedRecord recipient 0 } :=
        ⟨Iff.rfl, update_of_ne hne.symm _ _, rfl⟩
      exact hupdate.trans (.removeFailed hne _)
    rcases onlyIf_ok.1 hescrow with ⟨hesc, hclear'⟩ | ⟨-, rfl⟩
    · obtain rfl := modifyEntry_ok.1 hclear'
      refine ⟨rfl, ?_, fun hzero => absurd hzero hesc.ne'⟩
      intro hne
      simp only [Store.withLog_entries, Store.setEntry_self]
      exact (hother hne).trans ⟨Iff.rfl, rfl, update_of_ne hne.symm _ _⟩
    · refine ⟨rfl, ?_, fun hzero => ?_⟩
      · simpa only [Store.withLog_entries, Store.setEntry_self] using hother
      · simp only [Store.withLog_entries, Store.setEntry_self]
        refine ⟨?_, update_self _ _ _, hzero⟩
        simp [Entry.removeFailed]
  · rcases onlyIf_ok.1 hescrow with ⟨hesc, hclear'⟩ | ⟨hesc, rfl⟩
    · obtain rfl := modifyEntry_ok.1 hclear'
      refine ⟨rfl, ?_, fun hzero => absurd hzero hesc.ne'⟩
      intro hne
      simp only [Store.withLog_entries, Store.setEntry_self]
      exact ⟨Iff.rfl, rfl, update_of_ne hne.symm _ _⟩
    · omega

theorem sweepUnclaimedFunds_ok {admin : Address} {swept : ℤ}
    (hrun : sweepUnclaimedFunds env admin id s = .ok (swept, t)) :
    ∃ inv token treasury, (s.entries id).load = some inv ∧
      swept = sweptAmount (s.entries id) inv.recipients ∧
      t.log = ⟨token, currentContract, treasury, swept, ⟨id, .sweep⟩⟩ :: s.log ∧
      t.entries id = { (s.entries id).swept inv.recipients with lastFailedLedger := none } := by
  simp only [sweepUnclaimedFunds, require_bind, requireAuth_bind, getEntry_bind, orPanic_bind,
    loadInvoice_bind] at hrun
  obtain ⟨-, -, -, _, -, -, inv, hload, hrun⟩ := hrun
  obtain ⟨_, u₁, hclear, hrun⟩ := bind_ok.1 hrun
  obtain rfl := modifyEntry_ok.1 hclear
  simp only [require_bind, orPanic_bind] at hrun
  obtain ⟨-, treasury, -, hrun⟩ := hrun
  obtain ⟨_, u₂, hpay, hrun⟩ := bind_ok.1 hrun
  obtain ⟨-, rfl⟩ := transfer_ok.1 hpay
  obtain ⟨_, u₃, hledger, hrun⟩ := bind_ok.1 hrun
  obtain rfl := modifyEntry_ok.1 hledger
  obtain ⟨rfl, rfl⟩ := pure_ok.1 hrun
  refine ⟨inv, fundingTokenFor inv, treasury, hload, rfl, rfl, ?_⟩
  simp only [Store.withLog_entries, Store.setEntry_self]

/-! ## Settling once -/

/-- A failed payout of `a` is listed and recorded; the legacy escrow, which no call writes, is
empty. -/
structure Outstanding (id : ℕ) (r : Address) (a : ℤ) (s : Store) : Prop where
  listed : r ∈ (s.entries id).failedPayouts
  record : (s.entries id).failedRecord r = a
  escrow : (s.entries id).fallbackEscrow r = 0

/-- The list, the record and the escrow are all cleared. -/
structure Cleared (id : ℕ) (r : Address) (s : Store) : Prop where
  listed : r ∉ (s.entries id).failedPayouts
  record : (s.entries id).failedRecord r = 0
  escrow : (s.entries id).fallbackEscrow r = 0

theorem Outstanding.same (h : Outstanding id r a s) (hst : SameDebt r (s.entries id) (t.entries id)) :
    Outstanding id r a t :=
  ⟨hst.listed.2 h.listed, hst.record.trans h.record, hst.escrow.trans h.escrow⟩

theorem Cleared.same (h : Cleared id r s) (hst : SameDebt r (s.entries id) (t.entries id)) :
    Cleared id r t :=
  ⟨fun hin => h.listed (hst.listed.1 hin), hst.record.trans h.record, hst.escrow.trans h.escrow⟩

/-- The call goes to the recipient past the records. -/
def FailedStep.Bypasses (r : Address) (step : FailedStep) : Prop :=
  step.call = .retryFailedPayout r ∨ step.call = .releaseToRecipient r

/-- A call that bypasses no record is a claim of the recipient, a sweep, or leaves the records
of the recipient alone. -/
theorem FailedStep.cases_of_ok {step : FailedStep} {v : Unit} (hstep : ¬step.Bypasses r)
    (hrun : step.run id s = .ok (v, t)) :
    (SameDebt r (s.entries id) (t.entries id) ∧ step.settles id r s t = 0) ∨
      (claimFallback step.env r id s = .ok (v, t) ∧ step.sweeps id r s = 0) ∨
      ∃ admin swept, sweepUnclaimedFunds step.env admin id s = .ok (swept, t) ∧
        step.call = .sweepUnclaimedFunds admin := by
  obtain ⟨env, call⟩ := step
  cases call with
  | retryFailedPayout recipient =>
      have hne : recipient ≠ r := by
        rintro rfl
        exact hstep (.inl rfl)
      obtain ⟨hsame, hpaid⟩ := retryFailedPayout_other hne hrun
      exact .inl ⟨hsame, by simp [settles, sweeps, hpaid]⟩
  | releaseToRecipient recipient =>
      have hne : recipient ≠ r := by
        rintro rfl
        exact hstep (.inr rfl)
      obtain ⟨hsame, hpaid⟩ := releaseToRecipient_other hne hrun
      exact .inl ⟨hsame, by simp [settles, sweeps, hpaid]⟩
  | claimFallback recipient =>
      by_cases hne : recipient = r
      · subst hne
        exact .inr (.inl ⟨hrun, by simp [sweeps]⟩)
      · obtain ⟨-, token, hlog, hsame, -⟩ := claimFallback_ok (r := r) hrun
        have hpaid : settledTo id r t = settledTo id r s := by
          unfold settledTo
          rw [hlog, tally_cons, if_neg (by simp [settlesTo, hne]), zero_add]
        exact .inl ⟨hsame hne, by simp [settles, sweeps, hpaid]⟩
  | sweepUnclaimedFunds admin =>
      obtain ⟨swept, hsweep⟩ := ignore_ok.1 hrun
      exact .inr (.inr ⟨admin, swept, hsweep, rfl⟩)

/-- A sweep clears the list, clears the records of the listed recipients and pays the treasury. -/
theorem sweep_settles {step : FailedStep} {admin : Address} {swept : ℤ}
    (hrun : sweepUnclaimedFunds step.env admin id s = .ok (swept, t))
    (hcall : step.call = .sweepUnclaimedFunds admin) (hescrow : (s.entries id).fallbackEscrow r = 0) :
    r ∉ (t.entries id).failedPayouts ∧
      (t.entries id).failedRecord r =
        (if r ∈ (s.entries id).failedPayouts ∧ 0 < (s.entries id).failedRecord r then 0
          else (s.entries id).failedRecord r) ∧
      (t.entries id).fallbackEscrow r = 0 ∧
      step.settles id r s t =
        if r ∈ (s.entries id).failedPayouts then max ((s.entries id).failedRecord r) 0 else 0 := by
  obtain ⟨inv, token, treasury, hload, -, hlog, hentry⟩ := sweepUnclaimedFunds_ok hrun
  obtain ⟨stored, hstored, rfl⟩ := Option.map_eq_some_iff.1 hload
  have hpaid : settledTo id r t = settledTo id r s := by
    unfold settledTo
    rw [hlog, tally_cons, if_neg (by simp [settlesTo]), zero_add]
  rw [hentry]
  refine ⟨by simp [Entry.swept], sweepBalances_fst _ _ r, ?_, ?_⟩
  · change (sweepBalances (s.entries id).fallbackEscrow _).1 r = 0
    rw [sweepBalances_fst, hescrow]
    simp
  · simp [FailedStep.settles, FailedStep.sweeps, hcall, hstored, hpaid, sweptFor, hescrow]

theorem Cleared.step {step : FailedStep} {v : Unit} (h : Cleared id r s) (hstep : ¬step.Bypasses r)
    (hrun : step.run id s = .ok (v, t)) : Cleared id r t ∧ step.settles id r s t = 0 := by
  rcases FailedStep.cases_of_ok hstep hrun with ⟨hsame, hnone⟩ | ⟨hclaim, -⟩ | ⟨admin, swept, hsweep, hcall⟩
  · exact ⟨h.same hsame, hnone⟩
  · have hpos := (claimFallback_ok (r := r) hclaim).1
    simp [h.record, h.escrow] at hpos
  · obtain ⟨hlist, hrecord, hescrow, hsettles⟩ := sweep_settles hsweep hcall h.escrow
    refine ⟨⟨hlist, ?_, hescrow⟩, ?_⟩
    · simpa [h.record] using hrecord
    · simpa [h.listed] using hsettles

theorem Outstanding.step {step : FailedStep} {v : Unit} (ha : 0 < a) (h : Outstanding id r a s)
    (hstep : ¬step.Bypasses r) (hrun : step.run id s = .ok (v, t)) :
    (Outstanding id r a t ∧ step.settles id r s t = 0) ∨
      (Cleared id r t ∧ step.settles id r s t = a) := by
  rcases FailedStep.cases_of_ok hstep hrun with ⟨hsame, hnone⟩ | ⟨hclaim, hsweeps⟩ |
    ⟨admin, swept, hsweep, hcall⟩
  · exact .inl ⟨h.same hsame, hnone⟩
  · obtain ⟨-, token, hlog, -, hcleared⟩ := claimFallback_ok (r := r) hclaim
    obtain ⟨hlist, hrecord, hescrow⟩ := hcleared h.escrow
    refine .inr ⟨⟨hlist, hrecord, hescrow⟩, ?_⟩
    have hpaid : settledTo id r t = a + settledTo id r s := by
      unfold settledTo
      rw [hlog, tally_cons, if_pos (by simp [settlesTo]), h.record, h.escrow]
      change max a 0 + _ = _
      rw [max_eq_left ha.le]
    unfold FailedStep.settles
    rw [hsweeps, hpaid]
    ring
  · obtain ⟨hlist, hrecord, hescrow, hsettles⟩ := sweep_settles hsweep hcall h.escrow
    rw [if_pos h.listed, h.record, max_eq_left ha.le] at hsettles
    rw [if_pos ⟨h.listed, by rw [h.record]; exact ha⟩] at hrecord
    exact .inr ⟨⟨hlist, hrecord, hescrow⟩, hsettles⟩

theorem Cleared.run {steps : List FailedStep} (h : Cleared id r s)
    (hsteps : Along (fun _ step => ¬step.Bypasses r) (FailedStep.run id) s steps) :
    Cleared id r (runAll (FailedStep.run id) s steps) ∧ settlement id r s steps = 0 := by
  induction steps generalizing s with
  | nil => exact ⟨h, rfl⟩
  | cons step steps ih =>
      obtain ⟨hstep, hrest⟩ := hsteps
      cases hrun : step.run id s with
      | ok p =>
          obtain ⟨v, t⟩ := p
          rw [commit_ok hrun] at hrest
          obtain ⟨ht, hnone⟩ := h.step (hstep ⟨_, hrun⟩) hrun
          obtain ⟨hend, hzero⟩ := ih ht hrest
          rw [runAll_cons, commit_ok hrun, settlement_cons_ok hrun, hnone, hzero]
          exact ⟨hend, rfl⟩
      | error e =>
          rw [commit_error hrun] at hrest
          rw [runAll_cons, commit_error hrun, settlement_cons_error hrun]
          exact ih h hrest

/-- In a run without a retry or an individual release for the recipient, a failed payout is
settled at most once, and its records are cleared together. -/
theorem failed_payout_settled_once {steps : List FailedStep} (ha : 0 < a)
    (h : Outstanding id r a s)
    (hsteps : Along (fun _ step => ¬step.Bypasses r) (FailedStep.run id) s steps) :
    settlement id r s steps ≤ a ∧
      (Outstanding id r a (runAll (FailedStep.run id) s steps) ∨
        Cleared id r (runAll (FailedStep.run id) s steps)) := by
  induction steps generalizing s with
  | nil => exact ⟨ha.le, .inl h⟩
  | cons step steps ih =>
      obtain ⟨hstep, hrest⟩ := hsteps
      cases hrun : step.run id s with
      | ok p =>
          obtain ⟨v, t⟩ := p
          rw [commit_ok hrun] at hrest
          rw [runAll_cons, commit_ok hrun, settlement_cons_ok hrun]
          rcases h.step ha (hstep ⟨_, hrun⟩) hrun with ⟨ht, hnone⟩ | ⟨ht, hall⟩
          · rw [hnone, zero_add]
            exact ih ht hrest
          · obtain ⟨hend, hzero⟩ := ht.run hrest
            rw [hall, hzero, add_zero]
            exact ⟨le_rfl, .inr hend⟩
      | error e =>
          rw [commit_error hrun] at hrest
          rw [runAll_cons, commit_error hrun, settlement_cons_error hrun]
          exact ih h hrest

/-! ### The sample contract after a release that recipient 11 did not get -/

def afterFailure : Store := commit (release (refusingEnv 20 150 11) 1) fundedStore

theorem sample_payout_claimed_once :
    Outstanding 1 11 50 afterFailure ∧
      settlement 1 11 afterFailure [⟨sampleEnv 30 150, .claimFallback 11⟩,
        ⟨sampleEnv 40 150, .claimFallback 11⟩] ≤ 50 := by
  have h : Outstanding 1 11 50 afterFailure :=
    ⟨by decide +kernel, by decide +kernel, by decide +kernel⟩
  refine ⟨h, (failed_payout_settled_once (by norm_num) h ?_).1⟩
  refine ⟨fun _ hbypass => ?_, fun _ hbypass => ?_, trivial⟩
  all_goals simp [FailedStep.Bypasses] at hbypass

/-- The retry pays the 50 and leaves the record, which the recipient then claims. -/
theorem retry_then_claim_pays_twice :
    Outstanding 1 11 50 afterFailure ∧
      settlement 1 11 afterFailure [⟨sampleEnv 30 150, .retryFailedPayout 11⟩,
        ⟨sampleEnv 40 150, .claimFallback 11⟩] = 100 := by
  refine ⟨⟨by decide +kernel, by decide +kernel, by decide +kernel⟩, by decide +kernel⟩

end StellarSplit.Split
