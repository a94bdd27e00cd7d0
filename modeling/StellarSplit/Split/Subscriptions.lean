import StellarSplit.Lib.Runs
import StellarSplit.Split.Backing
import StellarSplit.Split.Currency
import StellarSplit.Split.Releasable

/-!
# Subscriptions

A subscription is created with its first invoice. When that invoice is released in full,
the release creates the next one from the parameters saved under the id of the first, and
removes them. The number of months is not saved and the parameters are not saved again
under the id of the new invoice, so the chain ends there.
-/

namespace StellarSplit.Split.Subscriptions

open Exec Function Machine

/-! ## The contract -/

structure SubscriptionParams where
  creator : Address
  recipients : List Address
  amounts : List ℤ
  tokens : List Address
  intervalDays : Option ℕ

/-- The storage with the parameters of the subscriptions. -/
structure SubStore where
  ledger : Store := {}
  subscriptionParams : ℕ → Option SubscriptionParams := fun _ => none

abbrev SubM (α : Type) := Call SubStore SplitFault α

def SubStore.withLedger (s : SubStore) (t : Store) : SubStore := { s with ledger := t }

/-- A call on the invoices that releases none of them in full. -/
def onLedger {α : Type} (x : SplitM α) : SubM α := focus SubStore.ledger SubStore.withLedger x

def maxInvoiceRecipients : ℕ := 200

def validateRecipientsAndAmounts (recipients : List Address) (amounts : List ℤ) : SubM Unit := do
  require (recipients.length = amounts.length) (.error .invalidRecipients)
  require (recipients ≠ []) (.error .emptyRecipientList)
  require (recipients.length ≤ maxInvoiceRecipients) (.error .batchLimitExceeded)
  require (∀ amount ∈ amounts, 0 < amount) (.error .zeroAmountNotAllowed)
  require (amounts.sum ≤ maxInvoiceTotal) (.error .arithmeticOverflow)

/-- The invoice that is asked for at the start and for each further month. -/
def monthlyInvoice (creator : Address) (recipients : List Address) (amounts : List ℤ)
    (tokens : List Address) (token : Address) (deadline : ℕ) : Invoice where
  creator := creator
  recipients := recipients
  amounts := amounts
  tokens := tokens
  fundingToken := token
  deadline := deadline

def setSubscriptionParams (id : ℕ) (params : Option SubscriptionParams) : SubM Unit :=
  modify fun s => { s with subscriptionParams := update s.subscriptionParams id params }

def createSubscription (env : Env) (creator : Address) (recipients : List Address) (amounts : List ℤ)
    (token : Address) (months : ℕ) (intervalDays : Option ℕ) : SubM ℕ := do
  requireAuth env.toLedger creator
  validateRecipientsAndAmounts recipients amounts
  require (0 < months ∧ months ≤ 12) (.panic "months must be between 1 and 12")
  require (env.now + 30 * 24 * 60 * 60 ≤ u64Max) .overflow
  let id ← onLedger (createInvoiceInner env
    (monthlyInvoice creator recipients amounts [] token (env.now + 30 * 24 * 60 * 60)) {})
  onlyIf (1 < months) (setSubscriptionParams id
    (some ⟨creator, recipients, amounts, recipients.map fun _ => token, intervalDays⟩))
  pure id

/-- The end of `_release_full`: create the next invoice of a subscription. -/
def spinUpNext (env : Env) (id : ℕ) : SubM (Option ℕ) := do
  let s ← get
  match s.subscriptionParams id with
  | none => pure none
  | some params => do
      let deadline := env.now + params.intervalDays.getD 30 * 24 * 60 * 60
      require (deadline ≤ u64Max) .overflow
      let token ← orPanic params.tokens.head? "no token in subscription"
      let nextId ← onLedger (createInvoiceInner env
        (monthlyInvoice params.creator params.recipients params.amounts params.tokens token deadline) {})
      setSubscriptionParams id none
      pure (some nextId)

/-- The part of a full release before what is left is forwarded. -/
def payOut (env : Env) (id : ℕ) (inv : Invoice) (actor : Address) : SplitM (Bool × Plan) := do
  let e ← getEntry id
  let platformFee ← ofResult (totalPlatformFee env inv actor)
  let plan ← ofResult (planPayouts env inv e.paidRecipients e.recipientLock platformFee)
  let passFailed ← payPasses env id inv e platformFee plan
  releaseGroup env id
  returnInsurance env id inv
  pure (passFailed, plan)

def forwardToInvoice (env : Env) (next : ℕ → Invoice → Address → SubM (Option ℕ)) (targetId : ℕ)
    (leftover : ℤ) : SubM Unit := do
  let target ← onLedger (loadInvoice targetId)
  onLedger (pushPayment targetId { payer := currentContract, amount := leftover })
  onLedger (addCumulative targetId leftover)
  let e ← onLedger (getEntry targetId)
  if target.total ≤ target.funded + leftover ∧ isGuarded e target = false then
    ignore (next targetId (target.withFunded (target.funded + leftover)) currentContract)
  else onLedger (saveInvoice env targetId (target.withFunded (target.funded + leftover)))

def forwardLeftover (env : Env) (next : ℕ → Invoice → Address → SubM (Option ℕ)) (id : ℕ)
    (inv : Invoice) (leftover : ℤ) : SubM Unit :=
  if 0 < leftover then
    match inv.forwardTo with
    | some addr => onLedger (transfer env (fundingTokenFor inv) addr leftover ⟨id, .forward⟩)
    | none =>
        match inv.forwardInvoiceId with
        | some targetId => forwardToInvoice env next targetId leftover
        | none => pure ()
  else pure ()

/-- `_release_full`, with the id of the invoice it creates. -/
def releaseFull (env : Env) (next : ℕ → Invoice → Address → SubM (Option ℕ)) (id : ℕ) (inv : Invoice)
    (actor : Address) : SubM (Option ℕ) := do
  let paid ← onLedger (payOut env id inv actor)
  forwardLeftover env next id inv (planLeftover inv paid.2)
  onLedger (finishRelease env id inv paid.1 paid.2.totalFee)
  spinUpNext env id

/-- `_release` with the depth that is left. -/
def releaseWithin (env : Env) : ℕ → ℕ → Invoice → Address → SubM (Option ℕ)
  | 0, _, _, _ => throw (.panic "call depth exceeded")
  | depth + 1, id, inv, actor => do
      require (inv.status ≠ .disputed) (.error .invoiceDisputed)
      let e ← onLedger (getEntry id)
      require (recipientsVerified e inv = true) (.panic "recipient not verified")
      if inv.tranches.isEmpty then releaseFull env (releaseWithin env depth) id inv actor
      else do
        onLedger (releaseTranches env id inv)
        pure none

def releaseAs (env : Env) (id : ℕ) (inv : Invoice) (actor : Address) : SubM (Option ℕ) :=
  releaseWithin env env.depth id inv actor

/-- The part of a payment before the invoice is saved or released. -/
def takeAndRecord (env : Env) (payer : Address) (id : ℕ) (inv : Invoice) (amount target : ℤ)
    (donateOnFailure : Bool) : SplitM Invoice := do
  let credited ← ofResult (creditedAmount inv amount (target - inv.funded))
  let premium ← ofResult (plainMulDiv (asU128 credited) inv.insurancePremiumBps 10000)
  takePayment env payer id inv amount credited premium
  let s ← get
  let credit ← ofResult (earlyBirdCredit env s (s.entries id) inv credited)
  let funded ← orError (checkedAddI128 inv.funded credited) .arithmeticOverflow
  recordPayment id payer credited donateOnFailure
  countPayment inv.creator credited
  notifyInvoice env inv
  let paid ← maybeReleaseMilestones env id (inv.credited funded premium credit)
  invokeIfSet env env.config.receiptFactory "mint_receipt"
  pure paid

def settlePayment (env : Env) (id : ℕ) (paid : Invoice) (target : ℤ) (payer : Address) :
    SubM (Option ℕ) :=
  if target ≤ paid.funded then do
    onLedger (recordFunded env id)
    let e ← onLedger (getEntry id)
    if payGuarded env e (startHold env paid) = true then do
      onLedger (saveInvoice env id (startHold env paid))
      pure none
    else releaseAs env id (startHold env paid) payer
  else do
    onLedger (saveInvoice env id paid)
    pure none

/-- `pay`, with the id of the invoice that a release in it creates. -/
def pay (env : Env) (payer : Address) (id : ℕ) (amount : ℤ) (nonce : ℕ) (donateOnFailure : Bool) :
    SubM (Option ℕ) := do
  onLedger (requireFnNotPaused env "pay")
  onLedger (requireNotFrozen env)
  requireAuth env.toLedger payer
  let inv ← onLedger (checkPayment env payer id amount)
  require (inv.allowedCallers.isNone = true)
    (.panic "direct payments not allowed when caller allowlist is set")
  let target ← ofResult (paymentTarget env inv)
  onLedger (checkKyc env inv payer)
  let credited ← onLedger (accumulate id inv payer amount (target - inv.funded))
  if credited = true then do
    onLedger (checkLimits env id inv payer amount nonce)
    let paid ← onLedger (takeAndRecord env payer id inv amount target donateOnFailure)
    settlePayment env id paid target payer
  else pure none

def releaseInvoice (env : Env) (id : ℕ) (preimage : Option (List ℕ)) : SubM (Option ℕ) := do
  onLedger acquireLock
  let inv ← onLedger (releaseChecks env id preimage)
  let next ← releaseAs env id inv currentContract
  onLedger removeLock
  pure next

/-! ## Against the calls without subscriptions -/

section Refines

variable {env : Env} {s t : SubStore} {u : Store} {id : ℕ} {inv : Invoice} {actor : Address} {next : Option ℕ}

/-- An invoice as the subscriptions make them: it forwards nothing and is released at once. -/
structure Plain (inv : Invoice) : Prop where
  forwardTo : inv.forwardTo = none
  forwardInvoiceId : inv.forwardInvoiceId = none
  tranches : inv.tranches = []
  milestones : inv.milestones = []

theorem releaseFull_eq (env : Env) (next : ℕ → Invoice → Address → SplitM Unit) (id : ℕ) (inv : Invoice)
    (actor : Address) :
    Split.releaseFull env next id inv actor = (do
      let paid ← payOut env id inv actor
      Split.forwardLeftover env next id inv (planLeftover inv paid.2)
      finishRelease env id inv paid.1 paid.2.totalFee) := by
  simp only [Split.releaseFull, payOut, payPasses, bind_assoc, pure_bind]

theorem creditPayment_eq (env : Env) (payer : Address) (id : ℕ) (inv : Invoice) (amount target : ℤ)
    (donateOnFailure : Bool) :
    creditPayment env payer id inv amount target donateOnFailure = (do
      let paid ← takeAndRecord env payer id inv amount target donateOnFailure
      Split.settlePayment env id paid target payer) := by
  simp only [creditPayment, takeAndRecord, takePayment, bind_assoc, pure_bind]

theorem Plain.forwardLeftover_base {leftover : ℤ} {next : ℕ → Invoice → Address → SplitM Unit} (h : Plain inv) :
    Split.forwardLeftover env next id inv leftover = pure () := by
  unfold Split.forwardLeftover
  rw [h.forwardTo, h.forwardInvoiceId]
  exact ite_self _

theorem Plain.forwardLeftover {leftover : ℤ} {next : ℕ → Invoice → Address → SubM (Option ℕ)}
    (h : Plain inv) : forwardLeftover env next id inv leftover = pure () := by
  unfold Subscriptions.forwardLeftover
  rw [h.forwardTo, h.forwardInvoiceId]
  exact ite_self _

/-- A full release of a plain invoice is the release without subscriptions, and then the next
invoice. -/
theorem releaseFull_refines {step : ℕ → Invoice → Address → SubM (Option ℕ)}
    (base : ℕ → Invoice → Address → SplitM Unit) (h : Plain inv)
    (hrun : releaseFull env step id inv actor s = .ok (next, t)) :
    ∃ u, Split.releaseFull env base id inv actor s.ledger = .ok ((), u) ∧
      spinUpNext env id (s.withLedger u) = .ok (next, t) := by
  obtain ⟨paid, u₁, hpaid, hrun⟩ := focus_bind.1 hrun
  rw [h.forwardLeftover, pure_bind] at hrun
  obtain ⟨_, u₂, hfinish, hrun⟩ := focus_bind.1 hrun
  refine ⟨u₂, ?_, hrun⟩
  rw [releaseFull_eq]
  refine bind_ok.2 ⟨paid, u₁, hpaid, bind_ok.2 ⟨(), u₁, ?_, hfinish⟩⟩
  rw [h.forwardLeftover_base]
  exact pure_ok.2 ⟨rfl, rfl⟩

theorem releaseAs_refines (h : Plain inv) (hrun : releaseAs env id inv actor s = .ok (next, t)) :
    ∃ u, Split.releaseAs env id inv actor s.ledger = .ok ((), u) ∧
      spinUpNext env id (s.withLedger u) = .ok (next, t) := by
  unfold releaseAs at hrun
  unfold Split.releaseAs
  cases hdepth : env.depth with
  | zero =>
      rw [hdepth] at hrun
      cases hrun
  | succ depth =>
      rw [hdepth] at hrun
      obtain ⟨hstatus, hrun⟩ := require_bind.1 hrun
      obtain ⟨e, u₁, hentry, hrun⟩ := focus_bind.1 hrun
      obtain ⟨rfl, rfl⟩ := getEntry_ok.1 hentry
      obtain ⟨hverified, hrun⟩ := require_bind.1 hrun
      rw [if_pos (by rw [h.tranches]; rfl)] at hrun
      obtain ⟨u, hfull, hspin⟩ := releaseFull_refines (Split.releaseWithin env depth) h hrun
      exact ⟨u, releaseWithin_succ_ok.2 ⟨hstatus, hverified, .inl ⟨h.tranches, hfull⟩⟩, hspin⟩

instance plain_terms : TermFact Plain := by
  refine ⟨fun inv inv' hterms hinv => ?_⟩
  have hto : inv'.terms.forwardTo = inv.terms.forwardTo := by rw [hterms]
  have hid : inv'.terms.forwardInvoiceId = inv.terms.forwardInvoiceId := by rw [hterms]
  have htranches : inv'.terms.tranches = inv.terms.tranches := by rw [hterms]
  have hmilestones : inv'.terms.milestones = inv.terms.milestones := by rw [hterms]
  exact ⟨hto.trans hinv.forwardTo, hid.trans hinv.forwardInvoiceId, htranches.trans hinv.tranches,
    hmilestones.trans hinv.milestones⟩

theorem takeAndRecord_ok {payer : Address} {amount target : ℤ} {donate : Bool} {paid : Invoice}
    {s u : Store} (h : Plain inv)
    (hrun : takeAndRecord env payer id inv amount target donate s = .ok (paid, u)) :
    Plain paid ∧ paid.status = inv.status := by
  unfold takeAndRecord at hrun
  obtain ⟨credited, -, hrun⟩ := ofResult_bind.1 hrun
  obtain ⟨premium, -, hrun⟩ := ofResult_bind.1 hrun
  obtain ⟨_, u₁, -, hrun⟩ := bind_ok.1 hrun
  rw [get_bind] at hrun
  obtain ⟨credit, -, hrun⟩ := ofResult_bind.1 hrun
  obtain ⟨funded, -, hrun⟩ := orError_bind.1 hrun
  obtain ⟨_, u₂, -, hrun⟩ := bind_ok.1 hrun
  obtain ⟨_, u₃, -, hrun⟩ := bind_ok.1 hrun
  obtain ⟨_, u₄, -, hrun⟩ := bind_ok.1 hrun
  obtain ⟨paid', u₅, hmilestones, hrun⟩ := bind_ok.1 hrun
  obtain ⟨_, u₆, -, hrun⟩ := bind_ok.1 hrun
  obtain ⟨rfl, rfl⟩ := pure_ok.1 hrun
  have hnone : (inv.credited funded premium credit).milestones = [] := h.milestones
  obtain ⟨-, rfl⟩ := maybeReleaseMilestones_ahead (milestoneAhead_of_none hnone) hmilestones
  exact ⟨⟨h.forwardTo, h.forwardInvoiceId, h.tranches, h.milestones⟩, rfl⟩

/-- The stored invoice is pending. -/
abbrev Waiting (id : ℕ) (s : Store) : Prop := StoredAs (fun inv => inv.status = .pending) id s

/-- What a call on an invoice returns and leaves: it is still pending, or the next one was made. -/
def Continues (env : Env) (id : ℕ) (s : SubStore) (u : Store) (next : Option ℕ) (t : SubStore) : Prop :=
  (next = none ∧ t = s.withLedger u ∧ Waiting id u) ∨ spinUpNext env id (s.withLedger u) = .ok (next, t)

theorem settlePayment_refines {paid : Invoice} {target : ℤ} {payer : Address} (h : Plain paid)
    (hpending : paid.status = .pending) (hrun : settlePayment env id paid target payer s = .ok (next, t)) :
    ∃ u, Split.settlePayment env id paid target payer s.ledger = .ok ((), u) ∧
      Continues env id s u next t := by
  unfold settlePayment at hrun
  unfold Split.settlePayment
  split_ifs at hrun ⊢ with htarget
  · obtain ⟨_, u₁, hfunded, hrun⟩ := focus_bind.1 hrun
    obtain ⟨e, u₂, hentry, hrun⟩ := focus_bind.1 hrun
    obtain ⟨rfl, rfl⟩ := getEntry_ok.1 hentry
    have hledger : (s.withLedger u₁).ledger = u₁ := rfl
    rw [hledger] at hrun
    split_ifs at hrun with hguarded
    · obtain ⟨_, u, hsave, hrun⟩ := focus_bind.1 hrun
      obtain ⟨rfl, rfl⟩ := pure_ok.1 hrun
      refine ⟨u, bind_ok.2 ⟨(), u₁, hfunded, getEntry_bind.2 ?_⟩, .inl ⟨rfl, rfl, ?_⟩⟩
      · rw [if_pos hguarded]
        exact hsave
      · exact ⟨_, saveInvoice_stored hsave, startHold_status.trans hpending⟩
    · have hheld : Plain (startHold env paid) :=
        plain_terms.congr paid _ (startHold_terms env paid).1 h
      obtain ⟨u, hrelease, hspin⟩ := releaseAs_refines hheld hrun
      refine ⟨u, bind_ok.2 ⟨(), u₁, hfunded, getEntry_bind.2 ?_⟩, .inr hspin⟩
      rw [if_neg hguarded]
      exact hrelease
  · obtain ⟨_, u, hsave, hrun⟩ := focus_bind.1 hrun
    obtain ⟨rfl, rfl⟩ := pure_ok.1 hrun
    exact ⟨u, hsave, .inl ⟨rfl, rfl, _, saveInvoice_stored hsave, hpending⟩⟩

/-- A payment to a plain invoice is the payment without subscriptions; if that released the invoice,
the next one follows. -/
theorem pay_refines {payer : Address} {amount : ℤ} {nonce : ℕ} {donate : Bool}
    (h : StoredAs Plain id s.ledger) (hrun : pay env payer id amount nonce donate s = .ok (next, t)) :
    ∃ u, Split.pay env payer id amount nonce donate s.ledger = .ok ((), u) ∧
      Continues env id s u next t := by
  unfold pay at hrun
  obtain ⟨_, u₁, hpaused, hrun⟩ := focus_bind.1 hrun
  obtain ⟨_, u₂, hfrozen, hrun⟩ := focus_bind.1 hrun
  obtain ⟨hauth, hrun⟩ := requireAuth_bind.1 hrun
  obtain ⟨inv, u₃, hcheck, hrun⟩ := focus_bind.1 hrun
  obtain ⟨hcallers, hrun⟩ := require_bind.1 hrun
  obtain ⟨target, htarget, hrun⟩ := ofResult_bind.1 hrun
  obtain ⟨_, u₄, hkyc, hrun⟩ := focus_bind.1 hrun
  obtain ⟨credits, u₅, haccumulate, hrun⟩ := focus_bind.1 hrun
  obtain ⟨-, rfl⟩ := requireFnNotPaused_ok.1 hpaused
  obtain ⟨-, rfl⟩ := requireNotFrozen_ok.1 hfrozen
  obtain ⟨stored, hload, hpending, hresumed⟩ := checkPayment_ok hcheck
  have hstored : Plain stored := h.load lasting_of_terms hload
  have hplain : Plain inv ∧ inv.status = .pending := by
    rcases hresumed with ⟨rfl, -⟩ | ⟨rfl, -⟩
    · exact ⟨hstored, hpending⟩
    · exact ⟨plain_terms.congr stored _ rfl hstored, hpending⟩
  have hwaiting : Waiting id u₃ := by
    rcases hresumed with ⟨-, rfl⟩ | ⟨-, hsave⟩
    · obtain ⟨record, hrecord, rfl⟩ := Option.map_eq_some_iff.1 hload
      exact ⟨record, hrecord, hpending⟩
    · exact ⟨_, saveInvoice_stored hsave, hpending⟩
  have hbase : ∀ u, (onlyIf (credits = true) do
      checkLimits env id inv payer amount nonce
      creditPayment env payer id inv amount target donate) u₅ = .ok ((), u) →
        Split.pay env payer id amount nonce donate s.ledger = .ok ((), u) := by
    intro u hrest
    refine bind_ok.2 ⟨_, _, hpaused, bind_ok.2 ⟨_, _, hfrozen, requireAuth_bind.2 ⟨hauth, ?_⟩⟩⟩
    exact bind_ok.2 ⟨inv, u₃, hcheck, require_bind.2 ⟨hcallers, ofResult_bind.2 ⟨target, htarget,
      bind_ok.2 ⟨_, u₄, hkyc, bind_ok.2 ⟨credits, u₅, haccumulate, hrest⟩⟩⟩⟩⟩
  split_ifs at hrun with hcredits
  · obtain ⟨_, u₆, hlimits, hrun⟩ := focus_bind.1 hrun
    obtain ⟨paid, u₇, htake, hrun⟩ := focus_bind.1 hrun
    obtain ⟨hpaid, hstatus⟩ := takeAndRecord_ok hplain.1 htake
    obtain ⟨u, hsettle, hcontinues⟩ := settlePayment_refines hpaid (hstatus.trans hplain.2) hrun
    refine ⟨u, hbase u (onlyIf_ok.2 (.inl ⟨hcredits, bind_ok.2 ⟨_, u₆, hlimits, ?_⟩⟩)), hcontinues⟩
    rw [creditPayment_eq]
    exact bind_ok.2 ⟨paid, u₇, htake, hsettle⟩
  · obtain ⟨rfl, rfl⟩ := pure_ok.1 hrun
    refine ⟨u₅, hbase u₅ (onlyIf_ok.2 (.inr ⟨hcredits, rfl⟩)), .inl ⟨rfl, rfl, ?_⟩⟩
    -- a payment that is put by writes no record
    have hkept : Retains (fun inv => inv.status = .pending) id Numbered u₃ u₅ :=
      trans_of (Retains _ id Numbered) (framed_checkKyc.respects u₃ _ u₄ hkyc)
        (framed_accumulate.respects u₄ _ u₅ haccumulate)
    exact (hkept hwaiting).1

theorem releaseChecks_load {preimage : Option (List ℕ)} {s u : Store}
    (hrun : releaseChecks env id preimage s = .ok (inv, u)) : (s.entries id).load = some inv := by
  simp only [releaseChecks, requireFnNotPaused_bind, requireNotFrozen_bind, loadInvoice_bind] at hrun
  obtain ⟨-, -, loaded, hload, hrun⟩ := hrun
  obtain ⟨_, u₁, -, hrun⟩ := bind_ok.1 hrun
  simp only [require_bind] at hrun
  obtain ⟨-, -, -, -, -, hrun⟩ := hrun
  obtain ⟨_, u₂, -, hrun⟩ := bind_ok.1 hrun
  simp only [ofResult_bind, getEntry_bind, require_bind] at hrun
  obtain ⟨required, -, paid, -, -, hrun⟩ := hrun
  obtain ⟨_, u₃, -, hrun⟩ := bind_ok.1 hrun
  obtain ⟨_, u₄, -, hrun⟩ := bind_ok.1 hrun
  obtain ⟨_, u₅, -, hrun⟩ := bind_ok.1 hrun
  obtain ⟨_, u₆, -, hrun⟩ := bind_ok.1 hrun
  obtain ⟨_, u₇, -, hrun⟩ := bind_ok.1 hrun
  obtain ⟨rfl, -⟩ := pure_ok.1 hrun
  exact hload

/-- The same for a release, which spins up the next invoice under the lock. -/
theorem releaseInvoice_refines {preimage : Option (List ℕ)} (h : StoredAs Plain id s.ledger)
    (hrun : releaseInvoice env id preimage s = .ok (next, t)) :
    ∃ u w, Split.releaseInvoice env id preimage s.ledger = .ok ((), u.withLock false) ∧
      spinUpNext env id (s.withLedger u) = .ok (next, w) ∧ t = w.withLedger (w.ledger.withLock false) := by
  unfold releaseInvoice at hrun
  obtain ⟨_, u₁, hlock, hrun⟩ := focus_bind.1 hrun
  obtain ⟨inv, u₂, hcheck, hrun⟩ := focus_bind.1 hrun
  obtain ⟨next', w, hrelease, hrun⟩ := bind_ok.1 hrun
  obtain ⟨_, u₃, hunlock, hrun⟩ := focus_bind.1 hrun
  obtain ⟨rfl, rfl⟩ := pure_ok.1 hrun
  obtain rfl := modify_ok.1 hunlock
  have hplain : Plain inv := by
    obtain ⟨-, rfl⟩ := acquireLock_ok.1 hlock
    have hload := releaseChecks_load hcheck
    exact h.load lasting_of_terms hload
  obtain ⟨u, hbase, hspin⟩ := releaseAs_refines hplain hrelease
  refine ⟨u, w, ?_, hspin, rfl⟩
  refine bind_ok.2 ⟨_, u₁, hlock, bind_ok.2 ⟨(), u, ?_, modify_ok.2 rfl⟩⟩
  rw [releaseInvoiceInner_eq]
  exact bind_ok.2 ⟨inv, u₂, hcheck, hbase⟩

end Refines

/-! ## Runs -/

/-- A payment to an invoice, its release, or any other call. -/
inductive ChainCall where
  | pay (payer : Address) (id : ℕ) (amount : ℤ) (nonce : ℕ) (donateOnFailure : Bool)
  | releaseInvoice (id : ℕ) (preimage : Option (List ℕ))
  | other (x : SubM Unit)

/-- A call, with the invoice that it adds to the chain. -/
def chainCall (c : Env × ChainCall) : SubM (Option ℕ) :=
  match c.2 with
  | .pay payer id amount nonce donateOnFailure => pay c.1 payer id amount nonce donateOnFailure
  | .releaseInvoice id preimage => releaseInvoice c.1 id preimage
  | .other x => do
      x
      pure none

/-- The storage, and the invoices of one subscription in the order of their creation. -/
abbrev Chained : Type := SubStore × List ℕ

def chainStep (c : Env × ChainCall) : Call Chained SplitFault Unit := do
  let next ← focus Prod.fst (fun p s => (s, p.2)) (chainCall c)
  modify fun p => (p.1, p.2 ++ next.toList)

/-- What calls that have nothing to do with the chain leave alone: the records of its invoices and
their parameters. No call saves parameters for an invoice that is not there. -/
structure LeavesAlone (chain : List ℕ) (s t : SubStore) : Prop where
  invoices : ∀ k ∈ chain, (t.ledger.entries k).invoice = (s.ledger.entries k).invoice
  params : ∀ k ∈ chain, t.subscriptionParams k = s.subscriptionParams k
  counter : s.ledger.counter ≤ t.ledger.counter
  unused : (∀ k, s.ledger.counter < k → s.subscriptionParams k = none) →
    ∀ k, t.ledger.counter < k → t.subscriptionParams k = none

/-- Payments and releases are of invoices of the chain, and other calls leave it alone. -/
def OnChain (p : Chained) (c : Env × ChainCall) : Prop :=
  match c.2 with
  | .pay _ id _ _ _ => id ∈ p.2
  | .releaseInvoice id _ => id ∈ p.2
  | .other x => ∀ t, x p.1 = .ok ((), t) → LeavesAlone p.2 p.1 t

/-- An invoice with what the subscription asks for. -/
structure Subscribed (params : SubscriptionParams) (token : Address) (inv : Invoice) : Prop where
  creator : inv.creator = params.creator
  recipients : inv.recipients = params.recipients
  amounts : inv.amounts = params.amounts
  tokens : inv.tokens = params.recipients.map fun _ => token
  fundingToken : inv.fundingToken = token

def AllReleased (p : Chained) : Prop :=
  ∀ k ∈ p.2, StoredAs (fun inv => inv.status = .released) k p.1.ledger

/-! ## The chain -/

section Chains

variable {env : Env} {s t : SubStore} {u : Store} {id k : ℕ} {inv : Invoice} {next : Option ℕ}
  {params : SubscriptionParams} {token : Address} {months : ℕ}

instance subscribed_terms : TermFact (Subscribed params token) := by
  refine ⟨fun inv inv' hterms hinv => ?_⟩
  have hcreator : inv'.terms.creator = inv.terms.creator := by rw [hterms]
  have hrecipients : inv'.terms.recipients = inv.terms.recipients := by rw [hterms]
  have hamounts : inv'.terms.amounts = inv.terms.amounts := by rw [hterms]
  have htokens : inv'.terms.tokens = inv.terms.tokens := by rw [hterms]
  have hfunding : inv'.terms.fundingToken = inv.terms.fundingToken := by rw [hterms]
  exact ⟨hcreator.trans hinv.creator, hrecipients.trans hinv.recipients, hamounts.trans hinv.amounts,
    htokens.trans hinv.tokens, hfunding.trans hinv.fundingToken⟩

theorem spinUpNext_ok (hrun : spinUpNext env id s = .ok (next, t)) :
    (s.subscriptionParams id = none ∧ next = none ∧ t = s) ∨
      ∃ params token deadline newId, s.subscriptionParams id = some params ∧ next = some newId ∧
        params.tokens.head? = some token ∧
        (∃ tokens, tokens = (monthlyInvoice params.creator params.recipients params.amounts params.tokens
            token deadline).payoutTokens ∧
          Stored newId ((monthlyInvoice params.creator params.recipients params.amounts params.tokens
            token deadline).created tokens) s.ledger t.ledger) ∧
        t.subscriptionParams = update s.subscriptionParams id none := by
  unfold spinUpNext at hrun
  rw [get_bind] at hrun
  cases hparams : s.subscriptionParams id with
  | none =>
      rw [hparams] at hrun
      obtain ⟨rfl, rfl⟩ := pure_ok.1 hrun
      exact .inl ⟨rfl, rfl, rfl⟩
  | some params =>
      rw [hparams] at hrun
      obtain ⟨-, hrun⟩ := require_bind.1 hrun
      obtain ⟨token, htoken, hrun⟩ := orPanic_bind.1 hrun
      obtain ⟨newId, u, hcreate, hrun⟩ := focus_bind.1 hrun
      obtain ⟨_, u', hset, hrun⟩ := bind_ok.1 hrun
      obtain rfl := modify_ok.1 hset
      obtain ⟨rfl, rfl⟩ := pure_ok.1 hrun
      obtain ⟨-, -, hstored⟩ := createInvoiceInner_ok hcreate
      exact .inr ⟨params, token, _, newId, rfl, rfl, htoken, ⟨_, rfl, hstored⟩, rfl⟩

/-- The invoices of a chain are numbered and have what the subscription asks for, and no parameters
are saved for numbers to come. -/
structure Recorded (params : SubscriptionParams) (token : Address) (p : Chained) : Prop where
  numbered : ∀ k ∈ p.2, k ≤ p.1.ledger.counter
  plain : ∀ k ∈ p.2, StoredAs Plain k p.1.ledger
  subscribed : ∀ k ∈ p.2, StoredAs (Subscribed params token) k p.1.ledger
  unused : ∀ k, p.1.ledger.counter < k → p.1.subscriptionParams k = none

/-- The chain of a subscription: its first invoice waits with the saved parameters, or it was
released and the second is the last one. -/
inductive Shape (params : SubscriptionParams) (months id : ℕ) (p : Chained) : Prop where
  | single (hchain : p.2 = [id]) (hmonths : months = 1) (hparams : p.1.subscriptionParams id = none)
  | waits (hchain : p.2 = [id]) (hmonths : 1 < months) (hparams : p.1.subscriptionParams id = some params)
      (hwaiting : Waiting id p.1.ledger)
  | ended (newId : ℕ) (hne : newId ≠ id) (hchain : p.2 = [id, newId]) (hmonths : 1 < months)
      (hfirst : p.1.subscriptionParams id = none) (hsecond : p.1.subscriptionParams newId = none)

variable {chain : List ℕ}

theorem Recorded.keeps (h : Recorded params token (s, chain)) (hcounter : s.ledger.counter ≤ t.ledger.counter)
    (hplain : ∀ k ∈ chain, Stays Plain k s.ledger t.ledger)
    (hsubscribed : ∀ k ∈ chain, Stays (Subscribed params token) k s.ledger t.ledger)
    (hunused : ∀ k, t.ledger.counter < k → t.subscriptionParams k = none) :
    Recorded params token (t, chain) :=
  ⟨fun k hk => (h.numbered k hk).trans hcounter, fun k hk => hplain k hk (h.plain k hk),
    fun k hk => hsubscribed k hk (h.subscribed k hk), hunused⟩

/-- The invoice that a release creates has what the subscription asks for. -/
theorem monthlyInvoice_subscribed {token' : Address} {tokens : List Address} {deadline : ℕ}
    (htokens : params.tokens = params.recipients.map fun _ => token) (hhead : params.tokens.head? = some token')
    (hpayout : tokens = (monthlyInvoice params.creator params.recipients params.amounts params.tokens
      token' deadline).payoutTokens) :
    Subscribed params token ((monthlyInvoice params.creator params.recipients params.amounts params.tokens
      token' deadline).created tokens) := by
  have hmem : token' ∈ params.tokens := List.mem_of_mem_head? hhead
  have hsome : params.tokens ≠ [] := List.ne_nil_of_mem hmem
  have hsame : token' = token := by
    rw [htokens] at hmem
    obtain ⟨_, -, rfl⟩ := List.mem_map.1 hmem
    rfl
  subst hsame
  refine ⟨rfl, rfl, rfl, ?_, rfl⟩
  rw [hpayout]
  exact (if_neg hsome).trans htokens

/-- A payment or a release of an invoice of the chain. -/
theorem Shape.advance (hrecorded : Recorded params token (s, chain)) (hshape : Shape params months id (s, chain))
    (htokens : params.tokens = params.recipients.map fun _ => token) (hk : k ∈ chain)
    (hretains : ∀ (Q : Invoice → Prop) [TermFact Q] j, Retains Q j Numbered s.ledger u)
    (hcontinues : Continues env k s u next t) :
    Recorded params token (t, chain ++ next.toList) ∧ Shape params months id (t, chain ++ next.toList) := by
  have hcounter : s.ledger.counter ≤ u.counter := (hretains Plain k (hrecorded.plain k hk)).2
  have hkept : Recorded params token (s.withLedger u, chain) := by
    refine hrecorded.keeps hcounter (fun j _ hj => (hretains Plain j hj).1)
      (fun j _ hj => (hretains (Subscribed params token) j hj).1) fun j hj => ?_
    exact hrecorded.unused j (hcounter.trans_lt hj)
  rcases hcontinues with ⟨rfl, rfl, hwaiting⟩ | hspin
  · simp only [Option.toList_none, List.append_nil]
    refine ⟨hkept, ?_⟩
    cases hshape with
    | single hchain hmonths hparams => exact .single hchain hmonths hparams
    | waits hchain hmonths hparams _ =>
        obtain rfl : chain = [id] := hchain
        obtain rfl := List.mem_singleton.1 hk
        exact .waits rfl hmonths hparams hwaiting
    | ended newId hne hchain hmonths hfirst hsecond => exact .ended newId hne hchain hmonths hfirst hsecond
  rcases spinUpNext_ok hspin with ⟨hnone, rfl, rfl⟩ |
    ⟨saved, token', deadline, newId, hsaved, rfl, hhead, ⟨tokens, hpayout, hstored⟩, hparams'⟩
  · simp only [Option.toList_none, List.append_nil]
    refine ⟨hkept, ?_⟩
    cases hshape with
    | single hchain hmonths hparams => exact .single hchain hmonths hparams
    | waits hchain hmonths hparams _ =>
        obtain rfl : chain = [id] := hchain
        obtain rfl := List.mem_singleton.1 hk
        cases hnone.symm.trans hparams
    | ended newId hne hchain hmonths hfirst hsecond => exact .ended newId hne hchain hmonths hfirst hsecond
  · cases hshape with
    | single hchain hmonths hparams =>
        obtain rfl : chain = [id] := hchain
        obtain rfl := List.mem_singleton.1 hk
        cases hsaved.symm.trans hparams
    | ended newId hne hchain hmonths hfirst hsecond =>
        obtain rfl : chain = [id, newId] := hchain
        rcases List.mem_pair.1 hk with rfl | rfl
        · cases hsaved.symm.trans hfirst
        · cases hsaved.symm.trans hsecond
    | waits hchain hmonths hparams _ =>
        obtain rfl : chain = [id] := hchain
        obtain rfl := List.mem_singleton.1 hk
        obtain rfl : saved = params := Option.some.inj (hsaved.symm.trans hparams)
        have hold : k ≤ u.counter := hkept.numbered k (List.mem_singleton_self k)
        have hfresh : newId = u.counter + 1 := hstored.fresh
        have hlast : t.ledger.counter = u.counter + 1 := hstored.counter
        have hne : newId ≠ k := by omega
        have hfirst : t.ledger.entries k = u.entries k := hstored.others k hne.symm
        have hunsaved : ∀ j, j = k ∨ u.counter < j → t.subscriptionParams j = none := by
          intro j hj
          rw [hparams']
          rcases eq_or_ne j k with rfl | hjk
          · exact update_self ..
          · rw [update_of_ne hjk]
            exact hkept.unused j (hj.resolve_left hjk)
        refine ⟨⟨fun j hj => ?_, fun j hj => ?_, fun j hj => ?_, fun j hj => hunsaved j (.inr ?_)⟩, ?_⟩
        · rcases List.mem_pair.1 hj with rfl | rfl
          · exact hold.trans (hlast.symm ▸ Nat.le_succ _)
          · exact (hfresh.trans hlast.symm).le
        · rcases List.mem_pair.1 hj with rfl | rfl
          · exact storedAs_of_entry hfirst (hkept.plain j (List.mem_singleton_self j))
          · exact ⟨_, hstored.invoice, rfl, rfl, rfl, rfl⟩
        · rcases List.mem_pair.1 hj with rfl | rfl
          · exact storedAs_of_entry hfirst (hkept.subscribed j (List.mem_singleton_self j))
          · exact ⟨_, hstored.invoice, monthlyInvoice_subscribed htokens hhead hpayout⟩
        · rw [hlast] at hj
          exact (Nat.lt_succ_self _).trans hj
        · exact .ended newId hne rfl hmonths (hunsaved k (.inl rfl))
            (hunsaved newId (.inr (hfresh ▸ Nat.lt_succ_self _)))

/-- Calls that leave the chain alone. -/
theorem Shape.leaves (hrecorded : Recorded params token (s, chain)) (hshape : Shape params months id (s, chain))
    (h : LeavesAlone chain s t) :
    Recorded params token (t, chain) ∧ Shape params months id (t, chain) := by
  have hstays : ∀ {Q : Invoice → Prop}, ∀ k ∈ chain, Stays Q k s.ledger t.ledger := by
    rintro Q k hk ⟨inv, hinv, hfact⟩
    exact ⟨inv, (h.invoices k hk).trans hinv, hfact⟩
  refine ⟨hrecorded.keeps h.counter hstays hstays (h.unused hrecorded.unused), ?_⟩
  cases hshape with
  | single hchain hmonths hparams =>
      obtain rfl : chain = [id] := hchain
      exact .single rfl hmonths ((h.params id (List.mem_singleton_self id)).trans hparams)
  | waits hchain hmonths hparams hwaiting =>
      obtain rfl : chain = [id] := hchain
      have hmem := List.mem_singleton_self id
      exact .waits rfl hmonths ((h.params id hmem).trans hparams) (hstays id hmem hwaiting)
  | ended newId hne hchain hmonths hfirst hsecond =>
      obtain rfl : chain = [id, newId] := hchain
      exact .ended newId hne rfl hmonths ((h.params id (List.mem_pair.2 (.inl rfl))).trans hfirst)
        ((h.params newId (List.mem_pair.2 (.inr rfl))).trans hsecond)

theorem Shape.step {p q : Chained} {c : Env × ChainCall} {v : Unit}
    (htokens : params.tokens = params.recipients.map fun _ => token) (hrecorded : Recorded params token p)
    (hshape : Shape params months id p) (hon : OnChain p c) (hrun : chainStep c p = .ok (v, q)) :
    Recorded params token q ∧ Shape params months id q := by
  obtain ⟨s, chain⟩ := p
  obtain ⟨env, call⟩ := c
  obtain ⟨next, t, hcall, hrun⟩ := focus_bind.1 hrun
  obtain rfl := modify_ok.1 hrun
  cases call with
  | pay payer k amount nonce donate =>
      obtain ⟨u, hpay, hcontinues⟩ := pay_refines (hrecorded.plain k hon) hcall
      refine hshape.advance hrecorded htokens hon (fun Q _ j => ?_) hcontinues
      exact Framed.holds s.ledger () u hpay
  | releaseInvoice k preimage =>
      obtain ⟨u, w, hrelease, hspin, rfl⟩ := releaseInvoice_refines (hrecorded.plain k hon) hcall
      have hretains : ∀ (Q : Invoice → Prop) [TermFact Q] j, Retains Q j Numbered s.ledger u := by
        intro Q _ j
        have hlocked : Retains Q j Numbered s.ledger (u.withLock false) :=
          Framed.holds s.ledger () _ hrelease
        exact hlocked
      obtain ⟨hafter, hend⟩ := hshape.advance hrecorded htokens hon hretains (.inr hspin)
      -- giving the lock back changes no record and no parameters
      refine ⟨⟨hafter.numbered, hafter.plain, hafter.subscribed, hafter.unused⟩, ?_⟩
      cases hend with
      | single hchain hmonths hparams => exact .single hchain hmonths hparams
      | waits hchain hmonths hparams hwaiting => exact .waits hchain hmonths hparams hwaiting
      | ended newId hne hchain hmonths hfirst hsecond => exact .ended newId hne hchain hmonths hfirst hsecond
  | other x =>
      obtain ⟨_, u, hx, hpure⟩ := bind_ok.1 hcall
      obtain ⟨rfl, rfl⟩ := pure_ok.1 hpure
      simp only [Option.toList_none, List.append_nil]
      exact hshape.leaves hrecorded (hon u hx)

theorem createSubscription_chain {creator : Address} {recipients : List Address} {amounts : List ℤ}
    {intervalDays : Option ℕ} (hunused : ∀ k, s.ledger.counter < k → s.subscriptionParams k = none)
    (hrun : createSubscription env creator recipients amounts token months intervalDays s = .ok (id, t)) :
    Recorded ⟨creator, recipients, amounts, recipients.map fun _ => token, intervalDays⟩ token (t, [id]) ∧
      Shape ⟨creator, recipients, amounts, recipients.map fun _ => token, intervalDays⟩ months id (t, [id]) := by
  obtain ⟨-, hrun⟩ := requireAuth_bind.1 hrun
  simp only [validateRecipientsAndAmounts, bind_assoc, require_bind] at hrun
  obtain ⟨-, -, -, -, -, hmonths, -, hrun⟩ := hrun
  obtain ⟨id', u, hcreate, hrun⟩ := focus_bind.1 hrun
  obtain ⟨_, t', hsave, hrun⟩ := bind_ok.1 hrun
  obtain ⟨rfl, rfl⟩ := pure_ok.1 hrun
  obtain ⟨-, -, hstored⟩ := createInvoiceInner_ok hcreate
  have hledger : t'.ledger = u := by
    rcases onlyIf_ok.1 hsave with ⟨-, hset⟩ | ⟨-, rfl⟩
    · obtain rfl := modify_ok.1 hset
      rfl
    · rfl
  rw [← hledger] at hstored
  have hfresh : id' = t'.ledger.counter := hstored.fresh.trans hstored.counter.symm
  have hold : s.ledger.counter < id' := by
    rw [hstored.fresh]
    exact Nat.lt_succ_self _
  have hshape : (∀ k, k ≠ id' → t'.subscriptionParams k = s.subscriptionParams k) ∧
      Shape ⟨creator, recipients, amounts, recipients.map fun _ => token, intervalDays⟩ months id'
        (t', [id']) := by
    rcases onlyIf_ok.1 hsave with ⟨hmore, hset⟩ | ⟨hone, rfl⟩
    · obtain rfl := modify_ok.1 hset
      exact ⟨fun k hk => update_of_ne hk .., .waits rfl hmore (update_self ..) ⟨_, hstored.invoice, rfl⟩⟩
    · exact ⟨fun _ _ => rfl, .single rfl (by omega) (hunused id' hold)⟩
  refine ⟨⟨fun k hk => ?_, fun k hk => ?_, fun k hk => ?_, fun k hk => ?_⟩, hshape.2⟩
  · obtain rfl := List.mem_singleton.1 hk
    exact hfresh.le
  · obtain rfl := List.mem_singleton.1 hk
    exact ⟨_, hstored.invoice, rfl, rfl, rfl, rfl⟩
  · obtain rfl := List.mem_singleton.1 hk
    exact ⟨_, hstored.invoice, rfl, rfl, rfl, rfl, rfl⟩
  · have hlater : id' < k := hfresh.trans_lt hk
    rw [hshape.1 k hlater.ne']
    exact hunused k (hold.trans hlater)

/-! ## How many invoices -/

/-- In every run in which the invoices of a subscription are funded and released in turn, it comes
to the number of invoices that was asked for, each with the creator, the recipients, the amounts and
the token, exactly if these are at most two months. -/
theorem subscription_invoices_iff {creator : Address} {recipients : List Address} {amounts : List ℤ}
    {intervalDays : Option ℕ} (hunused : ∀ k, s.ledger.counter < k → s.subscriptionParams k = none)
    (hcreate : createSubscription env creator recipients amounts token months intervalDays s = .ok (id, t))
    {calls : List (Env × ChainCall)} (hcalls : Along OnChain chainStep (t, [id]) calls)
    (hreleased : AllReleased (runAll chainStep (t, [id]) calls)) :
    ((runAll chainStep (t, [id]) calls).2.Nodup ∧ (runAll chainStep (t, [id]) calls).2.length = months ∧
      ∀ k ∈ (runAll chainStep (t, [id]) calls).2, StoredAs (Subscribed
        ⟨creator, recipients, amounts, recipients.map fun _ => token, intervalDays⟩ token) k
          (runAll chainStep (t, [id]) calls).1.ledger) ↔ months ≤ 2 := by
  obtain ⟨hrecorded, hshape⟩ : Recorded _ token (runAll chainStep (t, [id]) calls) ∧
      Shape _ months id (runAll chainStep (t, [id]) calls) := by
    refine runAll_induction (I := fun p => Recorded _ token p ∧ Shape _ months id p)
      (fun p c v q hp hon hrun => ?_) (createSubscription_chain hunused hcreate) hcalls
    exact hp.2.step rfl hp.1 hon hrun
  generalize runAll chainStep (t, [id]) calls = p at hrecorded hshape hreleased ⊢
  obtain ⟨w, chain⟩ := p
  cases hshape with
  | single hchain hmonths hparams =>
      obtain rfl : chain = [id] := hchain
      exact iff_of_true ⟨List.nodup_singleton id, hmonths.symm, hrecorded.subscribed⟩ (by omega)
  | waits hchain hmonths hparams hwaiting =>
      -- a first invoice that still waits was not released
      obtain rfl : chain = [id] := hchain
      obtain ⟨inv, hinv, hstatus⟩ := hreleased id (List.mem_singleton_self id)
      obtain ⟨inv', hinv', hpending⟩ := hwaiting
      obtain rfl : inv = inv' := Option.some.inj (hinv.symm.trans hinv')
      cases hstatus.symm.trans hpending
  | ended newId hne hchain hmonths hfirst hsecond =>
      obtain rfl : chain = [id, newId] := hchain
      constructor
      · rintro ⟨-, hlength, -⟩
        exact hlength.symm.le
      · intro hmost
        exact ⟨by simp [hne.symm], by simp; omega, hrecorded.subscribed⟩

end Chains

/-- The storage after a subscription of 10 and 11 for some months. -/
def subscribedFor (months : ℕ) : SubStore :=
  commit (createSubscription (sampleEnv 10 0) 1 [10, 11] [60, 40] 9 months none) {}

/-- The first two invoices are paid in full. -/
def paidInTurn : List (Env × ChainCall) :=
  [(sampleEnv 11 0, .pay 20 1 100 0 false), (sampleEnv 12 0, .pay 20 2 100 0 false)]

/-- The storage and the chain after the payments. -/
def paidFor (months : ℕ) : Chained := runAll chainStep (subscribedFor months, [1]) paidInTurn

theorem allReleased_iff {p : Chained} : AllReleased p ↔
    ∀ k ∈ p.2, (p.1.ledger.entries k).invoice.map Invoice.status = some .released := by
  simp only [AllReleased, StoredAs, Option.map_eq_some_iff]

theorem onChain_paidInTurn {months : ℕ} (h : 2 ∈ (commit (chainStep (sampleEnv 11 0, .pay 20 1 100 0 false))
    (subscribedFor months, [1])).2) : Along OnChain chainStep (subscribedFor months, [1]) paidInTurn :=
  ⟨fun _ => List.mem_singleton_self 1, fun _ => h, trivial⟩

/-- A subscription for two months. -/
theorem subscription_invoices_sample : (paidFor 2).2.Nodup ∧ (paidFor 2).2.length = 2 ∧
    ∀ k ∈ (paidFor 2).2, StoredAs (Subscribed ⟨1, [10, 11], [60, 40], [9, 9], none⟩ 9) k
      (paidFor 2).1.ledger := by
  have hcreate : createSubscription (sampleEnv 10 0) 1 [10, 11] [60, 40] 9 2 none {} =
      .ok (1, subscribedFor 2) := ok_commit (by decide +kernel)
  have hreleased : AllReleased (paidFor 2) := allReleased_iff.2 (by decide +kernel)
  unfold paidFor at hreleased ⊢
  have hiff := subscription_invoices_iff (fun _ _ => rfl) hcreate (onChain_paidInTurn (by decide +kernel))
    hreleased
  exact hiff.2 (Nat.le_refl 2)

/-- A subscription for three months ends with its second invoice. -/
theorem subscription_ends_early :
    ¬∀ (env : Env) (s t : SubStore) (creator : Address) (recipients : List Address) (amounts : List ℤ)
      (token : Address) (months id : ℕ) (intervalDays : Option ℕ) (calls : List (Env × ChainCall)),
      (∀ k, s.ledger.counter < k → s.subscriptionParams k = none) →
      createSubscription env creator recipients amounts token months intervalDays s = .ok (id, t) →
      Along OnChain chainStep (t, [id]) calls → AllReleased (runAll chainStep (t, [id]) calls) →
      (runAll chainStep (t, [id]) calls).2.length = months := by
  intro h
  have hcreate : createSubscription (sampleEnv 10 0) 1 [10, 11] [60, 40] 9 3 none {} =
      .ok (1, subscribedFor 3) := ok_commit (by decide +kernel)
  have hlength : (paidFor 3).2.length = 3 :=
    h _ _ _ _ _ _ _ _ _ _ paidInTurn (fun _ _ => rfl) hcreate (onChain_paidInTurn (by decide +kernel))
      (allReleased_iff.2 (by decide +kernel))
  have htwo : (paidFor 3).2.length = 2 := by decide +kernel
  omega

end StellarSplit.Split.Subscriptions
