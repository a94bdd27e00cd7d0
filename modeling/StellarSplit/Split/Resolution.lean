import StellarSplit.Split.Payment

/-!
# Disputes, renewal and failed payouts

The arbiter and the administrator resolve disputes, the creator renews an
expired invoice and its payers may opt out, and four entry points settle a
payout that failed during a release.
-/

namespace StellarSplit.Split

open Exec Function Machine

/-! ## Disputes -/

def raiseDispute (env : Env) (id : ℕ) (arbiter : Address) : SplitM Unit := do
  requireNotPaused env
  requireAuth env.toLedger arbiter
  let inv ← loadInvoice id
  require (inv.arbiter = some arbiter) (.panic "not the designated arbiter")
  require (inv.disputed = false) (.panic "invoice is already disputed")
  require (inv.status = .pending) (.panic "invoice is not pending")
  saveInvoice env id (inv.withDisputed true)

/-- The refund branch of `resolve_dispute`. -/
def arbiterRefund (env : Env) (id : ℕ) (inv : Invoice) : SplitM Unit :=
  if inv.funded = 0 then saveInvoice env id (inv.withStatus .cancelled)
  else do
    let token ← orPanic inv.tokens.head? "no token"
    refundTotals env id token (totalsOf inv.payments)
    returnBonus env id inv token
    saveInvoice env id (inv.completed .refunded env.now)
    addTotalRefunded (sumOf (totalsOf inv.payments))

/-- What the arbiter decides; the dispute flag stays. -/
def arbiterAction (env : Env) (id : ℕ) (inv : Invoice) : ResolveAction → SplitM Unit
  | .release => releaseAs env id inv currentContract
  | .refund => arbiterRefund env id inv

def resolveDispute (env : Env) (id : ℕ) (arbiter : Address) (resolution : ResolveAction) :
    SplitM Unit := do
  requireNotPaused env
  requireAuth env.toLedger arbiter
  let inv ← loadInvoice id
  require (inv.arbiter = some arbiter) (.panic "not the designated arbiter")
  require (inv.disputed = true) (.panic "invoice is not disputed")
  arbiterAction env id inv resolution

def setDisputeRecord (id : ℕ) (status : DisputeStatus) : SplitM Unit :=
  modifyEntry id fun e => { e with disputeRecord := some status }

/-- A new dispute record with the ledger in which it was raised. -/
def openDisputeRecord (env : Env) (id : ℕ) : SplitM Unit :=
  modifyEntry id fun e => { e with disputeRecord := some .active, disputeRaisedAt := env.sequence }

def raiseInvoiceDispute (env : Env) (id : ℕ) (disputer : Address) : SplitM Unit := do
  requireNotPaused env
  requireAuth env.toLedger disputer
  let inv ← loadInvoice id
  require (inv.status = .pending) (.panic "invoice is not pending")
  require (inv.payments.any (·.payer = disputer) = true) (.panic "caller is not a contributor")
  openDisputeRecord env id
  saveInvoice env id ((inv.withStatus .disputed).withDisputed true)

inductive DisputeOutcome where
  | release | refund | approved | refunded
deriving DecidableEq, Repr

/-- The refund outcome of `resolve_invoice_dispute`. -/
def disputeRefund (env : Env) (id : ℕ) (inv : Invoice) : SplitM Unit := do
  setDisputeRecord id .resolved
  let token ← orPanic inv.tokens.head? "no token"
  refundPositive env id token (totalsOf inv.payments)
  returnBonus env id inv token
  saveInvoice env id ((inv.completed .refunded env.now).withDisputed false)

/-- The release outcome of `resolve_invoice_dispute`: the invoice is pending again. -/
def disputeRelease (env : Env) (id : ℕ) (inv : Invoice) : SplitM Unit := do
  setDisputeRecord id .resolved
  saveInvoice env id ((inv.withStatus .pending).withDisputed false)

def applyOutcome (env : Env) (id : ℕ) (inv : Invoice) : DisputeOutcome → SplitM Unit
  | .release | .approved => disputeRelease env id inv
  | .refund | .refunded => disputeRefund env id inv

def resolveInvoiceDispute (env : Env) (id : ℕ) (admin : Address) (outcome : DisputeOutcome) :
    SplitM Unit := do
  requireNotPaused env
  requireAuth env.toLedger admin
  let inv ← loadInvoice id
  require (inv.status = .disputed) (.panic "invoice is not disputed")
  let e ← getEntry id
  let status ← orPanic e.disputeRecord "dispute record not found"
  require (status = .active) (.panic "dispute is not active")
  applyOutcome env id inv outcome

/-! ## Renewal -/

/-- The amounts of the successor: what is missing, in the old proportions. -/
def carriedAmounts (inv : Invoice) : Result (List ℤ) :=
  let carried := max (satSubI128 inv.total inv.funded) 0
  if 0 < carried ∧ 0 < inv.total then do
    let shares ← inv.amounts.zipIdx.foldlM (fun (acc : List ℤ × ℤ) ai => do
      let share ←
        if ai.2 + 1 = inv.amounts.length then .ok (carried - acc.2)
        else plainMulDiv (asU128 ai.1) (asU128 carried) (asU128 inv.total)
      .ok (acc.1 ++ [max share 0], acc.2 + share)) ([], 0)
    .ok shares.1
  else .ok inv.amounts

/-- The successor of a renewed invoice. -/
def successor (old : Invoice) (oldId : ℕ) (amounts : List ℤ) (deadline : ℕ) : Invoice :=
  { old with
    baseAmounts := amounts
    amounts := amounts
    tokens := if old.tokens.isEmpty then old.recipients.map fun _ => old.fundingToken else old.tokens
    deadline := deadline
    funded := 0
    status := .pending
    payments := []
    claimed := []
    frozen := false
    completionTime := none
    bonusPool := 0
    bonusMaxPayers := 0
    releasedBps := 0
    signatures := []
    approver := none
    approved := false
    conditionMet := false
    releasedStages := 0
    insuranceFund := 0
    autoResumeAt := none
    disputed := false
    adminFrozen := false
    auctionOnExpiry := false
    auctionEnd := 0
    bids := []
    minFundingAmount := 0
    cloneDepth := old.cloneDepth + 1
    refundedAddresses := []
    escrowHoldPeriod := none
    heldUntil := none
    milestones := []
    milestonesReleased := 0
    recipientMaxPayouts := []
    releaseConditionHash := none
    contributorAllowlist := none
    predecessorId := some oldId
    earlyBirdFeeCredit := 0 }

/-- Hand out the next invoice id. -/
def nextId : SplitM ℕ := do
  let s ← get
  set { s with counter := s.counter + 1 }
  pure (s.counter + 1)

def setCreatedLedger (env : Env) (id : ℕ) : SplitM Unit :=
  modifyEntry id fun e => { e with createdLedger := some env.sequence }

def setRenewedTo (oldId id : ℕ) : SplitM Unit :=
  modifyEntry oldId fun e => { e with renewedTo := some id }

def renewInvoice (env : Env) (creator : Address) (oldId deadline : ℕ) : SplitM ℕ := do
  requireNotPaused env
  requireAuth env.toLedger creator
  let old ← loadInvoice oldId
  require (old.creator = creator) (.panic "only creator can renew invoice")
  require (old.deadline < env.now) (.panic "invoice deadline has not passed")
  let e ← getEntry oldId
  require (e.renewedTo = none) (.panic "invoice already renewed")
  require (env.now < deadline) (.panic "new deadline must be in the future")
  let amounts ← ofResult (carriedAmounts old)
  let id ← nextId
  setCreatedLedger env id
  saveInvoice env id (successor old oldId amounts deadline)
  setRenewedTo oldId id
  saveInvoice env oldId (old.completed .cancelled env.now)
  pure id

def optOutRenewal (env : Env) (payer : Address) (oldId : ℕ) : SplitM Unit := do
  requireNotPaused env
  requireAuth env.toLedger payer
  let inv ← loadInvoice oldId
  require (inv.creator ≠ payer) (.panic "invalid payer")
  let e ← getEntry oldId
  require (e.renewedTo.isSome = true) (.panic "invoice not renewed")
  require (inv.deadline < env.now) (.panic "invoice deadline has not passed")
  require (payer ∉ inv.refundedAddresses) (.panic "already refunded")
  require (0 < paidBy inv.payments payer) (.panic "payer has no contribution")
  transfer env (fundingTokenFor inv) payer (paidBy inv.payments payer) ⟨oldId, .refund⟩
  saveInvoice env oldId (inv.markRefunded payer)

/-! ## Votes on the deadline -/

/-- The payers with a recorded payment, each once. -/
def votingPayers (payments : List Payment) : List Address := (payments.map Payment.payer).dedup

def Invoice.withDeadline (inv : Invoice) (deadline : ℕ) : Invoice := { inv with deadline := deadline }

def setExtVotes (id : ℕ) (votes : List Address) : SplitM Unit :=
  modifyEntry id fun e => { e with extVotes := votes }

def voteExtendDeadline (env : Env) (id : ℕ) (voter : Address) : SplitM Unit := do
  requireAuth env.toLedger voter
  let inv ← loadInvoice id
  require (inv.status = .pending) (.panic "invoice is not pending")
  require (inv.payments.any (·.payer = voter) = true) (.panic "only payers can vote")
  let e ← getEntry id
  -- a second vote of the same payer is passed over
  onlyIf (voter ∉ e.extVotes)
    (if (votingPayers inv.payments).length / 2 < (e.extVotes ++ [voter]).length then do
      require (inv.deadline + 7 * 24 * 60 * 60 ≤ u64Max) .overflow
      saveInvoice env id (inv.withDeadline (inv.deadline + 7 * 24 * 60 * 60))
      setExtVotes id []
    else setExtVotes id (e.extVotes ++ [voter]))

/-! ## Failed payouts -/

/-- Take a recipient off the list of failed payouts. -/
def Entry.removeFailed (e : Entry) (recipient : Address) : Entry :=
  { e with failedPayouts := e.failedPayouts.filter (· ≠ recipient) }

/-- What `retry_failed_payout` sends. -/
def retryAmount (inv : Invoice) (idx : ℕ) : Result ℤ := do
  let amount ← unwrap inv.amounts[idx]?
  if inv.ratios ≠ [] then do
    let ratio ← unwrap inv.ratios[idx]?
    checkedProportion amount ratio inv.ratioDenominator
  else if inv.recipients.length = 1 then .ok inv.funded
  else checkedProportion amount inv.funded inv.total

/-- Finish the release once no payout is missing. -/
def finishRetry (env : Env) (id : ℕ) (inv : Invoice) : SplitM Unit := do
  saveInvoice env id (inv.completed .released env.now)
  closeOpenInvoice inv.creator

def retryFailedPayout (env : Env) (id : ℕ) (recipient : Address) : SplitM Unit := do
  requireNotPaused env
  let inv ← loadInvoice id
  let e ← getEntry id
  require (e.failedPayouts ≠ []) (.panic "no failed payouts for this invoice")
  require (recipient ∈ e.failedPayouts) (.panic "recipient not in failed payouts")
  require (env.accountExists (fundingTokenFor inv) recipient = true)
    (.error .recipientAccountMissing)
  let idx ← orPanic (inv.recipients.findIdx? (· = recipient)) "recipient not in invoice"
  let payout ← ofResult (retryAmount inv idx)
  transfer env (fundingTokenFor inv) recipient payout ⟨id, .retry⟩
  modifyEntry id fun e => e.removeFailed recipient
  onlyIf (e.failedPayouts.filter (· ≠ recipient) = []) (finishRetry env id inv)

def claimFallback (env : Env) (recipient : Address) (id : ℕ) : SplitM Unit := do
  requireAuth env.toLedger recipient
  let e ← getEntry id
  require (0 < max (e.failedRecord recipient) (e.fallbackEscrow recipient))
    (.panic "no payout balance to claim")
  let inv ← loadInvoice id
  onlyIf (0 < e.failedRecord recipient) (modifyEntry id fun e =>
    { e with failedRecord := update e.failedRecord recipient 0 }.removeFailed recipient)
  onlyIf (0 < e.fallbackEscrow recipient) (modifyEntry id fun e =>
    { e with fallbackEscrow := update e.fallbackEscrow recipient 0 })
  transfer env (fundingTokenFor inv) recipient
    (max (e.failedRecord recipient) (e.fallbackEscrow recipient)) ⟨id, .fallback⟩

/-- The recipients of a list with a positive balance lose it; the answer is what they had. -/
def sweepBalances (balances : Address → ℤ) : List Address → (Address → ℤ) × ℤ
  | [] => (balances, 0)
  | a :: as =>
      if 0 < balances a then
        let rest := sweepBalances (update balances a 0) as
        (rest.1, balances a + rest.2)
      else sweepBalances balances as

/-- The entries after a sweep of both stores. -/
def Entry.swept (e : Entry) (recipients : List Address) : Entry :=
  { e with
    fallbackEscrow := (sweepBalances e.fallbackEscrow recipients).1
    failedRecord := (sweepBalances e.failedRecord e.failedPayouts).1
    failedPayouts := [] }

/-- What a sweep of both stores collects. -/
def sweptAmount (e : Entry) (recipients : List Address) : ℤ :=
  (sweepBalances e.fallbackEscrow recipients).2 + (sweepBalances e.failedRecord e.failedPayouts).2

def sweepUnclaimedFunds (env : Env) (admin : Address) (id : ℕ) : SplitM ℤ := do
  require (env.config.schemaCurrent = true) (.panic "MigrationRequired")
  requireAuth env.toLedger admin
  require (admin ∈ env.config.superAdmins) (.panic "requires SuperAdmin role")
  let e ← getEntry id
  let lastFailed ← orPanic e.lastFailedLedger "no failed payouts recorded for this invoice"
  require (satAddU32 lastFailed env.config.sweepTimeout < env.sequence)
    (.panic "sweep timeout has not elapsed")
  let inv ← loadInvoice id
  modifyEntry id fun e => e.swept inv.recipients
  require (0 < sweptAmount e inv.recipients) (.panic "nothing to sweep")
  let treasury ← orPanic env.config.treasury "treasury not set"
  transfer env (fundingTokenFor inv) treasury (sweptAmount e inv.recipients) ⟨id, .sweep⟩
  modifyEntry id fun e => { e with lastFailedLedger := none }
  pure (sweptAmount e inv.recipients)

/-- The rest of `release_to_recipient` after its transfer went through. -/
def bookRecipientPaid (env : Env) (id : ℕ) (inv : Invoice) (recipient : Address) (amount : ℤ) :
    SplitM Unit := do
  modifyEntry id fun e => { e with paidRecipients := e.paidRecipients ++ [recipient] }
  let e ← getEntry id
  saveInvoice env id
    ((if inv.status = .partiallyReleased ∧ e.failedPayouts = [] then inv.completed .released env.now
      else inv).withFunded (inv.funded - amount))

/-- The rest of `release_to_recipient` after its transfer failed. -/
def bookRecipientFailed (env : Env) (id : ℕ) (inv : Invoice) (recipient : Address) (amount : ℤ) :
    SplitM Unit := do
  recordFailedPayout id recipient amount
  saveInvoice env id (inv.withStatus .partiallyReleased)

def releaseToRecipient (env : Env) (id : ℕ) (recipient : Address) : SplitM Unit := do
  requireFnNotPaused env "release"
  let inv ← loadInvoice id
  requireAuth env.toLedger inv.creator
  require (inv.status = .pending ∨ inv.status = .partiallyReleased)
    (.panic "invoice is not pending or partially released")
  require (inv.frozen = false) (.panic "invoice is frozen")
  require (inv.adminFrozen = false) (.panic "invoice frozen by admin")
  require (inv.disputed = false) (.panic "invoice is disputed")
  let e ← getEntry id
  require (inv.total ≤ inv.funded ∨ e.fundedAtLedger.isSome = true)
    (.panic "invoice not fully funded")
  checkReleaseDelay env id
  let idx ← orPanic (inv.recipients.findIdx? (· = recipient)) "recipient not found in invoice"
  require (recipient ∉ e.paidRecipients) (.panic "RecipientAlreadyPaid")
  let amount ← ofResult (unwrap inv.amounts[idx]?)
  require (0 < amount) (.panic "recipient amount must be positive")
  let sent ← tryTransfer env (recipientTokenFor inv idx) recipient amount ⟨id, .single⟩
  if sent then bookRecipientPaid env id inv recipient amount
  else bookRecipientFailed env id inv recipient amount

end StellarSplit.Split
