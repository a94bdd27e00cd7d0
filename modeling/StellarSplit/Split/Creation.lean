import StellarSplit.Split.Passes

/-!
# Creation, clones and changes of the recipients

An invoice is created from the options of its creator, cloned from another
one, rolled over after its deadline, or edited before it is paid. The
parameters of a creation are passed as an invoice record: `Invoice.created`
keeps the fields the contract takes from them and sets all others.
-/

namespace StellarSplit.Split

open Exec Function Machine

/-! ## Checks of the options -/

/-- The loop of `validate_milestones`. -/
def validateMilestonesFrom : ℕ → List ℕ → Result Unit
  | prev, [] => if prev = 10000 then .ok () else .error (.panic "milestones must end at 10000")
  | prev, milestone :: rest =>
      if ¬prev < milestone then .error (.panic "milestones must be strictly ascending")
      else if ¬milestone ≤ 10000 then .error (.panic "milestone basis points must be <= 10000")
      else validateMilestonesFrom milestone rest

def validateMilestones (milestones : List ℕ) : Result Unit :=
  if milestones = [] then .ok () else validateMilestonesFrom 0 milestones

/-- One rule of `validate_split_rules`; the accumulator adds up the percentages. -/
def validateSplitRule (total : ℕ) : SplitRule → Result ℕ
  | .fixed amount => if 0 < amount then .ok total else .error (.error .invalidAmount)
  | .percentage bps =>
      if bps ≤ 10000 then
        match checkedAddU32 total bps with
        | some sum => .ok sum
        | none => .error (.error .invalidRatioSum)
      else .error (.error .invalidRatio)
  | .tiered threshold bps =>
      if threshold < 0 then .error (.error .invalidAmount)
      else if bps ≤ 10000 then .ok total
      else .error (.error .invalidRatio)

def validateSplitRules (rules : List SplitRule) (count : ℕ) : Result Unit :=
  if rules.length ≠ count then .error (.error .invalidRecipients)
  else do
    let total ← rules.foldlM validateSplitRule 0
    if total ≤ 10000 then .ok () else .error (.error .invalidRatioSum)

/-- `validate_ratios`; the denominator is cast to `u32`. -/
def validateRatios (ratios : List ℕ) (denominator : ℕ) : Result Unit :=
  if ratios = [] then .error (.error .emptyRecipientList)
  else if ¬∀ r ∈ ratios, r < denominator % 2 ^ 32 then .error (.error .invalidRatio)
  else if ratios.foldl satAddU32 0 ≠ denominator % 2 ^ 32 then .error (.error .invalidRatio)
  else .ok ()

/-- `assert_bps_total` for a schedule, which may be empty. -/
def checkSchedule (bps : List ℕ) : SplitM Unit :=
  require (bps = [] ∨ bps.foldl satAddU32 0 = 10000) (.error .invalidRatioSum)

def checkNotPaused (env : Env) : SplitM Unit := do
  require (env.config.schemaCurrent = true) (.panic "MigrationRequired")
  require (isPaused env = false ∧ circuitBreakerBlocks env none = false) (.panic "ContractPaused")

/-- `validate_allowed_token` and `validate_token_contract` -/
def checkFundingToken (env : Env) (token : Address) : SplitM Unit := do
  require (env.config.allowedTokens = [] ∨ token ∈ env.config.allowedTokens)
    (.panic "UnauthorisedToken")
  require (env.calls token "decimals" = true ∧ env.calls token "balance" = true)
    (.error .unauthorisedToken)

def checkAmounts (env : Env) (draft : Invoice) : SplitM Unit := do
  require (draft.recipients.length = draft.amounts.length)
    (.panic "recipients and amounts length mismatch")
  require (draft.recipients ≠ []) (.panic "must have at least one recipient")
  require (∀ a ∈ draft.amounts, 0 < a) (.panic "amount must be positive")
  require (draft.total ≤ i128Max) (.panic "amount sum overflow")
  require (env.config.minRecipients ≤ draft.recipients.length) (.error .tooFewRecipients)

/-- The options of a creation that the invoice record does not hold. -/
structure CreationExtras where
  releaseDelayLedgers : Option ℕ := none
  paymentOpenAt : Option ℕ := none
  paymentCloseAt : Option ℕ := none
  recipientWhitelistEnabled : Bool := false
  cosigners : Option (List Address) := none
  cosignerThreshold : Option ℕ := none

def checkPaymentWindow (draft : Invoice) (extras : CreationExtras) : SplitM Unit := do
  require (∀ closeAt ∈ extras.paymentCloseAt, closeAt < draft.deadline)
    (.panic "payment_close_at must be before deadline")
  require (∀ openAt ∈ extras.paymentOpenAt, ∀ closeAt ∈ extras.paymentCloseAt, openAt < closeAt)
    (.error .invalidAmount)

def checkRates (env : Env) (draft : Invoice) : SplitM Unit := do
  require (0 ≤ draft.bonusPool) (.panic "bonus_pool must be non-negative")
  require (draft.penaltyBps ≤ 10000) (.error .invalidAmount)
  require (draft.minFundingBps ≤ 10000) (.panic "min_funding_bps must be ≤ 10000")
  require (¬(0 < draft.velocityLimit ∧ draft.velocityWindow = 0)) (.error .invalidAmount)
  require (draft.taxBps ≤ 10000) (.panic "tax_bps must be ≤ 10000")
  require (draft.insurancePremiumBps ≤ 10000) (.panic "insurance_premium_bps must be ≤ 10000")
  require (env.config.platformFeeBps ≤ 1000) (.error .feeSumExceedsCap)
  require (draft.earlyBirdFeeBps ≤ env.config.platformFeeBps) (.error .invalidAmount)
  require (draft.earlyBirdFeeBps ≤ 1000) (.error .feeSumExceedsCap)
  require (draft.creatorFeeBps ≤ 10000) (.panic "creator_fee_bps must be ≤ 10000")
  require (draft.creatorFeeBps + env.config.platformFeeBps ≤ 10000) (.panic "FeeSumExceedsCap")
  require (0 < draft.taxBps → draft.taxAuthority.isSome = true)
    (.panic "tax_authority must be set if tax_bps > 0")

/-- Priorities and oracle; equal recipients are only refused by a debug assertion, which release
builds leave out. -/
def checkPriorities (draft : Invoice) : SplitM Unit := do
  require (draft.priorities = [] ∨ draft.priorities.length = draft.recipients.length)
    (.panic "priorities length must match recipients")
  require (draft.oracle.isSome = true →
      draft.oracleAssetPairBase.isSome = true ∧ draft.oracleAssetPairQuote.isSome = true)
    (.panic "oracle_asset_pair required when oracle is set")
  require (draft.oracle.isSome = true → draft.priceOracle.isNone = true)
    (.panic "cannot set both price_oracle and oracle")

/-- Ask another contract about the creator and every recipient. -/
def checkCompliance (env : Env) (contract : Option Address) (function : String) (draft : Invoice) :
    SplitM Unit :=
  forM contract.toList fun c =>
    forM (draft.creator :: draft.recipients) fun a => do
      invoke env c function
      require (env.attests c function a = true) (.panic "compliance check failed")

def checkPrerequisiteExists (draft : Invoice) : SplitM Unit :=
  forM draft.prerequisiteId.toList fun id => ignore (loadInvoice id)

def checkSignersCount (draft : Invoice) : SplitM Unit := do
  require (draft.requiredSignatures ≤ draft.coSigners.length) (.error .invalidAmount)
  require (¬(draft.coSigners ≠ [] ∧ draft.requiredSignatures = 0)) (.error .invalidAmount)

def checkRules (draft : Invoice) : SplitM Unit := do
  checkSchedule (draft.tranches.map Tranche.basisPoints)
  checkSchedule draft.releaseStages
  ofResult (validateMilestones draft.milestones)
  require (draft.recipientMaxPayouts = [] ∨
      draft.recipientMaxPayouts.length = draft.recipients.length)
    (.panic "recipient_max_payouts length must match recipients")
  onlyIf (draft.splitRules ≠ []) (ofResult (validateSplitRules draft.splitRules draft.amounts.length))

/-! ## Creation -/

/-- The creation fee goes from the creator to the treasury. The discount tiers are looked up in
persistent storage while the contract keeps them in instance storage, so no discount applies. -/
def chargeCreationFee (env : Env) (creator : Address) : SplitM Unit :=
  onlyIf (0 < env.config.creationFee) do
    let usdc ← orPanic env.config.usdcToken "usdc token not set"
    let treasury ← orPanic env.config.treasury "treasury not set"
    move env ⟨usdc, creator, treasury, env.config.creationFee, ⟨0, .creationFee⟩⟩

def checkRecipientWhitelist (env : Env) (id : ℕ) (draft : Invoice) (extras : CreationExtras) :
    SplitM Unit :=
  onlyIf (extras.recipientWhitelistEnabled = true)
    (require (∀ r ∈ draft.recipients, r ∈ env.config.recipientWhitelist id)
      (.panic "recipient not whitelisted"))

/-- Count the invoice and the open invoice of the creator. -/
def countCreation (env : Env) (creator : Address) : SplitM Unit := do
  modifyStats fun st => { st with
    invoiceCount := update st.invoiceCount creator (st.invoiceCount creator + 1) }
  let s ← get
  require (s.stats.openInvoices creator < env.config.maxOpenInvoices)
    (.error .creatorInvoiceLimitReached)
  modifyStats fun st => { st with
    openInvoices := update st.openInvoices creator (st.openInvoices creator + 1) }

def checkGovernance (env : Env) (creator : Address) : SplitM Unit :=
  forM env.config.governanceContract.toList fun gov => do
    invoke env gov "check_approval"
    require (env.attests gov "check_approval" creator = true)
      (.panic "governance approval required")

def useCreatorVolume (env : Env) (creator : Address) (total : ℤ) : SplitM Unit :=
  onlyIf (0 < env.config.creatorVolumeCap creator) do
    let s ← get
    let used ← orPanic (checkedAddI128 (s.stats.volumeUsed creator) total) "volume overflow"
    require (used ≤ env.config.creatorVolumeCap creator) (.panic "creator volume cap exceeded")
    modifyStats fun st => { st with volumeUsed := update st.volumeUsed creator used }

def checkRecipientsKyc (env : Env) (draft : Invoice) : SplitM Unit :=
  onlyIf (draft.requireKyc = true) do
    let kyc ← orPanic env.config.kycContract "kyc contract not set"
    forM draft.recipients fun r => do
      invoke env kyc "is_verified"
      require (env.isVerified r = true) (.panic "kyc required for recipient")

/-- One token for each recipient. -/
def creationTokens (draft : Invoice) : SplitM (List Address) :=
  if draft.tokens = [] then pure (draft.recipients.map fun _ => draft.fundingToken)
  else do
    require (draft.tokens.length = draft.recipients.length)
      (.panic "recipient token count must match recipients")
    pure draft.tokens

/-- The tokens of the payouts, where those of the creation fit. -/
def Invoice.payoutTokens (draft : Invoice) : List Address :=
  if draft.tokens = [] then draft.recipients.map fun _ => draft.fundingToken else draft.tokens

/-- The invoice that a creation stores. -/
def Invoice.created (draft : Invoice) (tokens : List Address) : Invoice :=
  { draft with
    baseAmounts := draft.amounts
    tokens := tokens
    funded := 0
    status := .pending
    payments := []
    dripDuration := none
    claimed := draft.recipients.map fun _ => 0
    frozen := false
    completionTime := none
    releasedBps := 0
    signatures := []
    approver := none
    approved := false
    conditionMet := false
    releasedStages := 0
    insuranceFund := 0
    parentInvoiceId := none
    autoResumeAt := none
    penaltyTiers := []
    allowedCallers := none
    arbiter := none
    disputed := false
    adminFrozen := false
    auctionOnExpiry := false
    auctionEnd := 0
    bids := []
    minPayment := 0
    minFundingAmount := 0
    cloneDepth := 0
    refundedAddresses := []
    heldUntil := none
    milestonesReleased := 0
    overfundingPolicy := .cap
    predecessorId := none
    contributorAllowlist := none
    earlyBirdFeeCredit := 0 }

def setCreationExtras (id : ℕ) (extras : CreationExtras) : SplitM Unit := do
  require (∀ delay ∈ extras.releaseDelayLedgers, delay ≤ 100000)
    (.panic "release_delay_ledgers must be ≤ 100000")
  modifyEntry id fun e => { e with
    releaseDelay := extras.releaseDelayLedgers.or e.releaseDelay
    paymentOpenAt := extras.paymentOpenAt.or e.paymentOpenAt
    paymentCloseAt := extras.paymentCloseAt.or e.paymentCloseAt }

/-- The checks of `_create_invoice_inner` before anything is stored. -/
def checkCreation (env : Env) (draft : Invoice) (extras : CreationExtras) : SplitM Unit := do
  checkNotPaused env
  checkFundingToken env draft.fundingToken
  checkAmounts env draft
  checkPaymentWindow draft extras
  checkRates env draft
  checkPriorities draft
  checkCompliance env env.config.complianceGate "check" draft
  checkPrerequisiteExists draft
  checkSignersCount draft
  checkRules draft
  checkCompliance env env.config.complianceContract "is_compliant" draft

def createInvoiceInner (env : Env) (draft : Invoice) (extras : CreationExtras) : SplitM ℕ := do
  checkCreation env draft extras
  chargeCreationFee env draft.creator
  let id ← nextId
  setCreatedLedger env id
  checkRecipientWhitelist env id draft extras
  countCreation env draft.creator
  checkGovernance env draft.creator
  useCreatorVolume env draft.creator draft.total
  checkRecipientsKyc env draft
  onlyIf (0 < draft.bonusPool)
    (collect env draft.fundingToken draft.creator draft.bonusPool ⟨id, .bonusPool⟩)
  let tokens ← creationTokens draft
  saveInvoice env id (draft.created tokens)
  setCreationExtras id extras
  invokeIfSet env env.config.dashboard "record_created"
  pure id

def applyRateLimit (env : Env) (creator : Address) : SplitM Unit :=
  onlyIf (0 < env.config.rateLimit) do
    let s ← get
    let usage := if satAddU64 (s.stats.rateUsage creator).1 env.config.rateWindow ≤ env.now
      then (env.now, 0) else s.stats.rateUsage creator
    require (usage.2 < env.config.rateLimit) (.panic "rate limit exceeded")
    modifyStats fun st => { st with
      rateUsage := update st.rateUsage creator (usage.1, satAddU32 usage.2 1) }

def checkNftGate (env : Env) (creator : Address) : SplitM Unit :=
  forM env.config.nftGate.toList fun nft => do
    invoke env nft "balance_of"
    require (env.attests nft "balance_of" creator = true) (.panic "nft gate: not a holder")

/-- Who may create an invoice now. -/
def checkCreator (env : Env) (creator : Address) : SplitM Unit := do
  requireNotFrozen env
  require (env.config.breaker = false) (.panic "ContractPaused")
  require (isPaused env = false ∨ creator ∈ env.config.pauseExempt) (.panic "contract is paused")
  requireAuth env.toLedger creator
  let s ← get
  require (¬(0 < s.stats.cooldownUntil creator ∧ env.sequence < s.stats.cooldownUntil creator))
    (.panic "CreatorCooldownActive")
  applyRateLimit env creator
  require (env.config.creatorWhitelist = [] ∨ creator ∈ env.config.creatorWhitelist)
    (.panic "creator not whitelisted")
  checkNftGate env creator

def Invoice.withOverfundingPolicy (inv : Invoice) (policy : OverfundingPolicy) : Invoice :=
  { inv with overfundingPolicy := policy }

def applyOverfundingPolicy (env : Env) (id : ℕ) (policy : OverfundingPolicy) : SplitM Unit :=
  onlyIf (policy ≠ .cap) do
    let inv ← loadInvoice id
    saveInvoice env id (inv.withOverfundingPolicy policy)

def applyCosignerConfig (id : ℕ) (extras : CreationExtras) : SplitM Unit :=
  forM extras.cosigners.toList fun list => do
    require (list ≠ []) (.panic "cosigners cannot be empty when set")
    require (0 < extras.cosignerThreshold.getD list.length ∧
        extras.cosignerThreshold.getD list.length ≤ list.length)
      (.panic "cosigner_threshold must be between 1 and cosigners.len()")
    modifyEntry id fun e => { e with
      cosigners := some list
      cosignerThreshold := some (extras.cosignerThreshold.getD list.length) }

def Invoice.withTokens (inv : Invoice) (tokens : List Address) : Invoice :=
  { inv with tokens := tokens }

def createInvoice (env : Env) (draft : Invoice) (extras : CreationExtras) : SplitM ℕ := do
  checkCreator env draft.creator
  onlyIf (draft.ratios ≠ [])
    (ofResult (validateRatios draft.ratios (max draft.ratioDenominator 1)))
  let id ← createInvoiceInner env (draft.withTokens []) extras
  applyOverfundingPolicy env id draft.overfundingPolicy
  applyCosignerConfig id extras
  pure id

/-- A recipient and the token of its payout. -/
structure Recipient where
  address : Address
  token : Address
deriving DecidableEq, Repr

def Invoice.forRecipients (draft : Invoice) (recipients : List Recipient) : Invoice :=
  { draft with recipients := recipients.map Recipient.address, tokens := recipients.map Recipient.token }

/-- `create_invoice_with_recipients`; several checks of `create_invoice` are not made here. -/
def createInvoiceWithRecipients (env : Env) (draft : Invoice) (recipients : List Recipient)
    (extras : CreationExtras) : SplitM ℕ := do
  require (env.config.breaker = false) (.panic "ContractPaused")
  require (isPaused env = false ∨ draft.creator ∈ env.config.pauseExempt) (.panic "contract is paused")
  requireAuth env.toLedger draft.creator
  applyRateLimit env draft.creator
  let id ← createInvoiceInner env (draft.forRecipients recipients) extras
  applyOverfundingPolicy env id draft.overfundingPolicy
  applyCosignerConfig id extras
  pure id

/-! ## Rollover -/

/-- `copy_shard_payments`: the shards that hold payments replace those of the new invoice. -/
def copyShardPayments (fromId toId : ℕ) : SplitM Unit := do
  let source ← getEntry fromId
  modifyEntry toId fun e => { e with
    shards := fun i =>
      if i < shardCount ∧ source.shards i ≠ [] then source.shards i else e.shards i }

/-- The parameters of the creation in a rollover. -/
def Invoice.rolledOver (old : Invoice) (deadline : ℕ) : Invoice :=
  { old with
    deadline := deadline
    bonusPool := 0
    bonusMaxPayers := 0
    allowedPayers := none
    targetUsdCents := none
    releaseConditionHash := none }

def rolloverInvoice (env : Env) (caller : Address) (id deadline : ℕ) : SplitM ℕ := do
  requireNotPaused env
  requireAuth env.toLedger caller
  let old ← loadInvoice id
  require (old.status = .pending) (.panic "invoice is not pending")
  require (old.creator = caller) (.panic "only creator can rollover invoice")
  require (old.deadline < env.now) (.panic "invoice deadline has not passed")
  require (env.now < deadline) (.panic "new deadline must be in the future")
  let newId ← createInvoiceInner env (old.rolledOver deadline) {}
  copyShardPayments id newId
  let new ← loadInvoice newId
  saveInvoice env newId (new.withFunded old.funded)
  -- the payments of the old invoice stay in its shards
  saveInvoice env id (old.completed .refunded env.now)
  pure newId

/-! ## Clones -/

/-- What a clone replaces. -/
structure CloneOverrides where
  newDeadline : Option ℕ := none
  newAmounts : Option (List ℤ) := none
  newRecipients : Option (List Address) := none
  newOverflowBehavior : Option String := none

def selectByIndices {α : Type} (src : List α) (indices : List ℕ) : List α :=
  indices.filterMap (src[·]?)

/-- The checks on the indices of a partial clone. -/
def checkIndices (sourceLen : ℕ) (selection : Option (List ℕ)) : SplitM Unit :=
  forM selection.toList fun indices => do
    require (indices ≠ []) (.panic "empty clone selection")
    require (∀ i ∈ indices, i < sourceLen) (.panic "clone index out of range")
    require indices.Nodup (.panic "duplicate clone index")

def validateClonedState (env : Env) (recipients : List Address) (amounts : List ℤ) (deadline : ℕ) :
    SplitM Unit := do
  require (recipients ≠ []) (.panic "clone has no recipients")
  require (recipients.length = amounts.length)
    (.panic "clone recipients and amounts length mismatch")
  require (∀ a ∈ amounts, 0 < a) (.panic "clone amount must be positive")
  require recipients.Nodup (.panic "duplicate clone recipient")
  require (env.now < deadline) (.panic "clone deadline must be in the future")

/-- A list with one entry for each recipient follows the selected recipients, or is dropped when
it does not fit. -/
def cloneVector {α : Type} (selection : Option (List ℕ)) (sourceLen newLen : ℕ) (src : List α) :
    List α :=
  match selection with
  | some indices =>
      if src.length = sourceLen then selectByIndices src indices
      else if src.length = newLen then src
      else []
  | none => if src.length = newLen then src else []

/-- The ratios of a clone; a selection has none. -/
def cloneRatios {α : Type} (selection : Option (List ℕ)) (newLen : ℕ) (src : List α) : List α :=
  if selection.isNone ∧ src.length = newLen then src else []

def cloneOverflow (source : Invoice) (overrides : CloneOverrides) : Result OverflowBehavior :=
  match overrides.newOverflowBehavior with
  | none => .ok source.overflowBehavior
  | some name =>
      if name = "Reject" then .ok .reject
      else if name = "Refund" then .ok .refund
      else if name = "Donate" then .ok .donate
      else .error (.panic "invalid overflow behavior")

def cloneRecipients (source : Invoice) (overrides : CloneOverrides) (selection : Option (List ℕ)) :
    List Address :=
  match selection with
  | some indices => selectByIndices source.recipients indices
  | none => overrides.newRecipients.getD source.recipients

def cloneAmounts (source : Invoice) (overrides : CloneOverrides) (selection : Option (List ℕ)) :
    List ℤ :=
  match overrides.newAmounts, selection with
  | some amounts, _ => amounts
  | none, some indices => selectByIndices source.amounts indices
  | none, none => source.amounts

/-- The invoice that a clone stores. -/
def Invoice.cloned (source : Invoice) (sourceId : ℕ) (selection : Option (List ℕ))
    (recipients : List Address) (amounts : List ℤ) (token : Address) (deadline : ℕ)
    (overflow : OverflowBehavior) : Invoice :=
  { source with
    recipients := recipients
    baseAmounts := amounts
    amounts := amounts
    tokens := recipients.map fun _ => token
    deadline := deadline
    funded := 0
    status := .pending
    payments := []
    claimed := recipients.map fun _ => 0
    releasedBps := 0
    completionTime := none
    cloneDepth := source.cloneDepth + 1
    parentInvoiceId := some sourceId
    signatures := []
    approved := false
    conditionMet := false
    releasedStages := 0
    swapTokens := cloneVector selection source.recipients.length recipients.length source.swapTokens
    splitRules := cloneVector selection source.recipients.length recipients.length source.splitRules
    priorities := cloneVector selection source.recipients.length recipients.length source.priorities
    recipientMaxPayouts :=
      cloneVector selection source.recipients.length recipients.length source.recipientMaxPayouts
    ratios := cloneRatios selection recipients.length source.ratios
    overflowBehavior := overflow
    disputed := false
    adminFrozen := false
    refundedAddresses := []
    heldUntil := none
    milestonesReleased := 0
    predecessorId := none
    earlyBirdFeeCredit := 0 }

def cloneInvoiceImpl (env : Env) (creator : Address) (sourceId : ℕ) (overrides : CloneOverrides)
    (selection : Option (List ℕ)) : SplitM ℕ := do
  requireNotPaused env
  requireAuth env.toLedger creator
  let source ← loadInvoice sourceId
  require (source.creator = creator) (.panic "not invoice creator")
  require (source.cloneDepth < 5) (.panic "max clone depth exceeded")
  checkIndices source.recipients.length selection
  validateClonedState env (cloneRecipients source overrides selection)
    (cloneAmounts source overrides selection) (overrides.newDeadline.getD source.deadline)
  let overflow ← ofResult (cloneOverflow source overrides)
  let token ← orPanic source.tokens.head? "no token"
  let id ← nextId
  setCreatedLedger env id
  saveInvoice env id (source.cloned sourceId selection (cloneRecipients source overrides selection)
    (cloneAmounts source overrides selection) token (overrides.newDeadline.getD source.deadline)
    overflow)
  pure id

def cloneInvoice (env : Env) (creator : Address) (sourceId : ℕ) (overrides : CloneOverrides) :
    SplitM ℕ :=
  cloneInvoiceImpl env creator sourceId overrides none

def cloneInvoicePartial (env : Env) (creator : Address) (sourceId : ℕ) (indices : List ℕ)
    (overrides : CloneOverrides) : SplitM ℕ := do
  require (overrides.newRecipients.isNone = true)
    (.panic "recipients override not allowed in partial clone")
  cloneInvoiceImpl env creator sourceId overrides (some indices)

/-! ## Changes of the recipients -/

def maxInvoiceTotal : ℤ := i128Max / 10000000000

def Invoice.withRecipient (inv : Invoice) (recipient : Address) (amount : ℤ) (token : Address) :
    Invoice :=
  { inv with
    recipients := inv.recipients ++ [recipient]
    amounts := inv.amounts ++ [amount]
    tokens := inv.tokens ++ [token]
    claimed := inv.claimed ++ [0] }

def addRecipient (env : Env) (caller : Address) (id : ℕ) (recipient : Address) (amount : ℤ) :
    SplitM Unit := do
  requireNotPaused env
  requireAuth env.toLedger caller
  let inv ← loadInvoice id
  require (inv.status = .pending) (.panic "invoice is not pending")
  require (inv.disputed = false) (.panic "invoice is disputed")
  require (inv.creator = caller) (.panic "only creator can add recipients")
  require (recipient ≠ currentContract) (.error .invalidRecipientAddress)
  require (inv.funded = 0) (.panic "cannot add recipient after payment received")
  require (0 < amount) (.panic "amount must be positive")
  require (InI128 (inv.total + amount) ∧ inv.total + amount ≤ maxInvoiceTotal)
    (.error .arithmeticOverflow)
  let token ← orPanic inv.tokens.head? "no token"
  saveInvoice env id (inv.withRecipient recipient amount token)

def Invoice.withAmounts (inv : Invoice) (amounts : List ℤ) : Invoice := { inv with amounts := amounts }

/-- A co-signer of the creator has to sign with the creator; otherwise the caller is the creator. -/
def authorizeSplit (env : Env) (inv : Invoice) (caller : Address) : SplitM Unit :=
  match inv.creatorCosigner with
  | some cosigner => do
      requireAuth env.toLedger inv.creator
      requireAuth env.toLedger cosigner
  | none => require (inv.creator = caller) (.panic "only creator can adjust split")

def adjustSplit (env : Env) (caller : Address) (id : ℕ) (newAmounts : List ℤ) : SplitM Unit := do
  requireNotPaused env
  requireAuth env.toLedger caller
  let inv ← loadInvoice id
  require (inv.status = .pending) (.panic "invoice is not pending")
  require (inv.disputed = false) (.panic "invoice is disputed")
  authorizeSplit env inv caller
  require (inv.funded = 0) (.panic "payments already received")
  require (newAmounts.length = inv.recipients.length) (.panic "amounts length mismatch")
  require (∀ a ∈ newAmounts, 0 < a) (.panic "amounts must be positive")
  saveInvoice env id (inv.withAmounts newAmounts)

/-- The entries of a list at the positions below `n` other than `idx`. -/
def othersOf {α : Type} (n idx : ℕ) (xs : List α) : Result (List α) :=
  ((List.range n).filter (· ≠ idx)).mapM fun i => unwrap xs[i]?

/-- `removed_amount * base / remaining_total` with the plain operators. -/
def removedShare (removed remaining base : ℤ) : Result ℤ :=
  if remaining = 0 ∨ ¬InI128 (removed * base) then .error .overflow
  else .ok (Int.tdiv (removed * base) remaining)

/-- `a + b` with the plain operator. -/
def plainAdd (a b : ℤ) : Result ℤ := if InI128 (a + b) then .ok (a + b) else .error .overflow

/-- The removed amount is divided in proportion, and the first recipient gets the remainder. -/
def redistribute (removed : ℤ) (amounts : List ℤ) : Result (List ℤ) := do
  let remaining ← amounts.foldlM plainAdd 0
  let shares ← amounts.mapM (removedShare removed remaining)
  let distributed ← shares.foldlM plainAdd 0
  let raised ← (amounts.zip shares).mapM fun p => plainAdd p.1 p.2
  let remainder ← plainAdd removed (-distributed)
  let first ← unwrap raised.head?
  let first ← plainAdd first remainder
  .ok (first :: raised.tail)

def Invoice.withRecipients (inv : Invoice) (recipients : List Address) (amounts : List ℤ)
    (tokens : List Address) (claimed : List ℤ) : Invoice :=
  { inv with recipients := recipients, amounts := amounts, tokens := tokens, claimed := claimed }

def rebalanceRecipients (env : Env) (creator : Address) (id : ℕ) (removeAddress : Address) :
    SplitM Unit := do
  requireNotPaused env
  requireAuth env.toLedger creator
  let inv ← loadInvoice id
  require (inv.status = .pending) (.panic "invoice is not pending")
  require (inv.disputed = false) (.panic "invoice is disputed")
  require (inv.creator = creator) (.panic "only creator can rebalance recipients")
  require (inv.funded = 0) (.panic "payments already received")
  require (3 ≤ inv.recipients.length) (.panic "InsufficientRecipients")
  let idx ← orPanic (inv.recipients.findIdx? (· = removeAddress)) "recipient not in invoice"
  let removed ← ofResult (unwrap inv.amounts[idx]?)
  let recipients ← ofResult (othersOf inv.recipients.length idx inv.recipients)
  let amounts ← ofResult (othersOf inv.recipients.length idx inv.amounts)
  let tokens ← ofResult (othersOf inv.recipients.length idx inv.tokens)
  let claimed ← ofResult (othersOf inv.recipients.length idx inv.claimed)
  let newAmounts ← ofResult (redistribute removed amounts)
  saveInvoice env id (inv.withRecipients recipients newAmounts tokens claimed)

def Invoice.withRotated (inv : Invoice) (oldAddress newAddress : Address) : Invoice :=
  { inv with recipients := inv.recipients.map fun r => if r = oldAddress then newAddress else r }

def rotateRecipientAddress (env : Env) (id : ℕ) (oldAddress newAddress : Address) : SplitM Unit := do
  checkNotPaused env
  requireAuth env.toLedger oldAddress
  let inv ← loadInvoice id
  require (inv.status = .pending) (.panic "InvoiceNotPending")
  require (oldAddress ∈ inv.recipients) (.panic "RecipientNotFound")
  saveInvoice env id (inv.withRotated oldAddress newAddress)

/-! ## What a creation stores -/

section Stores

variable {env : Env} {s t u : Store} {id : ℕ} {draft inv : Invoice} {extras : CreationExtras}
  {v : Unit}

/-- Besides counters and the log only notes of the invoice have changed. -/
structure Beside (id : ℕ) (s t : Store) : Prop where
  counter : t.counter = s.counter
  others : ∀ j, j ≠ id → t.entries j = s.entries j
  invoice : (t.entries id).invoice = (s.entries id).invoice
  shards : (t.entries id).shards = (s.entries id).shards

instance beside_refl : Std.Refl (Beside id) := ⟨fun _ => ⟨rfl, fun _ _ => rfl, rfl, rfl⟩⟩

theorem Beside.trans (h₁ : Beside id s t) (h₂ : Beside id t u) : Beside id s u :=
  ⟨h₂.counter.trans h₁.counter, fun j hj => (h₂.others j hj).trans (h₁.others j hj),
    h₂.invoice.trans h₁.invoice, h₂.shards.trans h₁.shards⟩

instance beside_trans : IsTrans Store (Beside id) := ⟨fun _ _ _ => Beside.trans⟩

instance moves_beside {memo : Memo} : Moves (Beside id) memo :=
  ⟨fun _ _ _ => ⟨rfl, fun _ _ => rfl, rfl, rfl⟩⟩

instance counts_beside : Counts (Beside id) := ⟨fun _ _ _ => ⟨rfl, fun _ _ => rfl, rfl, rfl⟩⟩

theorem framed_modifyEntry_beside {f : Entry → Entry} (hinvoice : ∀ e, (f e).invoice = e.invoice)
    (hshards : ∀ e, (f e).shards = e.shards) : Framed (Beside id) (modifyEntry id f) := by
  refine .of (.modify fun s => ⟨rfl, fun j hj => Store.setEntry_ne s hj _, ?_, ?_⟩)
  · rw [Store.setEntry_self]
    exact hinvoice _
  · rw [Store.setEntry_self]
    exact hshards _

instance framed_setCreatedLedger_beside : Framed (Beside id) (setCreatedLedger env id) :=
  framed_modifyEntry_beside (fun _ => rfl) fun _ => rfl

instance framed_setCreationExtras_beside : Framed (Beside id) (setCreationExtras id extras) := by
  have hset : Framed (Beside id) (modifyEntry id fun e => { e with
      releaseDelay := extras.releaseDelayLedgers.or e.releaseDelay
      paymentOpenAt := extras.paymentOpenAt.or e.paymentOpenAt
      paymentCloseAt := extras.paymentCloseAt.or e.paymentCloseAt }) :=
    framed_modifyEntry_beside (fun _ => rfl) fun _ => rfl
  unfold setCreationExtras
  infer_instance

instance framed_applyCosignerConfig_beside : Framed (Beside id) (applyCosignerConfig id extras) := by
  have hset : ∀ (list : List Address), Framed (Beside id) (modifyEntry id fun e => { e with
      cosigners := some list
      cosignerThreshold := some (extras.cosignerThreshold.getD list.length) }) :=
    fun _ => framed_modifyEntry_beside (fun _ => rfl) fun _ => rfl
  unfold applyCosignerConfig
  infer_instance

section Reads

variable {R : Store → Store → Prop}

instance framed_checkCompliance {contract : Option Address} {function : String} :
    Framed R (checkCompliance env contract function draft) := by
  unfold checkCompliance
  infer_instance

instance framed_checkCreation : Framed R (checkCreation env draft extras) := by
  unfold checkCreation checkNotPaused checkFundingToken checkAmounts checkPaymentWindow checkRates
    checkPriorities checkPrerequisiteExists checkSignersCount checkRules checkSchedule
  infer_instance

instance framed_chargeCreationFee {a : Address} [h : Moves R ⟨0, .creationFee⟩] :
    Framed R (chargeCreationFee env a) := by
  have hmove : ∀ usdc treasury fee, Framed R
      (move env ⟨usdc, a, treasury, fee, ⟨0, .creationFee⟩⟩) := fun _ _ _ => framed_move (h := h)
  unfold chargeCreationFee
  infer_instance

instance framed_checkRecipientWhitelist : Framed R (checkRecipientWhitelist env id draft extras) := by
  unfold checkRecipientWhitelist
  infer_instance

instance framed_countCreation {a : Address} [Counts R] : Framed R (countCreation env a) := by
  have hcount : Framed R (modifyStats fun st => { st with
      invoiceCount := update st.invoiceCount a (st.invoiceCount a + 1) }) :=
    framed_stats fun _ => rfl
  have hopen : Framed R (modifyStats fun st => { st with
      openInvoices := update st.openInvoices a (st.openInvoices a + 1) }) :=
    framed_stats fun _ => rfl
  unfold countCreation
  infer_instance

instance framed_checkGovernance {a : Address} : Framed R (checkGovernance env a) := by
  unfold checkGovernance
  infer_instance

instance framed_useCreatorVolume {a : Address} {x : ℤ} [Counts R] :
    Framed R (useCreatorVolume env a x) := by
  have hused : ∀ used, Framed R (modifyStats fun st => { st with
      volumeUsed := update st.volumeUsed a used }) := fun _ => framed_stats fun _ => rfl
  unfold useCreatorVolume
  infer_instance

instance framed_checkRecipientsKyc : Framed R (checkRecipientsKyc env draft) := by
  unfold checkRecipientsKyc
  infer_instance

instance framed_applyRateLimit {a : Address} [Counts R] : Framed R (applyRateLimit env a) := by
  have husage : ∀ usage : ℕ × ℕ, Framed R (modifyStats fun st => { st with
      rateUsage := update st.rateUsage a (usage.1, satAddU32 usage.2 1) }) :=
    fun _ => framed_stats fun _ => rfl
  unfold applyRateLimit
  infer_instance

instance framed_checkCreator {a : Address} [Counts R] : Framed R (checkCreator env a) := by
  unfold checkCreator checkNftGate
  infer_instance

end Reads

/-- What the checks of a creation promise of the lists with one entry for each recipient. -/
structure Checked (draft : Invoice) : Prop where
  amounts : draft.amounts.length = draft.recipients.length
  recipients : draft.recipients ≠ []
  priorities : draft.priorities = [] ∨ draft.priorities.length = draft.recipients.length
  maxPayouts : draft.recipientMaxPayouts = [] ∨
    draft.recipientMaxPayouts.length = draft.recipients.length
  splitRules : draft.splitRules = [] ∨ draft.splitRules.length = draft.recipients.length

theorem checkAmounts_ok (hrun : checkAmounts env draft s = .ok (v, t)) :
    draft.recipients.length = draft.amounts.length ∧ draft.recipients ≠ [] := by
  simp only [checkAmounts, require_bind] at hrun
  exact ⟨hrun.1, hrun.2.1⟩

theorem checkPriorities_ok (hrun : checkPriorities draft s = .ok (v, t)) :
    draft.priorities = [] ∨ draft.priorities.length = draft.recipients.length := by
  simp only [checkPriorities, require_bind] at hrun
  exact hrun.1

theorem validateRatios_ok {ratios : List ℕ} {denominator : ℕ} : validateRatios ratios denominator = .ok () ↔
    ratios ≠ [] ∧ (∀ r ∈ ratios, r < denominator % 2 ^ 32) ∧ min ratios.sum u32Max = denominator % 2 ^ 32 := by
  unfold validateRatios
  rw [foldl_satAddU32 (Nat.zero_le _), Nat.zero_add]
  by_cases hempty : ratios = []
  · rw [if_pos hempty]
    exact iff_of_false nofun fun h => h.1 hempty
  rw [if_neg hempty]
  by_cases hbelow : ∀ r ∈ ratios, r < denominator % 2 ^ 32
  · rw [if_neg (not_not.2 hbelow)]
    by_cases hsum : min ratios.sum u32Max = denominator % 2 ^ 32
    · rw [if_neg (not_not.2 hsum)]
      exact ⟨fun _ => ⟨hempty, hbelow, hsum⟩, fun _ => rfl⟩
    · rw [if_pos hsum]
      exact iff_of_false nofun fun h => hsum h.2.2
  · rw [if_pos hbelow]
    exact iff_of_false nofun fun h => hbelow h.2.1

theorem validateSplitRules_length {rules : List SplitRule} {n : ℕ}
    (h : validateSplitRules rules n = .ok ()) : rules.length = n := by
  unfold validateSplitRules at h
  split at h
  · cases h
  · rename_i hlen
    exact not_ne_iff.1 hlen

theorem checkRules_ok (hrun : checkRules draft s = .ok (v, t)) :
    (draft.recipientMaxPayouts = [] ∨
      draft.recipientMaxPayouts.length = draft.recipients.length) ∧
    (draft.splitRules = [] ∨ draft.splitRules.length = draft.amounts.length) := by
  simp only [checkRules, checkSchedule, require_bind, ofResult_bind] at hrun
  obtain ⟨-, -, _, -, hpayouts, hrules⟩ := hrun
  refine ⟨hpayouts, ?_⟩
  rcases onlyIf_ok.1 hrules with ⟨-, hrules⟩ | ⟨hnone, -⟩
  · exact .inr (validateSplitRules_length (ofResult_ok.1 hrules).1)
  · exact .inl (not_ne_iff.1 hnone)

theorem checkCreation_ok (hrun : checkCreation env draft extras s = .ok (v, t)) : Checked draft := by
  obtain ⟨_, _, -, hrun⟩ := bind_ok.1 hrun
  obtain ⟨_, _, -, hrun⟩ := bind_ok.1 hrun
  obtain ⟨_, _, hamounts, hrun⟩ := bind_ok.1 hrun
  obtain ⟨_, _, -, hrun⟩ := bind_ok.1 hrun
  obtain ⟨_, _, -, hrun⟩ := bind_ok.1 hrun
  obtain ⟨_, _, hpriorities, hrun⟩ := bind_ok.1 hrun
  obtain ⟨_, _, -, hrun⟩ := bind_ok.1 hrun
  obtain ⟨_, _, -, hrun⟩ := bind_ok.1 hrun
  obtain ⟨_, _, -, hrun⟩ := bind_ok.1 hrun
  obtain ⟨_, _, hrules, -⟩ := bind_ok.1 hrun
  obtain ⟨hlen, hsome⟩ := checkAmounts_ok hamounts
  obtain ⟨hpayouts, hsplit⟩ := checkRules_ok hrules
  rw [← hlen] at hsplit
  exact ⟨hlen.symm, hsome, checkPriorities_ok hpriorities, hpayouts, hsplit⟩

theorem creationTokens_ok {tokens : List Address}
    (hrun : creationTokens draft s = .ok (tokens, t)) :
    s = t ∧ tokens = draft.payoutTokens ∧ tokens.length = draft.recipients.length := by
  unfold creationTokens at hrun
  unfold Invoice.payoutTokens
  split_ifs at hrun ⊢ with hempty
  · obtain ⟨rfl, rfl⟩ := pure_ok.1 hrun
    exact ⟨rfl, rfl, List.length_map _⟩
  · obtain ⟨hlen, hrun⟩ := require_bind.1 hrun
    obtain ⟨rfl, rfl⟩ := pure_ok.1 hrun
    exact ⟨rfl, rfl, hlen⟩

/-- An invoice was stored under the next id. -/
structure Stored (id : ℕ) (inv : Invoice) (s t : Store) : Prop where
  fresh : id = s.counter + 1
  counter : t.counter = s.counter + 1
  others : ∀ j, j ≠ id → t.entries j = s.entries j
  invoice : (t.entries id).invoice = some inv
  shards : (t.entries id).shards = (s.entries id).shards

theorem Stored.beside (h : Stored id inv s t) (hbeside : Beside id t u) : Stored id inv s u :=
  ⟨h.fresh, hbeside.counter.trans h.counter,
    fun j hj => (hbeside.others j hj).trans (h.others j hj), hbeside.invoice.trans h.invoice,
    hbeside.shards.trans h.shards⟩

theorem nextId_ok (hrun : nextId s = .ok (id, t)) :
    id = s.counter + 1 ∧ t = { s with counter := s.counter + 1 } := by
  simp only [nextId, bind_ok, get_ok, set_ok, pure_ok] at hrun
  obtain ⟨_, _, ⟨rfl, rfl⟩, _, _, rfl, rfl, rfl⟩ := hrun
  exact ⟨rfl, rfl⟩

/-- Saving an invoice under a fresh id, with notes before it. -/
theorem stored_save {r : Store} (hid : id = s.counter + 1)
    (hbefore : Beside id { s with counter := s.counter + 1 } r)
    (hsave : saveInvoice env id inv r = .ok (v, t)) : Stored id (inv.withPayments []) s t := by
  obtain ⟨-, rfl⟩ := saveInvoice_ok.1 hsave
  refine ⟨hid, hbefore.counter, fun j hj => ?_, ?_, ?_⟩
  · rw [Store.setEntry_ne _ hj]
    exact hbefore.others j hj
  · rw [Store.setEntry_self]
  · rw [Store.setEntry_self]
    exact hbefore.shards

theorem createInvoiceInner_ok (hrun : createInvoiceInner env draft extras s = .ok (id, t)) :
    Checked draft ∧ draft.payoutTokens.length = draft.recipients.length ∧
      Stored id (draft.created draft.payoutTokens) s t := by
  obtain ⟨_, u₁, hchecks, hrun⟩ := bind_ok.1 hrun
  obtain ⟨_, u₂, hfee, hrun⟩ := bind_ok.1 hrun
  obtain ⟨newId, u₃, hnext, hrun⟩ := bind_ok.1 hrun
  obtain ⟨_, u₄, hledger, hrun⟩ := bind_ok.1 hrun
  obtain ⟨_, u₅, hwhitelist, hrun⟩ := bind_ok.1 hrun
  obtain ⟨_, u₆, hcount, hrun⟩ := bind_ok.1 hrun
  obtain ⟨_, u₇, hgovernance, hrun⟩ := bind_ok.1 hrun
  obtain ⟨_, u₈, hvolume, hrun⟩ := bind_ok.1 hrun
  obtain ⟨_, u₉, hkyc, hrun⟩ := bind_ok.1 hrun
  obtain ⟨_, u₁₀, hbonus, hrun⟩ := bind_ok.1 hrun
  obtain ⟨tokens, u₁₁, htokens, hrun⟩ := bind_ok.1 hrun
  obtain ⟨_, u₁₂, hsave, hrun⟩ := bind_ok.1 hrun
  obtain ⟨_, u₁₃, hextras, hrun⟩ := bind_ok.1 hrun
  obtain ⟨_, u₁₄, hrecord, hrun⟩ := bind_ok.1 hrun
  obtain ⟨rfl, rfl⟩ := pure_ok.1 hrun
  obtain rfl : s = u₁ := framed_checkCreation.respects s _ u₁ hchecks
  obtain ⟨rfl, rfl⟩ := nextId_ok hnext
  obtain ⟨rfl, rfl, hlen⟩ := creationTokens_ok htokens
  have hpaid : Beside (u₂.counter + 1) s u₂ := framed_chargeCreationFee.respects s _ u₂ hfee
  have hbefore : Beside (u₂.counter + 1) { u₂ with counter := u₂.counter + 1 } u₁₀ := by
    have hcollect : Framed (Beside (u₂.counter + 1)) (onlyIf (0 < draft.bonusPool)
        (collect env draft.fundingToken draft.creator draft.bonusPool
          ⟨u₂.counter + 1, .bonusPool⟩)) := inferInstance
    have h₄ := framed_setCreatedLedger_beside.respects _ _ u₄ hledger
    have h₅ : Beside (u₂.counter + 1) u₄ u₅ :=
      framed_checkRecipientWhitelist.respects u₄ _ u₅ hwhitelist
    have h₆ : Beside (u₂.counter + 1) u₅ u₆ := framed_countCreation.respects u₅ _ u₆ hcount
    have h₇ : Beside (u₂.counter + 1) u₆ u₇ := framed_checkGovernance.respects u₆ _ u₇ hgovernance
    have h₈ : Beside (u₂.counter + 1) u₇ u₈ := framed_useCreatorVolume.respects u₇ _ u₈ hvolume
    have h₉ : Beside (u₂.counter + 1) u₈ u₉ := framed_checkRecipientsKyc.respects u₈ _ u₉ hkyc
    have h₁₀ := hcollect.respects u₉ _ u₁₀ hbonus
    exact (((((h₄.trans h₅).trans h₆).trans h₇).trans h₈).trans h₉).trans h₁₀
  have hstored : Stored (u₂.counter + 1) (draft.created draft.payoutTokens) u₂ u₁₂ :=
    stored_save rfl hbefore hsave
  have hafter : Beside (u₂.counter + 1) u₁₂ u₁₄ := by
    have h₁₃ := framed_setCreationExtras_beside.respects u₁₂ _ u₁₃ hextras
    have h₁₄ : Beside (u₂.counter + 1) u₁₃ u₁₄ := framed_invokeIfSet.respects u₁₃ _ u₁₄ hrecord
    exact h₁₃.trans h₁₄
  have hend := hstored.beside hafter
  refine ⟨checkCreation_ok hchecks, hlen, ?_, ?_, fun j hj => ?_, hend.invoice, ?_⟩
  · rw [hpaid.counter]
  · rw [hend.counter, hpaid.counter]
  · rw [hend.others j hj, hpaid.others j hj]
  · rw [hend.shards, hpaid.shards]

/-- What a rollover leaves: the successor with the payments of the old invoice, and the old invoice
marked as refunded. -/
structure RolledOver (env : Env) (id newId deadline : ℕ) (old : Invoice) (tokens : List Address)
    (s t : Store) : Prop where
  fresh : newId = s.counter + 1
  counter : t.counter = s.counter + 1
  others : ∀ j, j ≠ id → j ≠ newId → t.entries j = s.entries j
  successor : (t.entries newId).invoice =
    some (((old.rolledOver deadline).created tokens).withFunded old.funded)
  old : t.entries id = { s.entries id with
    invoice := some ((old.completed .refunded env.now).withPayments []) }

theorem rolloverInvoice_ok {caller : Address} {newId deadline : ℕ} (hid : id ≤ s.counter)
    (hrun : rolloverInvoice env caller id deadline s = .ok (newId, t)) :
    ∃ old tokens, (s.entries id).load = some old ∧ old.status = .pending ∧ old.creator = caller ∧
      old.deadline < env.now ∧ Checked (old.rolledOver deadline) ∧
      tokens.length = old.recipients.length ∧ RolledOver env id newId deadline old tokens s t := by
  simp only [rolloverInvoice, requireNotPaused_bind, requireAuth_bind, loadInvoice_bind,
    require_bind] at hrun
  obtain ⟨-, -, old, hload, hstatus, hcreator, hdeadline, -, hrun⟩ := hrun
  obtain ⟨new, u₁, hcreate, hrun⟩ := bind_ok.1 hrun
  obtain ⟨_, u₂, hcopy, hrun⟩ := bind_ok.1 hrun
  obtain ⟨inv, hnew, hrun⟩ := loadInvoice_bind.1 hrun
  obtain ⟨_, u₃, hsaveNew, hrun⟩ := bind_ok.1 hrun
  obtain ⟨_, u₄, hsaveOld, hrun⟩ := bind_ok.1 hrun
  obtain ⟨rfl, rfl⟩ := pure_ok.1 hrun
  obtain ⟨hchecked, hlen, hstored⟩ := createInvoiceInner_ok hcreate
  have hne : id ≠ new := by
    have := hstored.fresh
    omega
  simp only [copyShardPayments, getEntry_bind] at hcopy
  obtain rfl := modifyEntry_ok.1 hcopy
  obtain ⟨-, rfl⟩ := saveInvoice_ok.1 hsaveNew
  obtain ⟨-, rfl⟩ := saveInvoice_ok.1 hsaveOld
  refine ⟨old, _, hload, hstatus, hcreator, hdeadline, hchecked, hlen, hstored.fresh,
    hstored.counter, fun j hj hj' => ?_, ?_, ?_⟩
  · rw [Store.setEntry_ne _ hj, Store.setEntry_ne _ hj', Store.setEntry_ne _ hj']
    exact hstored.others j hj'
  · obtain ⟨stored, hstoredNew, rfl⟩ := Option.map_eq_some_iff.1 hnew
    rw [Store.setEntry_self] at hstoredNew
    have hinvoice := hstored.invoice
    rw [hinvoice] at hstoredNew
    cases hstoredNew
    rw [Store.setEntry_ne _ hne.symm, Store.setEntry_self]
    rfl
  · rw [Store.setEntry_self, Store.setEntry_ne _ hne, Store.setEntry_ne _ hne,
      hstored.others id hne]

end Stores

end StellarSplit.Split
