import StellarSplit.Split.Disputes

/-!
# The other ways to fund an invoice

Payments in another token, by a delegate, through a channel, in a batch and
with a hidden amount. Each entry point has its own list of checks before the
money is taken and its own list of what keeps a funded invoice from being
released at once.
-/

namespace StellarSplit.Split

open Exec Function Machine

/-! ## Crediting a payment -/

/-- The payment goes into the shard of the payer and is counted. -/
def creditShard (id : ℕ) (payer : Address) (amount : ℤ) : SplitM Unit := do
  pushPayment id { payer := payer, amount := amount }
  addCumulative id amount

/-- Release the invoice when it is fully funded and neither guarded nor held back, otherwise save
it. -/
def settleCredit (env : Env) (id : ℕ) (inv : Invoice) (heldBack : Invoice → Bool) (actor : Address) :
    SplitM Unit := do
  let e ← getEntry id
  if inv.total ≤ inv.funded ∧ isGuarded e inv = false ∧ heldBack inv = false then
    releaseAs env id inv actor
  else saveInvoice env id inv

theorem settleCredit_cases {env : Env} {id : ℕ} {inv : Invoice} {heldBack : Invoice → Bool}
    {actor : Address} {s t : Store} {v : Unit}
    (hrun : settleCredit env id inv heldBack actor s = .ok (v, t)) :
    ((inv.total ≤ inv.funded ∧ isGuarded (s.entries id) inv = false ∧ heldBack inv = false) ∧
        releaseAs env id inv actor s = .ok (v, t)) ∨
      (¬(inv.total ≤ inv.funded ∧ isGuarded (s.entries id) inv = false ∧ heldBack inv = false) ∧
        saveInvoice env id inv s = .ok (v, t)) := by
  rw [settleCredit, getEntry_bind] at hrun
  split_ifs at hrun with hfull
  · exact .inl ⟨hfull, hrun⟩
  · exact .inr ⟨hfull, hrun⟩

/-- A payment of a pool ends as the other payments do. -/
theorem creditPoolPayment_passes {env : Env} {payer : Address} {p : InvoicePayment} {s t : Store} {v : Unit}
    (hrun : creditPoolPayment env payer p s = .ok (v, t)) :
    ∃ inv u₁ u₂, (s.entries p.invoiceId).load = some inv ∧
      pushPayment p.invoiceId { payer := payer, amount := p.amount } s = .ok ((), u₁) ∧
      addCumulative p.invoiceId p.amount u₁ = .ok ((), u₂) ∧
      settleCredit env p.invoiceId (inv.withFunded (inv.funded + p.amount)) conditionPending payer u₂ =
        .ok (v, t) := by
  rw [creditPoolPayment, loadInvoice_bind] at hrun
  obtain ⟨inv, hload, hrun⟩ := hrun
  obtain ⟨_, u₁, hpush, hrun⟩ := bind_ok.1 hrun
  obtain ⟨funded, hsum, hrun⟩ := orError_bind.1 hrun
  obtain ⟨_, u₂, hcumulative, hsettle⟩ := bind_ok.1 hrun
  obtain rfl : funded = inv.funded + p.amount := checkedAddI128_eq hsum
  exact ⟨inv, u₁, u₂, hload, hpush, hcumulative, hsettle⟩

/-- A condition oracle that has not answered yet. -/
def oraclePending (inv : Invoice) : Bool := inv.conditionOracle.isSome && !inv.conditionMet

/-- The checks on status and time that most entry points share. -/
def checkOpen (env : Env) (inv : Invoice) : SplitM Unit := do
  require (inv.status = .pending) (.panic "invoice is not pending")
  require (inv.disputed = false) (.panic "invoice is disputed")
  require (env.now ≤ inv.deadline) (.panic "invoice deadline has passed")

def checkNotFrozen (inv : Invoice) : SplitM Unit := do
  require (inv.frozen = false) (.panic "invoice is frozen")
  require (inv.adminFrozen = false) (.panic "invoice frozen by admin")

theorem checkOpen_bind {env : Env} {inv : Invoice} {s : Store} {β : Type} {k : Unit → SplitM β} {r : β × Store} :
    (checkOpen env inv >>= k) s = .ok r ↔
      (inv.status = .pending ∧ inv.disputed = false ∧ env.now ≤ inv.deadline) ∧ k () s = .ok r := by
  unfold checkOpen
  simp only [bind_ok, require_ok]
  constructor
  · rintro ⟨_, _, ⟨_, _, ⟨hpending, rfl⟩, _, _, ⟨hflag, rfl⟩, hdeadline, rfl⟩, hrun⟩
    exact ⟨⟨hpending, hflag, hdeadline⟩, hrun⟩
  · rintro ⟨⟨hpending, hflag, hdeadline⟩, hrun⟩
    exact ⟨(), s, ⟨(), s, ⟨hpending, rfl⟩, (), s, ⟨hflag, rfl⟩, hdeadline, rfl⟩, hrun⟩

theorem checkNotFrozen_bind {inv : Invoice} {s : Store} {β : Type} {k : Unit → SplitM β} {r : β × Store} :
    (checkNotFrozen inv >>= k) s = .ok r ↔
      (inv.frozen = false ∧ inv.adminFrozen = false) ∧ k () s = .ok r := by
  unfold checkNotFrozen
  simp only [bind_ok, require_ok]
  constructor
  · rintro ⟨_, _, ⟨_, _, ⟨hfrozen, rfl⟩, hadmin, rfl⟩, hrun⟩
    exact ⟨⟨hfrozen, hadmin⟩, hrun⟩
  · rintro ⟨⟨hfrozen, hadmin⟩, hrun⟩
    exact ⟨(), s, ⟨(), s, ⟨hfrozen, rfl⟩, hadmin, rfl⟩, hrun⟩

/-! ## Payments in another token -/

/-- Take the source token and let the exchange answer what it is worth. -/
def swapIn (env : Env) (id : ℕ) (payer sourceToken invoiceToken : Address) (amount : ℤ) :
    SplitM ℤ := do
  collect env sourceToken payer amount ⟨id, .payment⟩
  let dex ← orPanic env.config.dexContract "dex contract not set"
  invoke env dex "swap"
  pure (env.swapped sourceToken invoiceToken amount)

/-- What a payment in a token is credited with. -/
def takeToken (env : Env) (id : ℕ) (inv : Invoice) (payer sourceToken : Address) (amount : ℤ) :
    SplitM ℤ :=
  if sourceToken = fundingTokenFor inv then do
    collect env (fundingTokenFor inv) payer amount ⟨id, .payment⟩
    pure amount
  else swapIn env id payer sourceToken (fundingTokenFor inv) amount

/-- Credit an amount that has to fit what is missing. -/
def creditConverted (env : Env) (id : ℕ) (inv : Invoice) (payer : Address) (amount : ℤ)
    (heldBack : Invoice → Bool) : SplitM Unit := do
  require (amount ≤ inv.total - inv.funded) (.panic "payment exceeds remaining balance")
  creditShard id payer amount
  let funded ← orError (checkedAddI128 inv.funded amount) .arithmeticOverflow
  notifyInvoice env inv
  settleCredit env id (inv.withFunded funded) heldBack payer

def payWithToken (env : Env) (payer : Address) (id : ℕ) (sourceToken : Address) (amount : ℤ)
    (nonce : ℕ) : SplitM Unit := do
  requireFnNotPaused env "pay_tok"
  requireAuth env.toLedger payer
  require (env.admits id payer amount = true) (.panic "RateLimitExceeded")
  let inv ← loadInvoice id
  checkOpen env inv
  require (0 < amount) (.panic "ZeroAmountNotAllowed")
  require (sourceToken = fundingTokenFor inv ∨ sourceToken ∈ inv.acceptedTokens)
    (.panic "token not accepted")
  let e ← getEntry id
  require (nonce = e.nonce payer) (.panic "invalid nonce")
  incrementNonce id payer
  let credited ← takeToken env id inv payer sourceToken amount
  -- the condition oracle is not asked
  creditConverted env id inv payer credited belowMinFunding

def bridgePay (env : Env) (payer : Address) (id : ℕ) (sourceToken : Address) (sourceAmount : ℤ) :
    SplitM Unit := do
  requireFnNotPaused env "brg_pay"
  requireAuth env.toLedger payer
  require (env.admits id payer sourceAmount = true) (.panic "RateLimitExceeded")
  let inv ← loadInvoice id
  checkOpen env inv
  require (0 < sourceAmount) (.panic "payment amount must be positive")
  let converted ← swapIn env id payer sourceToken (fundingTokenFor inv) sourceAmount
  creditConverted env id inv payer converted conditionPending

/-! ## Payments by a delegate -/

/-- Take a payment from `source` and credit it to `payer`. -/
def creditDelegated (env : Env) (id : ℕ) (inv : Invoice) (source payer : Address) (amount : ℤ) :
    SplitM Unit := do
  collect env (fundingTokenFor inv) source amount ⟨id, .payment⟩
  require (InI128 (inv.funded + amount)) .overflow
  creditShard id payer amount

def delegatePay (env : Env) (delegate beneficiary : Address) (id : ℕ) (amount : ℤ) :
    SplitM Unit := do
  requireNotPaused env
  requireAuth env.toLedger delegate
  let s ← get
  require (delegate ∈ s.delegates beneficiary) (.panic "not authorised")
  let inv ← loadInvoice id
  checkOpen env inv
  require (0 < amount) (.panic "ZeroAmountNotAllowed")
  require (env.admits id beneficiary amount = true) (.panic "RateLimitExceeded")
  require (amount ≤ inv.total - inv.funded) (.panic "payment exceeds remaining balance")
  creditDelegated env id inv delegate beneficiary amount
  notifyInvoice env inv
  -- neither the condition oracle nor the minimum funding is asked
  settleCredit env id (inv.withFunded (inv.funded + amount)) (fun _ => false) delegate

def removeDelegation (id : ℕ) (onBehalfOf : Address) : SplitM Unit :=
  modifyEntry id fun e => { e with delegation := update e.delegation onBehalfOf none }

def consumeGlobalNonce (caller : Address) (nonce : ℕ) : SplitM Unit := do
  let s ← get
  require (nonce = s.globalNonce caller) (.panic "InvalidNonce")
  set { s with globalNonce := update s.globalNonce caller (s.globalNonce caller + 1) }

def payInvoiceDelegated (env : Env) (executor : Address) (id : ℕ) (amount : ℤ) (nonce : ℕ)
    (onBehalfOf : Address) : SplitM Unit := do
  requireFnNotPaused env "pay"
  requireAuth env.toLedger executor
  let e ← getEntry id
  let delegate ← orPanic (e.delegation onBehalfOf) "no delegation authorization"
  require (delegate = executor) (.panic "caller is not the authorized delegate")
  removeDelegation id onBehalfOf
  let inv ← loadInvoice id
  checkOpen env inv
  require (0 < amount) (.panic "ZeroAmountNotAllowed")
  require (env.admits id onBehalfOf amount = true) (.panic "RateLimitExceeded")
  checkNotFrozen inv
  require (listed onBehalfOf inv.allowedPayers) (.panic "on_behalf_of not in allowed payers")
  require (amount ≤ inv.total - inv.funded) (.panic "payment exceeds remaining balance")
  consumeGlobalNonce onBehalfOf nonce
  creditDelegated env id inv executor onBehalfOf amount
  countPayment inv.creator amount
  settleCredit env id (inv.withFunded (inv.funded + amount)) oraclePending executor

/-! ## Batches -/

/-- `_pool_pay` -/
def poolPayInner (env : Env) (payer : Address) (payments : List InvoicePayment) : SplitM Unit := do
  let first ← orPanic payments.head? "payments must not be empty"
  let firstInv ← loadInvoice first.invoiceId
  forM payments (checkPoolPayment env (fundingTokenFor firstInv))
  collectPool env (fundingTokenFor firstInv) payer payments
  forM payments (creditPoolPayment env payer)

theorem poolPay_eq (env : Env) (payer : Address) (payments : List InvoicePayment) :
    poolPay env payer payments = (do
      requireNotPaused env
      requireAuth env.toLedger payer
      poolPayInner env payer payments) := rfl

def setBatch (batchId : ℕ) (batch : PaymentBatch) : SplitM Unit :=
  modify fun s => { s with batches := update s.batches batchId (some batch) }

def executePaymentBatch (env : Env) (payer : Address) (batchId : ℕ) : SplitM Unit := do
  requireFnNotPaused env "pay"
  requireNotFrozen env
  requireAuth env.toLedger payer
  let s ← get
  let batch ← orPanic (s.batches batchId) "batch not found"
  require (batch.payer = payer) (.panic "not batch owner")
  require (batch.status = .open) (.panic "batch is not open")
  require (batch.items ≠ []) (.panic "payments must not be empty")
  setBatch batchId { batch with status := .executed }
  poolPayInner env payer batch.items

/-! ## Channels -/

def setChannel (id : ℕ) (payer : Address) (channel : Option Channel) : SplitM Unit :=
  modifyEntry id fun e => { e with channel := update e.channel payer channel }

def openChannel (env : Env) (payer : Address) (id : ℕ) (deposit : ℤ) : SplitM Unit := do
  requireNotPaused env
  requireAuth env.toLedger payer
  require (0 < deposit) (.panic "deposit must be positive")
  let inv ← loadInvoice id
  require (inv.status = .pending) (.panic "invoice is not pending")
  require (inv.disputed = false) (.panic "invoice is disputed")
  collect env (fundingTokenFor inv) payer deposit ⟨id, .deposit⟩
  -- a channel that is open already is overwritten
  setChannel id payer (some ⟨deposit, deposit⟩)

def channelPay (env : Env) (payer : Address) (id : ℕ) (amount : ℤ) : SplitM Unit := do
  requireNotPaused env
  requireAuth env.toLedger payer
  require (0 < amount) (.panic "amount must be positive")
  let e ← getEntry id
  let channel ← orPanic (e.channel payer) "channel not found"
  require (amount ≤ channel.balance) (.panic "insufficient channel balance")
  setChannel id payer (some { channel with balance := channel.balance - amount })

/-- Credit what was paid through a channel. -/
def creditChannel (env : Env) (id : ℕ) (inv : Invoice) (payer : Address) (netPaid : ℤ) :
    SplitM Unit := do
  require (inv.status = .pending) (.panic "invoice is not pending")
  creditShard id payer netPaid
  let funded ← orError (checkedAddI128 inv.funded netPaid) .arithmeticOverflow
  settleCredit env id (inv.withFunded funded) conditionPending payer

/-- Return the balance of a channel; it was deposited in the funding token. -/
def returnBalance (env : Env) (id : ℕ) (inv : Invoice) (payer : Address) (balance : ℤ) :
    SplitM Unit :=
  onlyIf (0 < balance) do
    let token ← orPanic inv.tokens.head? "no token"
    transfer env token payer balance ⟨id, .channelReturn⟩

def closeChannel (env : Env) (payer : Address) (id : ℕ) : SplitM Unit := do
  requireNotPaused env
  requireAuth env.toLedger payer
  let e ← getEntry id
  let channel ← orPanic (e.channel payer) "channel not found"
  let inv ← loadInvoice id
  require (inv.disputed = false) (.panic "invoice is disputed")
  onlyIf (0 < channel.deposited - channel.balance)
    (creditChannel env id inv payer (channel.deposited - channel.balance))
  returnBalance env id inv payer channel.balance
  setChannel id payer none

/-! ## Hidden amounts -/

def setCommitment (id : ℕ) (payer : Address) (commitment : Option Hash) : SplitM Unit :=
  modifyEntry id fun e => { e with pedersenCommitment := update e.pedersenCommitment payer commitment }

def commitConfidentialPayment (env : Env) (payer : Address) (id : ℕ) (commitment : Hash) :
    SplitM Unit := do
  let inv ← loadInvoice id
  require (inv.status = .pending) (.panic "invoice is not pending")
  require (inv.disputed = false) (.panic "invoice is disputed")
  checkNotFrozen inv
  require (env.now ≤ inv.deadline) (.panic "invoice deadline has passed")
  require (listed payer inv.allowedPayers) (.panic "payer not allowed")
  require (listed payer inv.contributorAllowlist) (.panic "ContributorNotAllowed")
  let e ← getEntry id
  require (e.pedersenCommitment payer = none) (.panic "ConfidentialCommitmentExists")
  setCommitment id payer (some commitment)

/-- `pay` with a commitment. -/
def payConfidential (env : Env) (payer : Address) (id : ℕ) (commitment : Hash) : SplitM Unit := do
  requireFnNotPaused env "pay"
  requireNotFrozen env
  requireAuth env.toLedger payer
  commitConfidentialPayment env payer id commitment

/-- `reveal_confidential_payment`: the payment is funded and counted, but goes into no shard. -/
def revealConfidentialPayment (env : Env) (id : ℕ) (payer : Address) (value : ℤ) (blinding : Hash) :
    SplitM Unit := do
  requireFnNotPaused env "pay"
  requireNotFrozen env
  requireAuth env.toLedger payer
  require (0 < value) (.panic "ZeroAmountNotAllowed")
  let e ← getEntry id
  let stored ← orPanic (e.pedersenCommitment payer) "NoConfidentialCommitment"
  let digest ← orPanic (env.pedersenDigest value blinding) "not initialized"
  require (digest = stored) (.panic "ConfidentialCommitmentMismatch")
  setCommitment id payer none
  let inv ← loadInvoice id
  require (inv.status = .pending) (.panic "invoice is not pending")
  require (inv.disputed = false) (.panic "invoice is disputed")
  checkNotFrozen inv
  require (env.now ≤ inv.deadline) (.panic "invoice deadline has passed")
  collect env (fundingTokenFor inv) payer value ⟨id, .payment⟩
  let funded ← orPanic (checkedAddI128 inv.funded value) "funded overflow"
  addCumulative id value
  addContribution id payer value
  settleCredit env id (inv.withFunded funded) conditionPending payer

/-- `reveal_confidential_total`: the creator says what was paid and no tokens move. -/
def revealConfidentialTotal (env : Env) (id : ℕ) (decryptedSum : ℤ) (proof : Hash) : SplitM Unit := do
  requireNotPaused env
  let inv ← loadInvoice id
  requireAuth env.toLedger inv.creator
  require (inv.status = .pending) (.panic "invoice is not pending")
  require (0 < decryptedSum) (.panic "decrypted_sum must be positive")
  require (proof ≠ 0) (.panic "invalid reveal proof")
  require (InI128 (inv.funded + decryptedSum)) .overflow
  saveInvoice env id (inv.withFunded (min (inv.funded + decryptedSum) inv.total))
  onlyIf (inv.total ≤ inv.funded + decryptedSum)
    (releaseAs env id (inv.withFunded inv.total) currentContract)

/-! ## What a call that returns has done -/

section Passes

variable {env : Env} {s t : Store} {v : Unit} {id : ℕ} {inv : Invoice} {payer : Address} {amount : ℤ}

theorem creditConverted_passes {heldBack : Invoice → Bool}
    (hrun : creditConverted env id inv payer amount heldBack s = .ok (v, t)) :
    amount ≤ inv.total - inv.funded ∧ ∃ u₁ u₂, creditShard id payer amount s = .ok ((), u₁) ∧
      notifyInvoice env inv u₁ = .ok ((), u₂) ∧
      settleCredit env id (inv.withFunded (inv.funded + amount)) heldBack payer u₂ = .ok (v, t) := by
  rw [creditConverted, require_bind] at hrun
  obtain ⟨hfits, hrun⟩ := hrun
  obtain ⟨_, u₁, hshard, hrun⟩ := bind_ok.1 hrun
  obtain ⟨funded, hsum, hrun⟩ := orError_bind.1 hrun
  obtain ⟨_, u₂, hnotify, hsettle⟩ := bind_ok.1 hrun
  obtain rfl : funded = inv.funded + amount := checkedAddI128_eq hsum
  exact ⟨hfits, u₁, u₂, hshard, hnotify, hsettle⟩

theorem payWithToken_passes {sourceToken : Address} {nonce : ℕ}
    (hrun : payWithToken env payer id sourceToken amount nonce s = .ok (v, t)) :
    ∃ inv credited u₁ u₂, (s.entries id).load = some inv ∧
      (inv.status = .pending ∧ inv.disputed = false ∧ env.now ≤ inv.deadline) ∧
      payer ≠ currentContract ∧ incrementNonce id payer s = .ok ((), u₁) ∧
      takeToken env id inv payer sourceToken amount u₁ = .ok (credited, u₂) ∧
      creditConverted env id inv payer credited belowMinFunding u₂ = .ok (v, t) := by
  simp only [payWithToken, requireFnNotPaused_bind, requireAuth_bind, require_bind, loadInvoice_bind,
    checkOpen_bind, getEntry_bind] at hrun
  obtain ⟨-, hauth, -, inv, hload, hopen, -, -, -, hrun⟩ := hrun
  obtain ⟨_, u₁, hnonce, hrun⟩ := bind_ok.1 hrun
  obtain ⟨credited, u₂, htake, hcredit⟩ := bind_ok.1 hrun
  exact ⟨inv, credited, u₁, u₂, hload, hopen, hauth.2, hnonce, htake, hcredit⟩

theorem bridgePay_passes {sourceToken : Address}
    (hrun : bridgePay env payer id sourceToken amount s = .ok (v, t)) :
    ∃ inv converted u, (s.entries id).load = some inv ∧
      (inv.status = .pending ∧ inv.disputed = false ∧ env.now ≤ inv.deadline) ∧
      swapIn env id payer sourceToken (fundingTokenFor inv) amount s = .ok (converted, u) ∧
      creditConverted env id inv payer converted conditionPending u = .ok (v, t) := by
  simp only [bridgePay, requireFnNotPaused_bind, requireAuth_bind, require_bind, loadInvoice_bind,
    checkOpen_bind] at hrun
  obtain ⟨-, -, -, inv, hload, hopen, -, hrun⟩ := hrun
  obtain ⟨converted, u, hswap, hcredit⟩ := bind_ok.1 hrun
  exact ⟨inv, converted, u, hload, hopen, hswap, hcredit⟩

theorem delegatePay_passes {delegate beneficiary : Address}
    (hrun : delegatePay env delegate beneficiary id amount s = .ok (v, t)) :
    ∃ inv u₁ u₂, (s.entries id).load = some inv ∧
      (inv.status = .pending ∧ inv.disputed = false ∧ env.now ≤ inv.deadline) ∧
      delegate ≠ currentContract ∧ creditDelegated env id inv delegate beneficiary amount s = .ok ((), u₁) ∧
      notifyInvoice env inv u₁ = .ok ((), u₂) ∧
      settleCredit env id (inv.withFunded (inv.funded + amount)) (fun _ => false) delegate u₂ =
        .ok (v, t) := by
  simp only [delegatePay, requireNotPaused_bind, requireAuth_bind, get_bind, require_bind,
    loadInvoice_bind, checkOpen_bind] at hrun
  obtain ⟨-, hauth, -, inv, hload, hopen, -, -, -, hrun⟩ := hrun
  obtain ⟨_, u₁, hcredit, hrun⟩ := bind_ok.1 hrun
  obtain ⟨_, u₂, hnotify, hsettle⟩ := bind_ok.1 hrun
  exact ⟨inv, u₁, u₂, hload, hopen, hauth.2, hcredit, hnotify, hsettle⟩

theorem payInvoiceDelegated_passes {executor onBehalfOf : Address} {nonce : ℕ}
    (hrun : payInvoiceDelegated env executor id amount nonce onBehalfOf s = .ok (v, t)) :
    ∃ inv u₁ u₂ u₃ u₄, (s.entries id).load = some inv ∧
      (inv.status = .pending ∧ inv.disputed = false ∧ env.now ≤ inv.deadline) ∧
      (inv.frozen = false ∧ inv.adminFrozen = false) ∧ listed onBehalfOf inv.allowedPayers ∧
      executor ≠ currentContract ∧ removeDelegation id onBehalfOf s = .ok ((), u₁) ∧
      consumeGlobalNonce onBehalfOf nonce u₁ = .ok ((), u₂) ∧
      creditDelegated env id inv executor onBehalfOf amount u₂ = .ok ((), u₃) ∧
      countPayment inv.creator amount u₃ = .ok ((), u₄) ∧
      settleCredit env id (inv.withFunded (inv.funded + amount)) oraclePending executor u₄ =
        .ok (v, t) := by
  simp only [payInvoiceDelegated, requireFnNotPaused_bind, requireAuth_bind, getEntry_bind, orPanic_bind,
    require_bind] at hrun
  obtain ⟨-, hauth, delegate, -, -, hrun⟩ := hrun
  obtain ⟨_, u₁, hremove, hrun⟩ := bind_ok.1 hrun
  simp only [loadInvoice_bind, checkOpen_bind, require_bind, checkNotFrozen_bind] at hrun
  obtain ⟨inv, hload, hopen, -, -, hunfrozen, hlisted, -, hrun⟩ := hrun
  obtain ⟨_, u₂, hnonce, hrun⟩ := bind_ok.1 hrun
  obtain ⟨_, u₃, hcredit, hrun⟩ := bind_ok.1 hrun
  obtain ⟨_, u₄, hcount, hsettle⟩ := bind_ok.1 hrun
  have hsame : (u₁.entries id).load = (s.entries id).load := by
    obtain rfl := modifyEntry_ok.1 hremove
    rw [Store.setEntry_self]
    rfl
  rw [hsame] at hload
  exact ⟨inv, u₁, u₂, u₃, u₄, hload, hopen, hunfrozen, hlisted, hauth.2, hremove, hnonce, hcredit,
    hcount, hsettle⟩

theorem poolPayInner_passes {payments : List InvoicePayment}
    (hrun : poolPayInner env payer payments s = .ok (v, t)) :
    ∃ first firstInv u₁ u₂, payments.head? = some first ∧
      (s.entries first.invoiceId).load = some firstInv ∧
      forM payments (checkPoolPayment env (fundingTokenFor firstInv)) s = .ok ((), u₁) ∧
      collectPool env (fundingTokenFor firstInv) payer payments u₁ = .ok ((), u₂) ∧
      forM payments (creditPoolPayment env payer) u₂ = .ok (v, t) := by
  simp only [poolPayInner, orPanic_bind, loadInvoice_bind] at hrun
  obtain ⟨first, hfirst, firstInv, hload, hrun⟩ := hrun
  obtain ⟨_, u₁, hcheck, hrun⟩ := bind_ok.1 hrun
  obtain ⟨_, u₂, hcollect, hcredit⟩ := bind_ok.1 hrun
  exact ⟨first, firstInv, u₁, u₂, hfirst, hload, hcheck, hcollect, hcredit⟩

theorem executePaymentBatch_passes {batchId : ℕ}
    (hrun : executePaymentBatch env payer batchId s = .ok (v, t)) :
    ∃ batch u, s.batches batchId = some batch ∧ payer ≠ currentContract ∧ batch.payer = payer ∧
      batch.status = .open ∧ batch.items ≠ [] ∧
      setBatch batchId { batch with status := .executed } s = .ok ((), u) ∧
      poolPayInner env payer batch.items u = .ok (v, t) := by
  simp only [executePaymentBatch, requireFnNotPaused_bind, requireNotFrozen_bind, requireAuth_bind,
    get_bind, orPanic_bind, require_bind] at hrun
  obtain ⟨-, -, hauth, batch, hbatch, howner, hopen, hsome, hrun⟩ := hrun
  obtain ⟨_, u, hset, hinner⟩ := bind_ok.1 hrun
  exact ⟨batch, u, hbatch, hauth.2, howner, hopen, hsome, hset, hinner⟩

theorem creditChannel_passes (hrun : creditChannel env id inv payer amount s = .ok (v, t)) :
    inv.status = .pending ∧ ∃ u, creditShard id payer amount s = .ok ((), u) ∧
      settleCredit env id (inv.withFunded (inv.funded + amount)) conditionPending payer u = .ok (v, t) := by
  rw [creditChannel, require_bind] at hrun
  obtain ⟨hpending, hrun⟩ := hrun
  obtain ⟨_, u, hshard, hrun⟩ := bind_ok.1 hrun
  obtain ⟨funded, hsum, hsettle⟩ := orError_bind.1 hrun
  obtain rfl : funded = inv.funded + amount := checkedAddI128_eq hsum
  exact ⟨hpending, u, hshard, hsettle⟩

theorem closeChannel_passes (hrun : closeChannel env payer id s = .ok (v, t)) :
    ∃ channel inv u w, (s.entries id).channel payer = some channel ∧ (s.entries id).load = some inv ∧
      inv.disputed = false ∧ payer ≠ currentContract ∧
      ((0 < channel.deposited - channel.balance ∧
          creditChannel env id inv payer (channel.deposited - channel.balance) s = .ok ((), u)) ∨
        (channel.deposited - channel.balance ≤ 0 ∧ s = u)) ∧
      returnBalance env id inv payer channel.balance u = .ok ((), w) ∧
      setChannel id payer none w = .ok (v, t) := by
  simp only [closeChannel, requireNotPaused_bind, requireAuth_bind, getEntry_bind, orPanic_bind,
    loadInvoice_bind, require_bind] at hrun
  obtain ⟨-, hauth, channel, hchannel, inv, hload, hflag, hrun⟩ := hrun
  obtain ⟨_, u, hcredit, hrun⟩ := bind_ok.1 hrun
  obtain ⟨_, w, hreturn, hset⟩ := bind_ok.1 hrun
  refine ⟨channel, inv, u, w, hchannel, hload, hflag, hauth.2, ?_, hreturn, hset⟩
  rcases onlyIf_ok.1 hcredit with hcredit | ⟨hnothing, rfl⟩
  · exact .inl hcredit
  · exact .inr ⟨not_lt.1 hnothing, rfl⟩

theorem returnBalance_ok {balance : ℤ} (hrun : returnBalance env id inv payer balance s = .ok (v, t)) :
    (¬0 < balance ∧ s = t) ∨ 0 < balance ∧ ∃ token ∈ inv.tokens.head?, s.withLog
      (⟨token, currentContract, payer, balance, ⟨id, .channelReturn⟩⟩ :: s.log) = t := by
  rcases onlyIf_ok.1 hrun with ⟨hpositive, hrun⟩ | ⟨hzero, rfl⟩
  · obtain ⟨token, htoken, hrun⟩ := orPanic_bind.1 hrun
    exact .inr ⟨hpositive, token, htoken, (transfer_ok.1 hrun).2⟩
  · exact .inl ⟨hzero, rfl⟩

theorem revealConfidentialPayment_passes {blinding : Hash}
    (hrun : revealConfidentialPayment env id payer amount blinding s = .ok (v, t)) :
    ∃ inv u₁ u₂ u₃ u₄, (s.entries id).load = some inv ∧
      (inv.status = .pending ∧ inv.disputed = false ∧ env.now ≤ inv.deadline) ∧
      (inv.frozen = false ∧ inv.adminFrozen = false) ∧ setCommitment id payer none s = .ok ((), u₁) ∧
      collect env (fundingTokenFor inv) payer amount ⟨id, .payment⟩ u₁ = .ok ((), u₂) ∧
      addCumulative id amount u₂ = .ok ((), u₃) ∧ addContribution id payer amount u₃ = .ok ((), u₄) ∧
      settleCredit env id (inv.withFunded (inv.funded + amount)) conditionPending payer u₄ =
        .ok (v, t) := by
  simp only [revealConfidentialPayment, requireFnNotPaused_bind, requireNotFrozen_bind, requireAuth_bind,
    getEntry_bind, orPanic_bind, require_bind] at hrun
  obtain ⟨-, -, -, -, stored, -, digest, -, -, hrun⟩ := hrun
  obtain ⟨_, u₁, hset, hrun⟩ := bind_ok.1 hrun
  simp only [loadInvoice_bind, require_bind, checkNotFrozen_bind] at hrun
  obtain ⟨inv, hload, hpending, hflag, hunfrozen, hdeadline, hrun⟩ := hrun
  obtain ⟨_, u₂, hcollect, hrun⟩ := bind_ok.1 hrun
  obtain ⟨funded, hsum, hrun⟩ := orPanic_bind.1 hrun
  obtain ⟨_, u₃, hcumulative, hrun⟩ := bind_ok.1 hrun
  obtain ⟨_, u₄, hcontribution, hsettle⟩ := bind_ok.1 hrun
  obtain rfl : funded = inv.funded + amount := checkedAddI128_eq hsum
  have hsame : (u₁.entries id).load = (s.entries id).load := by
    obtain rfl := modifyEntry_ok.1 hset
    rw [Store.setEntry_self]
    rfl
  rw [hsame] at hload
  exact ⟨inv, u₁, u₂, u₃, u₄, hload, ⟨hpending, hflag, hdeadline⟩, hunfrozen, hset, hcollect,
    hcumulative, hcontribution, hsettle⟩

end Passes

/-! ## Compression -/

def tipsBy (payments : List Payment) (payer : Address) : ℤ :=
  ((payments.filter fun p => p.payer = payer).map Payment.tip).sum

/-- One payment for each payer, none of them donated on failure. -/
def compressedPayments (payments : List Payment) : List Payment :=
  (payersOf payments).map fun a =>
    { payer := a, amount := paidBy payments a, tip := tipsBy payments a }

def compressPayments (env : Env) (id : ℕ) : SplitM Unit := do
  requireNotPaused env
  let inv ← loadInvoice id
  require (((compressedPayments inv.payments).map Payment.amount).sum = inv.funded)
    (.panic "total funded changed after compression")
  modifyEntry id fun e => { e with
    shards := fun shard =>
      (compressedPayments inv.payments).filter fun p => computeShardId p.payer = shard }

end StellarSplit.Split
