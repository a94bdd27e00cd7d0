import Mathlib.Logic.Function.Basic
import StellarSplit.Escrow.Types

/-!
# The invoice escrow contract

The entry points of the escrow, one function for each, with the checks in
the order of the source. A trap undoes the whole call. Events and storage
lifetimes have no effect on any result and are left out.
-/

namespace StellarSplit.Escrow

open Exec Function Machine

def maxDeadlineHorizon : ℕ := 315360000
def appealWindowLedgers : ℕ := 360
def maxCosigners : ℕ := 20
def maxScheduleLedgers : ℕ := 6312000
def maxRefundGraceSecs : ℕ := 30 * 24 * 60 * 60

/-! ## Internal helpers -/

def requireAdmin (env : Env) : EscrowM Address := do
  let s ← get
  let admin ← orPanic s.admin "not initialized"
  requireAuth env.toLedger admin
  pure admin

/-- The check every admin entry point makes before `requireAdmin`. -/
def requireInitialized : EscrowM Unit := do
  let s ← get
  require (s.admin.isSome = true) (.error .notInitialized)

def validateDeadline (env : Env) (deadline : ℕ) : EscrowM Unit := do
  require (env.now < deadline) (.error .deadlinePassed)
  require (deadline ≤ satAddU64 env.now maxDeadlineHorizon) (.error .deadlineOutOfRange)

def getInvoice (id : ℕ) : EscrowM EscrowInvoice := do
  let s ← get
  orError (s.invoices id) .invoiceNotFound

def saveInvoice (id : ℕ) (inv : EscrowInvoice) : EscrowM Unit :=
  modify fun s => { s with invoices := update s.invoices id (some inv) }

def isOpen (inv : EscrowInvoice) : Bool := inv.status = .pending ∨ inv.status = .active

def getApproval (id : ℕ) : EscrowM (Option CosignerApproval) := do
  let s ← get
  pure (s.approvals id)

def saveApproval (id : ℕ) (a : CosignerApproval) : EscrowM Unit :=
  modify fun s => { s with approvals := update s.approvals id (some a) }

/-- The status the tallies call for. The subtraction traps below zero. -/
def recomputeApprovalStatus (a : CosignerApproval) : EscrowM CosignerApproval := do
  require (a.rejections.length ≤ a.signers.length) .overflow
  let remaining := a.signers.length - a.rejections.length
  let status : ApprovalStatus :=
    if a.threshold ≤ a.approvals.length then .approved
    else if remaining < a.threshold then .rejected
    else .pending
  pure { a with status := status }

/-- Query a single oracle and validate the returned price. -/
def readOracle (env : Env) (oracle asset : Address) (maxStalenessSecs : ℕ) :
    Except Error PriceData :=
  match env.lastprice oracle asset with
  | none => .error .oracleUnavailable
  | some data =>
      if data.price ≤ 0 ∨ env.now < data.timestamp then .error .oracleInvalidPrice
      else if maxStalenessSecs < env.now - data.timestamp then .error .oracleStalePrice
      else .ok data

def comparesTo (c : PriceComparator) (price threshold : ℤ) : Bool :=
  match c with
  | .greaterOrEqual => threshold ≤ price
  | .lessOrEqual => price ≤ threshold

/-- Evaluate a condition, falling back to the second oracle when the first has no
usable price. The error is that of the last oracle tried. -/
def evaluateOracleCondition (env : Env) (cond : OracleCondition) : Except Error OracleReading := do
  let (data, source) ←
    match readOracle env cond.oracle cond.asset cond.maxStalenessSecs with
    | .ok data => .ok (data, OracleSource.primary)
    | .error primaryErr =>
        match cond.fallbackOracle with
        | none => .error primaryErr
        | some fallback =>
            match readOracle env fallback cond.asset cond.maxStalenessSecs with
            | .ok data => .ok (data, OracleSource.fallback)
            | .error e => .error e
  .ok { price := data.price
        priceTimestamp := data.timestamp
        source := source
        conditionMet := comparesTo cond.comparator data.price cond.thresholdPrice
        checkedAt := env.now }

def checkSchedule (env : Env) (s : Store) (id : ℕ) : Except Error Unit :=
  match s.schedules id with
  | none => .ok ()
  | some schedule =>
      if schedule.status = .scheduled then
        if env.now < schedule.releaseAt then .error .releaseNotYetDue
        else if env.sequence < schedule.unlockLedger then .error .scheduleLedgerNotReached
        else .ok ()
      else .ok ()

def checkApproval (s : Store) (id : ℕ) : Except Error Unit :=
  match s.approvals id with
  | none => .ok ()
  | some approval =>
      match approval.status with
      | .approved => .ok ()
      | .pending => .error .approvalRequired
      | .rejected => .error .approvalRejected

/-- Check every release gate: schedule, co-signers, then the oracle condition. The
result is a value and not a trap, since `deposit` goes on after a closed gate; the
reading of the oracle is stored also when its condition is not met. -/
def checkReleaseGates (env : Env) (id : ℕ) : EscrowM (Except Error Unit) := do
  let s ← get
  match checkSchedule env s id with
  | .error e => pure (.error e)
  | .ok _ =>
    match checkApproval s id with
    | .error e => pure (.error e)
    | .ok _ =>
      match s.oracleConds id with
      | none => pure (.ok ())
      | some cond =>
        match evaluateOracleCondition env cond with
        | .error e => pure (.error e)
        | .ok reading => do
            modify fun s => { s with oracleReads := update s.oracleReads id (some reading) }
            pure (if reading.conditionMet then .ok () else .error .oracleConditionNotMet)

/-- A token transfer; it traps when the token contract refuses. -/
def transfer (env : Env) (t : Transfer Memo) : EscrowM Unit := do
  let s ← get
  require (env.accepts s.log t = true) .tokenRefused
  set { s with log := t :: s.log }

/-- Shared implementation of `approveRelease` and `rejectRelease`. -/
def castVote (env : Env) (signer : Address) (id : ℕ) (approve : Bool) :
    EscrowM ApprovalStatus := do
  requireAuth env.toLedger signer
  let invoice ← getInvoice id
  require (isOpen invoice = true) (.error .invalidStatus)
  let found ← getApproval id
  let approval ← orError found .noCosigners
  require (signer ∈ approval.signers) (.error .notCosigner)
  require (signer ∉ approval.approvals ∧ signer ∉ approval.rejections) (.error .alreadyVoted)
  let voted :=
    if approve then { approval with approvals := approval.approvals ++ [signer] }
    else { approval with rejections := approval.rejections ++ [signer] }
  let counted ← recomputeApprovalStatus voted
  saveApproval id { counted with updatedLedger := env.sequence }
  pure counted.status

def saveGrace (id : ℕ) (g : RefundGrace) : EscrowM Unit :=
  modify fun s => { s with graces := update s.graces id (some g) }

def saveSchedule (id : ℕ) (r : ReleaseSchedule) : EscrowM Unit :=
  modify fun s => { s with schedules := update s.schedules id (some r) }

/-- When refunds open: the deadline plus any grace that was not waived. -/
def refundOpensAt (inv : EscrowInvoice) (grace : Option RefundGrace) : ℕ :=
  match grace with
  | some g =>
      if g.waived then inv.deadline
      else satAddU64 (satAddU64 inv.deadline g.graceSecs) g.extensionSecs
  | none => inv.deadline

def graceStatus (env : Env) (inv : EscrowInvoice) (grace : Option RefundGrace) :
    RefundGraceStatus :=
  match grace with
  | none => .noGrace
  | some g =>
      if 0 < g.graceSecs ∨ 0 < g.extensionSecs ∨ g.waived = true then
        if g.waived then .waived
        else if env.now ≤ inv.deadline then .notStarted
        else if env.now ≤ refundOpensAt inv grace then .active
        else .elapsed
      else .noGrace

/-- The payment of the invoice to its creator. -/
def creatorPayment (id : ℕ) (inv : EscrowInvoice) : Transfer Memo :=
  ⟨inv.token, currentContract, inv.creator, inv.totalAmount, .release id⟩

/-- An active schedule ends with the release. -/
def markExecuted (id : ℕ) : EscrowM Unit := do
  let s ← get
  match s.schedules id with
  | some r =>
      if r.status = .scheduled then saveSchedule id { r with status := .executed } else pure ()
  | none => pure ()

/-- Mark the invoice released and transfer `totalAmount` to the creator. -/
def executeRelease (env : Env) (id : ℕ) (inv : EscrowInvoice) : EscrowM (Address × ℤ) := do
  saveInvoice id { inv with status := .released }
  transfer env (creatorPayment id inv)
  markExecuted id
  pure (inv.creator, inv.totalAmount)

/-! ## What the helpers do when they return -/

section Helpers

variable {env : Env} {s t : Store} {id : ℕ} {v : Unit}

@[simp] theorem requireInitialized_ok :
    requireInitialized s = .ok (v, t) ↔ s.admin.isSome = true ∧ s = t := by
  simp [requireInitialized, and_comm]

@[simp] theorem requireAdmin_ok {a : Address} :
    requireAdmin env s = .ok (a, t) ↔
      s.admin = some a ∧ (env.auth a = true ∧ a ≠ currentContract) ∧ s = t := by
  simp [requireAdmin]

@[simp] theorem getInvoice_ok {inv : EscrowInvoice} :
    getInvoice id s = .ok (inv, t) ↔ s.invoices id = some inv ∧ s = t := by
  simp [getInvoice, and_comm]

@[simp] theorem saveInvoice_ok {inv : EscrowInvoice} :
    saveInvoice id inv s = .ok (v, t) ↔
      { s with invoices := update s.invoices id (some inv) } = t := by
  simp [saveInvoice]

@[simp] theorem getApproval_ok {o : Option CosignerApproval} :
    getApproval id s = .ok (o, t) ↔ s.approvals id = o ∧ s = t := by
  simp [getApproval, and_comm]

@[simp] theorem saveApproval_ok {a : CosignerApproval} :
    saveApproval id a s = .ok (v, t) ↔
      { s with approvals := update s.approvals id (some a) } = t := by
  simp [saveApproval]

@[simp] theorem saveGrace_ok {g : RefundGrace} :
    saveGrace id g s = .ok (v, t) ↔ { s with graces := update s.graces id (some g) } = t := by
  simp [saveGrace]

@[simp] theorem saveSchedule_ok {r : ReleaseSchedule} :
    saveSchedule id r s = .ok (v, t) ↔
      { s with schedules := update s.schedules id (some r) } = t := by
  simp [saveSchedule]

@[simp] theorem transfer_ok {tr : Transfer Memo} :
    transfer env tr s = .ok (v, t) ↔
      env.accepts s.log tr = true ∧ { s with log := tr :: s.log } = t := by
  simp [transfer]

end Helpers

/-! ## Lifecycle and admin handover -/

def initializeEscrow (env : Env) (admin : Address) : EscrowM Unit := do
  let s ← get
  require (s.admin.isSome = false) (.error .alreadyInitialized)
  requireAuth env.toLedger admin
  set { s with admin := some admin, counter := some 0 }

def transferAdmin (env : Env) (newAdmin : Address) : EscrowM Unit := do
  requireInitialized
  let _ ← requireAdmin env
  modify fun s => { s with pendingAdmin := some newAdmin }

def acceptAdmin (env : Env) : EscrowM Unit := do
  let s ← get
  let pending ← orError s.pendingAdmin .noPendingAdmin
  requireAuth env.toLedger pending
  set { s with admin := some pending, pendingAdmin := none }

def cancelTransfer (env : Env) : EscrowM Unit := do
  requireInitialized
  let _ ← requireAdmin env
  let s ← get
  let _ ← orError s.pendingAdmin .noPendingAdmin
  set { s with pendingAdmin := none }

/-! ## Invoices -/

/-- The default grace is copied, so a later default does not change this invoice. -/
def copyDefaultGrace (id : ℕ) : EscrowM Unit := do
  let s ← get
  let defaultGrace := s.defaultGrace.getD 0
  if 0 < defaultGrace then
    saveGrace id { graceSecs := defaultGrace, extensionSecs := 0, waived := false }
  else pure ()

def createInvoice (env : Env) (creator token : Address) (totalAmount : ℤ) (deadline : ℕ) :
    EscrowM ℕ := do
  requireInitialized
  require (0 < totalAmount) (.error .invalidTotalAmount)
  validateDeadline env deadline
  requireAuth env.toLedger creator
  let s ← get
  let id := s.counter.getD 0
  let nextId ← orPanic (checkedAddU64 id 1) "invoice counter overflow"
  set { s with counter := some nextId }
  saveInvoice id
    { creator := creator
      token := token
      totalAmount := totalAmount
      fundedAmount := 0
      deadline := deadline
      status := .pending
      refundReason := none }
  copyDefaultGrace id
  pure id

def isBanned (entry : Option BlacklistEntry) : Bool :=
  match entry with
  | some e => e.finalised && e.upheld
  | none => false

/-- The end of `deposit`: release a full invoice whose gates are open, else keep it active. -/
def releaseOrSave (env : Env) (id : ℕ) (invoice : EscrowInvoice) : EscrowM Unit := do
  if invoice.totalAmount ≤ invoice.fundedAmount then
    let gates ← checkReleaseGates env id
    match gates with
    | .ok _ => ignore <| executeRelease env id invoice
    | .error _ => saveInvoice id invoice
  else
    saveInvoice id invoice

def deposit (env : Env) (payer : Address) (id : ℕ) (amount : ℤ) : EscrowM Unit := do
  require (0 < amount) (.error .invalidAmount)
  requireAuth env.toLedger payer
  let s ← get
  require (isBanned (s.blacklist payer) = false) (.error .payerBlacklisted)
  let invoice ← getInvoice id
  require (invoice.status = .pending ∨ invoice.status = .active) (.error .invalidStatus)
  require (env.now ≤ invoice.deadline) (.error .deadlinePassed)
  let newFunded := invoice.fundedAmount + amount
  require (InI128 newFunded) (.panic "funded_amount overflow")
  require (newFunded ≤ invoice.totalAmount) (.error .overFunded)
  transfer env ⟨invoice.token, payer, currentContract, amount, .deposit id⟩
  let prev := (s.deposits id).value payer
  require (InI128 (prev + amount)) .overflow
  modify fun s => { s with deposits := update s.deposits id ((s.deposits id).set payer (prev + amount)) }
  releaseOrSave env id { invoice with fundedAmount := newFunded, status := .active }

def payInvoice (env : Env) (payer : Address) (id : ℕ) (amount : ℤ) : EscrowM Unit :=
  deposit env payer id amount

/-- The status check `release`, `refund` and `cancelInvoice` share. -/
def requireUnsettled (inv : EscrowInvoice) : EscrowM Unit :=
  require (¬(inv.status = .released ∨ inv.status = .refunded ∨ inv.status = .cancelled))
    (.error .invalidStatus)

def release (env : Env) (id : ℕ) : EscrowM Unit := do
  let invoice ← getInvoice id
  requireUnsettled invoice
  require (invoice.totalAmount ≤ invoice.fundedAmount) (.error .insufficientFunding)
  let gates ← checkReleaseGates env id
  match gates with
  | .error e => throw (.error e)
  | .ok _ => ignore <| executeRelease env id invoice

/-- Return one payer's recorded deposit, if there is one. -/
def refundPayer (env : Env) (id : ℕ) (token payer : Address) : EscrowM Unit := do
  let s ← get
  let amount := (s.deposits id).value payer
  if 0 < amount then do
    set { s with deposits := update s.deposits id ((s.deposits id).erase payer) }
    transfer env ⟨token, currentContract, payer, amount, .refund id⟩

def refund (env : Env) (id : ℕ) (payers : List Address) (reason : RefundReason) : EscrowM Unit := do
  let invoice ← getInvoice id
  requireUnsettled invoice
  require (invoice.deadline < env.now) (.error .deadlineNotPassed)
  let s ← get
  require (refundOpensAt invoice (s.graces id) < env.now) (.error .refundGraceActive)
  forM payers (refundPayer env id invoice.token)
  saveInvoice id { invoice with status := .refunded, refundReason := some reason }

def cancelInvoice (env : Env) (id : ℕ) : EscrowM Unit := do
  requireInitialized
  let _ ← requireAdmin env
  let invoice ← getInvoice id
  requireUnsettled invoice
  saveInvoice id { invoice with status := .cancelled }

/-! ## Co-signer approval -/

def requireNoVotes (id : ℕ) : EscrowM Unit := do
  let found ← getApproval id
  match found with
  | some existing =>
      require (existing.approvals.isEmpty ∧ existing.rejections.isEmpty) (.error .cosignersLocked)
  | none => pure ()

def setCosigners (env : Env) (id : ℕ) (signers : List Address) (threshold : ℕ) : EscrowM Unit := do
  let invoice ← getInvoice id
  requireAuth env.toLedger invoice.creator
  require (isOpen invoice = true) (.error .invalidStatus)
  let count := signers.length
  require (count ≠ 0 ∧ count ≤ maxCosigners ∧ threshold ≠ 0 ∧ threshold ≤ count)
    (.error .invalidCosignerConfig)
  require signers.Nodup (.error .invalidCosignerConfig)
  requireNoVotes id
  saveApproval id
    { signers := signers
      threshold := threshold
      approvals := []
      rejections := []
      status := .pending
      updatedLedger := env.sequence }

def approveRelease (env : Env) (signer : Address) (id : ℕ) : EscrowM ApprovalStatus :=
  castVote env signer id true

def rejectRelease (env : Env) (signer : Address) (id : ℕ) : EscrowM ApprovalStatus :=
  castVote env signer id false

def revokeVote (env : Env) (signer : Address) (id : ℕ) : EscrowM ApprovalStatus := do
  requireAuth env.toLedger signer
  let invoice ← getInvoice id
  require (isOpen invoice = true) (.error .invalidStatus)
  let found ← getApproval id
  let approval ← orError found .noCosigners
  require (signer ∈ approval.signers) (.error .notCosigner)
  require (signer ∈ approval.approvals ∨ signer ∈ approval.rejections) (.error .notVoted)
  -- an approval is looked for first, and the first occurrence is removed
  let revoked :=
    if signer ∈ approval.approvals then
      { approval with approvals := approval.approvals.erase signer }
    else { approval with rejections := approval.rejections.erase signer }
  let counted ← recomputeApprovalStatus revoked
  saveApproval id { counted with updatedLedger := env.sequence }
  pure counted.status

/-! ## Oracle condition -/

def setOracleCondition (env : Env) (id : ℕ) (condition : OracleCondition) : EscrowM Unit := do
  let invoice ← getInvoice id
  requireAuth env.toLedger invoice.creator
  require (invoice.status = .pending) (.error .invalidStatus)
  require (0 < condition.thresholdPrice ∧ condition.maxStalenessSecs ≠ 0 ∧
    condition.fallbackOracle ≠ some condition.oracle) (.error .invalidOracleConfig)
  modify fun s => { s with oracleConds := update s.oracleConds id (some condition) }

def clearOracleCondition (env : Env) (id : ℕ) : EscrowM Unit := do
  requireInitialized
  let _ ← requireAdmin env
  let invoice ← getInvoice id
  require (isOpen invoice = true) (.error .invalidStatus)
  let s ← get
  require ((s.oracleConds id).isSome = true) (.error .noOracleCondition)
  set { s with
    oracleConds := update s.oracleConds id none
    oracleReads := update s.oracleReads id none }

/-! ## Scheduled release -/

def scheduleRelease (env : Env) (id releaseAt minLedgers : ℕ) : EscrowM ReleaseSchedule := do
  let invoice ← getInvoice id
  requireAuth env.toLedger invoice.creator
  require (isOpen invoice = true) (.error .invalidStatus)
  require (env.now < releaseAt ∧ minLedgers ≤ maxScheduleLedgers) (.error .invalidSchedule)
  let unlockLedger ← orError (checkedAddU32 env.sequence minLedgers) .invalidSchedule
  let schedule : ReleaseSchedule :=
    { releaseAt := releaseAt
      unlockLedger := unlockLedger
      scheduledAt := env.now
      scheduledLedger := env.sequence
      status := .scheduled }
  saveSchedule id schedule
  pure schedule

def cancelReleaseSchedule (env : Env) (id : ℕ) : EscrowM Unit := do
  let invoice ← getInvoice id
  requireAuth env.toLedger invoice.creator
  require (isOpen invoice = true) (.error .invalidStatus)
  let s ← get
  let schedule ← orError ((s.schedules id).filter fun r => r.status = .scheduled) .scheduleNotFound
  saveSchedule id { schedule with status := .cancelled }

/-! ## Refund grace period -/

def setDefaultRefundGrace (env : Env) (graceSecs : ℕ) : EscrowM Unit := do
  requireInitialized
  let _ ← requireAdmin env
  require (graceSecs ≤ maxRefundGraceSecs) (.error .invalidGracePeriod)
  modify fun s => { s with defaultGrace := some graceSecs }

def setRefundGrace (env : Env) (id graceSecs : ℕ) : EscrowM Unit := do
  let invoice ← getInvoice id
  requireAuth env.toLedger invoice.creator
  require (invoice.status = .pending) (.error .invalidStatus)
  require (graceSecs ≤ maxRefundGraceSecs) (.error .invalidGracePeriod)
  saveGrace id { graceSecs := graceSecs, extensionSecs := 0, waived := false }

/-- An extension needs a grace that has not ended, or a deadline still ahead. -/
def requireGraceNotOver (env : Env) (inv : EscrowInvoice) (grace : Option RefundGrace) :
    EscrowM Unit :=
  match graceStatus env inv grace with
  | .elapsed | .waived => throw (.error .refundGraceElapsed)
  | .noGrace => require (env.now ≤ inv.deadline) (.error .refundGraceElapsed)
  | .notStarted | .active => pure ()

/-- A waiver needs a grace that is still to run. -/
def requireGraceToWaive (env : Env) (inv : EscrowInvoice) (grace : Option RefundGrace) :
    EscrowM Unit :=
  match graceStatus env inv grace with
  | .notStarted | .active => pure ()
  | .noGrace | .elapsed | .waived => throw (.error .refundGraceElapsed)

def extendRefundGrace (env : Env) (id extraSecs : ℕ) : EscrowM Unit := do
  requireInitialized
  let _ ← requireAdmin env
  let invoice ← getInvoice id
  require (isOpen invoice = true) (.error .invalidStatus)
  let s ← get
  let current := s.graces id
  requireGraceNotOver env invoice current
  let grace := current.getD { graceSecs := 0, extensionSecs := 0, waived := false }
  let total ← orError
    ((checkedAddU64 grace.graceSecs grace.extensionSecs).bind (checkedAddU64 · extraSecs))
    .invalidGracePeriod
  require (extraSecs ≠ 0 ∧ total ≤ maxRefundGraceSecs) (.error .invalidGracePeriod)
  saveGrace id { grace with extensionSecs := grace.extensionSecs + extraSecs }

def waiveRefundGrace (env : Env) (id : ℕ) : EscrowM Unit := do
  requireInitialized
  let _ ← requireAdmin env
  let invoice ← getInvoice id
  require (isOpen invoice = true) (.error .invalidStatus)
  let s ← get
  let current := s.graces id
  requireGraceToWaive env invoice current
  let grace ← orPanic current "called `Option::unwrap()` on a `None` value"
  saveGrace id { grace with waived := true }

/-! ## Payer blacklist -/

/-- The admin check of the blacklist entry points, which take the admin as an argument. -/
def requireNamedAdmin (env : Env) (admin : Address) : EscrowM Unit := do
  requireInitialized
  let s ← get
  require (s.admin = some admin) (.error .notAdmin)
  requireAuth env.toLedger admin

def blacklistPayer (env : Env) (admin payer : Address) (reasonHash : Hash) : EscrowM Unit := do
  requireNamedAdmin env admin
  modify fun s => { s with
    blacklist := update s.blacklist payer
      (some { bannedAt := env.now
              appealHash := none
              finalised := false
              upheld := false
              reasonHash := reasonHash }) }

def submitAppeal (env : Env) (payer : Address) (_invoiceId : ℕ) (appealHash : Hash) : EscrowM Unit := do
  requireAuth env.toLedger payer
  let s ← get
  let entry ← orError (s.blacklist payer) .notBlacklisted
  require (entry.finalised = false) (.error .alreadyFinalised)
  let appealDeadline := satAddU64 entry.bannedAt (appealWindowLedgers * 5)
  require (env.now ≤ appealDeadline) (.error .appealWindowExpired)
  set { s with
    blacklist := update s.blacklist payer (some { entry with appealHash := some appealHash }) }

def finaliseBlacklist (env : Env) (admin payer : Address) (uphold : Bool) : EscrowM Unit := do
  requireNamedAdmin env admin
  let s ← get
  let entry ← orError (s.blacklist payer) .notBlacklisted
  require (entry.finalised = false) (.error .alreadyFinalised)
  if uphold then
    set { s with
      blacklist := update s.blacklist payer (some { entry with finalised := true, upheld := true }) }
  else
    set { s with blacklist := update s.blacklist payer none }

/-! ## Views -/

def getEscrowBalance (s : Store) (id : ℕ) : ℤ :=
  ((s.invoices id).map EscrowInvoice.fundedAmount).getD 0

def getRefundGraceStatus (env : Env) (s : Store) (id : ℕ) : Except Error RefundGraceStatus :=
  match s.invoices id with
  | some invoice => .ok (graceStatus env invoice (s.graces id))
  | none => .error .invoiceNotFound

def refundAvailableAfter (s : Store) (id : ℕ) : Except Error ℕ :=
  match s.invoices id with
  | some invoice => .ok (refundOpensAt invoice (s.graces id))
  | none => .error .invoiceNotFound

/-! ## Calls -/

/-- A call of one of the entry points that change storage. -/
inductive Op where
  | initializeEscrow (admin : Address)
  | transferAdmin (newAdmin : Address)
  | acceptAdmin
  | cancelTransfer
  | createInvoice (creator token : Address) (totalAmount : ℤ) (deadline : ℕ)
  | deposit (payer : Address) (id : ℕ) (amount : ℤ)
  | payInvoice (payer : Address) (id : ℕ) (amount : ℤ)
  | release (id : ℕ)
  | refund (id : ℕ) (payers : List Address) (reason : RefundReason)
  | cancelInvoice (id : ℕ)
  | setCosigners (id : ℕ) (signers : List Address) (threshold : ℕ)
  | approveRelease (signer : Address) (id : ℕ)
  | rejectRelease (signer : Address) (id : ℕ)
  | revokeVote (signer : Address) (id : ℕ)
  | setOracleCondition (id : ℕ) (condition : OracleCondition)
  | clearOracleCondition (id : ℕ)
  | scheduleRelease (id releaseAt minLedgers : ℕ)
  | cancelReleaseSchedule (id : ℕ)
  | setDefaultRefundGrace (graceSecs : ℕ)
  | setRefundGrace (id graceSecs : ℕ)
  | extendRefundGrace (id extraSecs : ℕ)
  | waiveRefundGrace (id : ℕ)
  | blacklistPayer (admin payer : Address) (reasonHash : Hash)
  | submitAppeal (payer : Address) (invoiceId : ℕ) (appealHash : Hash)
  | finaliseBlacklist (admin payer : Address) (uphold : Bool)

def step (c : Env × Op) : EscrowM Unit :=
  let env := c.1
  match c.2 with
  | .initializeEscrow admin => initializeEscrow env admin
  | .transferAdmin newAdmin => transferAdmin env newAdmin
  | .acceptAdmin => acceptAdmin env
  | .cancelTransfer => cancelTransfer env
  | .createInvoice creator token totalAmount deadline =>
      ignore <| createInvoice env creator token totalAmount deadline
  | .deposit payer id amount => deposit env payer id amount
  | .payInvoice payer id amount => payInvoice env payer id amount
  | .release id => release env id
  | .refund id payers reason => refund env id payers reason
  | .cancelInvoice id => cancelInvoice env id
  | .setCosigners id signers threshold => setCosigners env id signers threshold
  | .approveRelease signer id => ignore <| approveRelease env signer id
  | .rejectRelease signer id => ignore <| rejectRelease env signer id
  | .revokeVote signer id => ignore <| revokeVote env signer id
  | .setOracleCondition id condition => setOracleCondition env id condition
  | .clearOracleCondition id => clearOracleCondition env id
  | .scheduleRelease id releaseAt minLedgers => ignore <| scheduleRelease env id releaseAt minLedgers
  | .cancelReleaseSchedule id => cancelReleaseSchedule env id
  | .setDefaultRefundGrace graceSecs => setDefaultRefundGrace env graceSecs
  | .setRefundGrace id graceSecs => setRefundGrace env id graceSecs
  | .extendRefundGrace id extraSecs => extendRefundGrace env id extraSecs
  | .waiveRefundGrace id => waiveRefundGrace env id
  | .blacklistPayer admin payer reasonHash => blacklistPayer env admin payer reasonHash
  | .submitAppeal payer invoiceId appealHash => submitAppeal env payer invoiceId appealHash
  | .finaliseBlacklist admin payer uphold => finaliseBlacklist env admin payer uphold

/-- The storage after a list of calls on a newly deployed contract. -/
def reach (calls : List (Env × Op)) : Store := runAll step .fresh calls

end StellarSplit.Escrow
