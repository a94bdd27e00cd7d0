import Mathlib.Data.List.Dedup
import Mathlib.Data.List.Sort
import StellarSplit.Split.Release

/-!
# Refunds, cancellation and auctions

The paths that give payers their money back. Most of them add up the
recorded payments by payer and send each payer the total; the withdrawal of
a contribution reads the contribution record instead. `release_invoice`,
`refund` and `cancel_invoice` set the reentrancy lock at their top and remove
it at their bottom.
-/

namespace StellarSplit.Split

open Exec Function Machine

/-! ## The reentrancy lock -/

def Store.withLock (s : Store) (locked : Bool) : Store := { s with reLock := locked }

@[simp] theorem Store.withLock_reLock (s : Store) (b : Bool) : (s.withLock b).reLock = b := rfl

@[simp] theorem Store.withLock_entries (s : Store) (b : Bool) :
    (s.withLock b).entries = s.entries := rfl

@[simp] theorem Store.withLock_log (s : Store) (b : Bool) : (s.withLock b).log = s.log := rfl

@[simp] theorem Store.withLock_stats (s : Store) (b : Bool) : (s.withLock b).stats = s.stats := rfl

def acquireLock : SplitM Unit := do
  let s ← get
  require (s.reLock = false) (.error .reentrantCall)
  set (s.withLock true)

def removeLock : SplitM Unit := modify fun s => s.withLock false

def releaseInvoice (env : Env) (id : ℕ) (preimage : Option (List ℕ)) : SplitM Unit := do
  acquireLock
  releaseInvoiceInner env id preimage
  removeLock

def release (env : Env) (id : ℕ) : SplitM Unit := releaseInvoice env id none

/-! ## Payments added up by payer -/

/-- The payments of one payer. -/
def paidBy (payments : List Payment) (payer : Address) : ℤ :=
  ((payments.filter fun p => p.payer = payer).map Payment.amount).sum

/-- The payers in the order a map iterates over them. -/
def payersOf (payments : List Payment) : List Address :=
  (payments.map Payment.payer).dedup.insertionSort (· ≤ ·)

/-- The map from payers to the sums of their payments. -/
def totalsOf (payments : List Payment) : List (Address × ℤ) :=
  (payersOf payments).map fun a => (a, paidBy payments a)

def sumOf (totals : List (Address × ℤ)) : ℤ := (totals.map Prod.snd).sum

def aggregateShardPayments (id : ℕ) : SplitM (List (Address × ℤ)) := do
  let e ← getEntry id
  pure (totalsOf e.payments)

/-- Send every payer the total. -/
def refundTotals (env : Env) (id : ℕ) (token : Address) (totals : List (Address × ℤ)) :
    SplitM Unit :=
  forM totals fun p => transfer env token p.1 p.2 ⟨id, .refund⟩

/-- Send every payer a total that is positive. -/
def refundPositive (env : Env) (id : ℕ) (token : Address) (totals : List (Address × ℤ)) :
    SplitM Unit :=
  forM totals fun p => transferPositive env token p.1 p.2 ⟨id, .refund⟩

/-- Give the bonus pool back to the creator. -/
def returnBonus (env : Env) (id : ℕ) (inv : Invoice) (token : Address) : SplitM Unit :=
  transferPositive env token inv.creator inv.bonusPool ⟨id, .bonus⟩

def addTotalRefunded (amount : ℤ) : SplitM Unit := do
  let s ← get
  let total ← orPanic (checkedAddI128 s.stats.totalRefunded amount) "total_refunded overflow"
  modifyStats fun st => { st with totalRefunded := total }

/-! ## Refund after expiry -/

def refundDeadline (inv : Invoice) : ℕ :=
  match inv.refundGraceSecs with
  | some graceSecs => satAddU64 inv.deadline graceSecs
  | none => inv.deadline

def notifyExpired (env : Env) (id : ℕ) : SplitM Unit := do
  requireNotPaused env
  let inv ← loadInvoice id
  require (inv.status = .pending) (.panic "InvalidStatus")
  require (inv.deadline ≤ env.now) (.panic "NotExpired")
  saveInvoice env id (inv.withStatus .expired)

/-- The payments that go back to their payers, and those donated on failure. -/
def keptPayments (payments : List Payment) : List Payment :=
  payments.filter fun p => !p.donateOnFailure

def donatedPayments (payments : List Payment) : List Payment :=
  payments.filter fun p => p.donateOnFailure

/-- What the totals that are positive sum to. -/
def positiveSum (totals : List (Address × ℤ)) : ℤ :=
  sumOf (totals.filter fun p => 0 < p.2)

def countRefunded (creator : Address) : SplitM Unit := do
  let s ← get
  let count ← orPanic (checkedAddU64 (s.stats.statsRefunded creator) 1) "creator_refunded overflow"
  modifyStats fun st => { st with statsRefunded := update st.statsRefunded creator count }

/-- The part of `refund` that pays everyone back. -/
def refundPayers (env : Env) (id : ℕ) (inv : Invoice) : SplitM Unit := do
  let token ← orPanic inv.tokens.head? "no token"
  let e ← getEntry id
  refundPositive env id token (totalsOf (keptPayments e.payments))
  transferPositive env token inv.creator
    (inv.bonusPool + sumOf (totalsOf (donatedPayments e.payments))) ⟨id, .donation⟩
  saveInvoice env id (inv.completed .refunded env.now)
  notifyInvoice env inv
  maybeRecordRefunded env
  addTotalRefunded (positiveSum (totalsOf (keptPayments e.payments)))
  countRefunded inv.creator

/-- A pending invoice after its deadline counts as expired. -/
def lazilyExpired (env : Env) (inv : Invoice) : Invoice :=
  if inv.status = .pending ∧ inv.deadline ≤ env.now then inv.withStatus .expired else inv

/-- The auction branch of `refund`; the first call starts the auction. -/
def startAuction (env : Env) (id : ℕ) (inv : Invoice) : SplitM Unit :=
  if inv.auctionEnd = 0 then
    saveInvoice env id (inv.withAuctionEnd (satAddU64 env.now 86400))
  else do
    require (inv.auctionEnd < env.now) (.panic "auction in progress")
    throw (.panic "auction ended; settle auction")

def refund (env : Env) (id : ℕ) : SplitM Unit := do
  acquireLock
  requireFnNotPaused env "refund"
  let inv ← loadInvoice id
  require (inv.status = .pending → refundDeadline inv < env.now) (.panic "InvalidStatus")
  require ((lazilyExpired env inv).status = .expired) (.panic "InvalidStatus")
  if inv.auctionOnExpiry = true then
    -- the early return of the source: the lock stays
    startAuction env id (lazilyExpired env inv)
  else do
    refundPayers env id (lazilyExpired env inv)
    removeLock

/-! ## Auctions -/

/-- The highest bid so far, at least zero. -/
def highestBid (bids : List Bid) : ℤ := bids.foldl (fun m b => if m < b.amount then b.amount else m) 0

def placeBid (env : Env) (bidder : Address) (id : ℕ) (amount : ℤ) : SplitM Unit := do
  requireNotPaused env
  requireAuth env.toLedger bidder
  let inv ← loadInvoice id
  require (inv.auctionOnExpiry = true) (.panic "auction not enabled")
  require (0 < inv.auctionEnd) (.panic "auction not started")
  require (env.now ≤ inv.auctionEnd) (.panic "auction not active")
  require (0 < amount) (.panic "bid amount must be positive")
  require (highestBid inv.bids < amount) (.panic "bid must be higher than current highest bid")
  let token ← orPanic inv.tokens.head? "no token"
  collect env token bidder amount ⟨id, .bid⟩
  saveInvoice env id (inv.withBid ⟨bidder, amount⟩)

/-- The index and the amount of the first highest bid. -/
def winningBid (bids : List Bid) : Option (ℕ × Bid) :=
  bids.zipIdx.foldl (fun best bi =>
    match best with
    | none => some (bi.2, bi.1)
    | some w => if w.2.amount < bi.1.amount then some (bi.2, bi.1) else some w) none

/-- Return all bids but the winning one. -/
def returnBids (env : Env) (id : ℕ) (token : Address) (bids : List Bid) (winner : ℕ) :
    SplitM Unit :=
  forM (bids.zipIdx.filter fun bi => bi.2 ≠ winner) fun bi =>
    transfer env token bi.1.bidder bi.1.amount ⟨id, .bidReturn⟩

/-- The settlement of an auction with a winner. -/
def payWinner (env : Env) (id : ℕ) (inv : Invoice) (token : Address) (winner : ℕ × Bid) :
    SplitM Unit := do
  transfer env token winner.2.bidder inv.funded ⟨id, .auctionPayout⟩
  returnBids env id token inv.bids winner.1
  saveInvoice env id (inv.completed .refunded env.now)

/-- The settlement of an auction without bids: the payers get their money back. -/
def closeWithoutBids (env : Env) (id : ℕ) (inv : Invoice) (token : Address) : SplitM Unit := do
  let totals ← aggregateShardPayments id
  refundTotals env id token totals
  returnBonus env id inv token
  saveInvoice env id (inv.completed .refunded env.now)
  addTotalRefunded (sumOf totals)

/-- Pay the winner, or refund the payers when there are no bids. -/
def closeAuction (env : Env) (id : ℕ) (inv : Invoice) (token : Address) : SplitM Unit :=
  match winningBid inv.bids with
  | some winner => payWinner env id inv token winner
  | none => closeWithoutBids env id inv token

def settleAuction (env : Env) (id : ℕ) : SplitM Unit := do
  requireNotPaused env
  let inv ← loadInvoice id
  require (inv.auctionOnExpiry = true) (.panic "auction not enabled")
  require (0 < inv.auctionEnd) (.panic "auction not started")
  require (inv.auctionEnd < env.now) (.panic "auction not ended")
  require (inv.status = .pending) (.panic "invoice is not pending")
  let token ← orPanic inv.tokens.head? "no token"
  closeAuction env id inv token

/-! ## Cancellation -/

/-- Who may cancel: creator and cosigner together, or the creator or a co-creator. -/
def authorizeCancel (env : Env) (inv : Invoice) (caller : Address) : SplitM Unit :=
  match inv.creatorCosigner with
  | some cosigner => do
      requireAuth env.toLedger inv.creator
      requireAuth env.toLedger cosigner
  | none =>
      require (inv.creator = caller ∨ caller ∈ inv.coCreators)
        (.panic "NotAuthorized: caller is not the creator or a co-creator")

/-- The cancellation rate limit of the caller. -/
def checkCancelRate (env : Env) (caller : Address) : SplitM Unit :=
  onlyIf (0 < env.config.maxCancelBps) do
    let s ← get
    require (s.stats.cancelCount caller * 10000 ≤ u64Max) .overflow
    require (s.stats.invoiceCount caller ≠ 0 →
        s.stats.cancelCount caller * 10000 / s.stats.invoiceCount caller < env.config.maxCancelBps)
      (.panic "cancellation rate too high")

/-- A payer's refund with the proportional part of the insurance fund. -/
def refundWithPremium (inv : Invoice) (amount : ℤ) : Result ℤ :=
  if 0 < inv.insuranceFund then do
    let premium ← plainMulDiv (asU128 amount) (asU128 inv.insuranceFund) (asU128 inv.funded)
    .ok (amount + premium)
  else .ok amount

/-- Refund one payer of a cancelled invoice. -/
def refundCancelled (env : Env) (id : ℕ) (inv : Invoice) (token : Address) (p : Address × ℤ) :
    SplitM Unit := do
  let amount ← ofResult (refundWithPremium inv p.2)
  transfer env token p.1 amount ⟨id, .refund⟩

/-- Refund the payers of a cancelled invoice. -/
def cancelFunded (env : Env) (id : ℕ) (inv : Invoice) : SplitM Unit := do
  let token ← orPanic inv.tokens.head? "no token"
  let totals ← aggregateShardPayments id
  forM totals (refundCancelled env id inv token)
  returnBonus env id inv token
  maybeRecordRefunded env
  addTotalRefunded (sumOf totals)

/-- Close a cancelled invoice without payments. -/
def cancelUnfunded (env : Env) (id : ℕ) (inv : Invoice) : SplitM Unit :=
  onlyIf (0 < inv.bonusPool) do
    let token ← orPanic inv.tokens.head? "no token"
    returnBonus env id inv token

/-- Give back what a cancelled invoice holds. -/
def cancelRefunds (env : Env) (id : ℕ) (inv : Invoice) : SplitM Unit :=
  if 0 < inv.funded then cancelFunded env id inv else cancelUnfunded env id inv

/-- The invoice a cancellation leaves. -/
def cancelled (inv : Invoice) : Invoice :=
  if 0 < inv.funded then inv.insurancePaid.withStatus .refunded else inv.withStatus .cancelled

/-- The counters a cancellation changes. -/
def countCancel (env : Env) (creator caller : Address) : SplitM Unit :=
  modifyStats fun st => { st with
    openInvoices := update st.openInvoices creator (st.openInvoices creator - 1)
    cancelCount := update st.cancelCount caller (st.cancelCount caller + 1)
    cooldownUntil :=
      if 0 < env.config.cancellationCooldown then
        update st.cooldownUntil creator (satAddU64 env.sequence env.config.cancellationCooldown)
      else st.cooldownUntil }

def cancelInvoice (env : Env) (caller : Address) (id : ℕ) : SplitM Unit := do
  acquireLock
  requireNotPaused env
  requireAuth env.toLedger caller
  let inv ← loadInvoice id
  require (inv.status ≠ .deleted) (.panic "InvoiceDeleted")
  require (inv.status = .pending) (.panic "invoice is not pending")
  require (inv.disputed = false) (.panic "invoice is disputed")
  authorizeCancel env inv caller
  checkCancelRate env caller
  cancelRefunds env id inv
  saveInvoice env id (cancelled inv)
  countCancel env inv.creator caller
  removeLock

/-! ## Refunds of a pending invoice -/

def fundingBps (funded total : ℤ) : ℕ :=
  if total ≤ 0 ∨ funded ≤ 0 then 0
  else if total ≤ funded then 10000
  else if funded * 10000 ≤ i128Max then min (funded * 10000 / total).toNat 10000
  else min (funded / max (total / 10000) 1).toNat 10000

/-- The refund action of `auto_resolve`. -/
def resolveByRefund (env : Env) (id : ℕ) (inv : Invoice) : SplitM Unit := do
  let token ← orPanic inv.tokens.head? "no token"
  refundTotals env id token (totalsOf inv.payments)
  saveInvoice env id (inv.completed .refunded env.now)
  maybeRecordRefunded env
  notifyInvoice env inv
  addTotalRefunded (sumOf (totalsOf inv.payments))

/-- The first rule the funding reaches. -/
def matchingRule (inv : Invoice) : Option ResolveRule :=
  inv.autoResolveRules.find? fun r => r.minFundedBps ≤ fundingBps inv.funded inv.total

/-- Carry out the matching rule. -/
def applyRule (env : Env) (id : ℕ) (inv : Invoice) : SplitM Unit :=
  match matchingRule inv with
  | some ⟨_, .release⟩ => releaseAs env id inv currentContract
  | some ⟨_, .refund⟩ => resolveByRefund env id inv
  | none => throw (.panic "no matching resolution rule")

def autoResolve (env : Env) (id : ℕ) : SplitM Unit := do
  requireNotPaused env
  let inv ← loadInvoice id
  require (inv.status = .pending) (.panic "invoice is not pending")
  require (inv.disputed = false) (.panic "invoice is disputed")
  require (inv.autoResolveRules ≠ []) (.panic "no auto-resolve rules defined")
  require (0 < inv.total) (.panic "invoice total must be positive")
  applyRule env id inv

/-- The part of a payment that `bps` give back. -/
def partialAmount (bps : ℕ) (p : Payment) : ℤ := Int.tdiv (p.amount * bps) 10000

/-- What each payment gives back, payment by payment. -/
def partialParts (bps : ℕ) (payments : List Payment) : List (Address × ℤ) :=
  payments.map fun p => (p.payer, partialAmount bps p)

def partialRefund (env : Env) (creator : Address) (id bps : ℕ) : SplitM Unit := do
  requireNotPaused env
  requireAuth env.toLedger creator
  let inv ← loadInvoice id
  require (inv.creator = creator ∨ creator ∈ inv.coCreators) (.panic "only creator can refund")
  require (inv.status = .pending) (.panic "invoice is not pending")
  require (bps ≤ 10000) (.panic "bps must be ≤ 10000")
  require (0 < inv.funded) (.panic "no funds to refund")
  let token ← orPanic inv.tokens.head? "no token"
  refundPositive env id token (partialParts bps inv.payments)
  let funded ← orPanic (checkedSubI128 inv.funded (positiveSum (partialParts bps inv.payments)))
    "funded underflow"
  saveInvoice env id (inv.withFunded funded)

/-- The refund `claim_refund` makes once all its checks have passed. -/
def payClaim (env : Env) (payer : Address) (id : ℕ) (inv : Invoice) : SplitM Unit := do
  let e ← getEntry id
  onlyIf (paidBy (keptPayments e.payments) payer ≠ 0) do
    let token ← orPanic inv.tokens.head? "no token"
    transfer env token payer (paidBy (keptPayments e.payments) payer) ⟨id, .refund⟩
    saveInvoice env id ((inv.markRefunded payer).withFunded
      (satSubI128 inv.funded (paidBy (keptPayments e.payments) payer)))

def claimRefund (env : Env) (payer : Address) (id : ℕ) : SplitM Unit := do
  requireFnNotPaused env "refund"
  requireAuth env.toLedger payer
  let inv ← loadInvoice id
  onlyIf (inv.status = .pending) do
    require (refundDeadline inv < env.now) (.panic "invoice has not expired yet")
    require (inv.funded < inv.total) (.panic "invoice is fully funded")
    onlyIf (payer ∉ inv.refundedAddresses) (payClaim env payer id inv)

/-- Remove the payments of one payer from all shards. -/
def Entry.dropPayer (e : Entry) (payer : Address) : Entry :=
  { e with shards := fun i => (e.shards i).filter fun p => p.payer ≠ payer }

def withdraw (env : Env) (id : ℕ) (payer : Address) : SplitM Unit := do
  requireAuth env.toLedger payer
  let inv ← loadInvoice id
  require (inv.allowEarlyWithdrawal = true) (.panic "early withdrawal not allowed")
  require (inv.disputed = false) (.panic "invoice is disputed")
  require (inv.status = .pending) (.panic "invoice is not pending")
  require (0 < paidBy inv.payments payer) (.panic "no contributions to withdraw")
  modifyEntry id fun e => e.dropPayer payer
  let token ← orPanic inv.tokens.head? "no token"
  transfer env token payer (paidBy inv.payments payer) ⟨id, .refund⟩
  saveInvoice env id (inv.withFunded (inv.funded - paidBy inv.payments payer))

def withdrawContribution (env : Env) (payer : Address) (id : ℕ) : SplitM Unit := do
  requireAuth env.toLedger payer
  let inv ← loadInvoice id
  require (inv.status = .pending) (.error .invalidStatus)
  let e ← getEntry id
  require (0 < e.contribution payer) (.error .zeroAmountNotAllowed)
  modifyEntry id fun e => { e with contribution := update e.contribution payer 0 }
  saveInvoice env id (inv.withFunded (satSubI128 inv.funded (e.contribution payer)))
  transfer env (fundingTokenFor inv) payer (e.contribution payer) ⟨id, .refund⟩

end StellarSplit.Split
