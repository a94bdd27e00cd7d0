import StellarSplit.Split.Resolution

/-!
# The passes of a call

What a relation on storages has to allow for the passes of the contract's
calls to respect it: movements with a memo, notes in the entries of an
invoice, a saved invoice record, counters. Instance search then follows the
text of each pass, for every such relation.
-/

namespace StellarSplit.Split

open Exec Function

variable {R : Store → Store → Prop} {env : Env} {α : Type}

/-! ## What a relation allows -/

/-- The entries without the notes that payments, releases and disputes take. -/
def Entry.core (e : Entry) : Entry :=
  { e with
    failedPayouts := []
    failedRecord := fun _ => 0
    lastFailedLedger := none
    unreleasedFunds := 0
    surplus := 0
    contribution := fun _ => 0
    cumulative := 0
    accumulator := fun _ => 0
    nonce := fun _ => 0
    velocity := fun _ => (0, 0)
    createdLedger := none
    disputeRecord := none
    disputeRaisedAt := 0
    fundedAtLedger := none
    renewedTo := none }

/-- The invoice without what payments, releases, refunds, bids and disputes change. -/
def Invoice.terms (inv : Invoice) : Invoice :=
  { inv with
    funded := 0
    status := .pending
    payments := []
    frozen := false
    completionTime := none
    releasedBps := 0
    insuranceFund := 0
    autoResumeAt := none
    disputed := false
    auctionEnd := 0
    bids := []
    refundedAddresses := []
    heldUntil := none
    milestonesReleased := 0
    earlyBirdFeeCredit := 0 }

@[simp] theorem Invoice.withPayments_terms (inv : Invoice) (payments : List Payment) :
    (inv.withPayments payments).terms = inv.terms := rfl

@[simp] theorem Invoice.withFunded_terms (inv : Invoice) (funded : ℤ) :
    (inv.withFunded funded).terms = inv.terms := rfl

@[simp] theorem Invoice.markRefunded_terms (inv : Invoice) (payer : Address) :
    (inv.markRefunded payer).terms = inv.terms := rfl

/-- Movements with this memo. -/
class Moves (R : Store → Store → Prop) (memo : Memo) : Prop where
  move : ∀ s (m : Transfer Memo), m.memo = memo → R s (s.withLog (m :: s.log))

/-- What a release moves tokens for. -/
def Purpose.ofRelease : Purpose → Bool
  | .payout | .stream | .tax | .platformFee | .protocolFee | .creatorFee | .treasuryNet | .bonus
  | .insurance | .forward => true
  | _ => false

/-- The movements a release of the invoice makes. -/
class ReleaseMoves (R : Store → Store → Prop) (id : ℕ) : Prop where
  moves : ∀ p : Purpose, p.ofRelease = true → Moves R ⟨id, p⟩

/-- Writes to the entries of the invoice that keep their core. -/
class Notes (R : Store → Store → Prop) (id : ℕ) : Prop where
  note : ∀ s e, e.core = (s.entries id).core → R s (s.setEntry id e)

/-- Writes that keep the core and fail no payout, as a payment takes them. -/
class PayNotes (R : Store → Store → Prop) (id : ℕ) : Prop where
  note : ∀ s e, e.core = (s.entries id).core → e.failedPayouts = (s.entries id).failedPayouts →
    R s (s.setEntry id e)

instance (priority := low) payNotes_of_notes {id : ℕ} [h : Notes R id] : PayNotes R id :=
  ⟨fun s e hcore _ => h.note s e hcore⟩

/-- New payments in the shards of the invoice. -/
class Credits (R : Store → Store → Prop) (id : ℕ) : Prop where
  credit : ∀ s (p : Payment), R s (s.setEntry id { s.entries id with
    shards := update (s.entries id).shards (computeShardId p.payer)
      ((s.entries id).shards (computeShardId p.payer) ++ [p]) })

/-- New payments of one payer in the shards of the invoice. -/
class CreditsBy (R : Store → Store → Prop) (id : ℕ) (payer : Address) : Prop where
  credit : ∀ s (p : Payment), p.payer = payer → R s (s.setEntry id { s.entries id with
    shards := update (s.entries id).shards (computeShardId p.payer)
      ((s.entries id).shards (computeShardId p.payer) ++ [p]) })

instance (priority := low) creditsBy_of_credits {id : ℕ} {payer : Address} [h : Credits R id] :
    CreditsBy R id payer :=
  ⟨fun s p _ => h.credit s p⟩

/-- Saving the invoice, or one with the same terms, under the id. -/
class Saves (R : Store → Store → Prop) (id : ℕ) (inv : Invoice) : Prop where
  save : ∀ inv' : Invoice, inv'.terms = inv.terms → ∀ s, R s (s.setEntry id
    { s.entries id with invoice := some (inv'.withPayments []) })

/-- Counters other than the volume of the creators. -/
class Counts (R : Store → Store → Prop) : Prop where
  count : ∀ s (f : Stats → Stats), (f s.stats).statsVolume = s.stats.statsVolume →
    R s { s with stats := f s.stats }

/-- The volume of the creators. -/
class CountsVolume (R : Store → Store → Prop) : Prop where
  count : ∀ s (f : Stats → Stats), R s { s with stats := f s.stats }

/-- The reentrancy lock. -/
class Locks (R : Store → Store → Prop) : Prop where
  lock : ∀ s b, R s (s.withLock b)

section ReleaseMoves

variable {id : ℕ}

instance (priority := low) releaseMoves_of_moves [h : ∀ memo, Moves R memo] : ReleaseMoves R id :=
  ⟨fun p _ => h ⟨id, p⟩⟩

variable [h : ReleaseMoves R id]

instance moves_payout : Moves R ⟨id, .payout⟩ := h.moves _ rfl

instance moves_stream : Moves R ⟨id, .stream⟩ := h.moves _ rfl

instance moves_tax : Moves R ⟨id, .tax⟩ := h.moves _ rfl

instance moves_platformFee : Moves R ⟨id, .platformFee⟩ := h.moves _ rfl

instance moves_protocolFee : Moves R ⟨id, .protocolFee⟩ := h.moves _ rfl

instance moves_creatorFee : Moves R ⟨id, .creatorFee⟩ := h.moves _ rfl

instance moves_treasuryNet : Moves R ⟨id, .treasuryNet⟩ := h.moves _ rfl

instance moves_bonus : Moves R ⟨id, .bonus⟩ := h.moves _ rfl

instance moves_insurance : Moves R ⟨id, .insurance⟩ := h.moves _ rfl

instance moves_forward : Moves R ⟨id, .forward⟩ := h.moves _ rfl

end ReleaseMoves

/-! ## Reading -/

section Reads

instance framed_orPanic {x : Option α} {msg : String} : Framed R (orPanic x msg : SplitM α) := by
  unfold orPanic
  split <;> infer_instance

instance framed_orError {x : Option α} {e : ContractError} : Framed R (orError x e : SplitM α) := by
  unfold orError
  split <;> infer_instance

instance framed_requireAuth {a : Address} : Framed R (requireAuth env.toLedger a : SplitM Unit) := by
  unfold requireAuth
  infer_instance

instance framed_getEntry {id : ℕ} : Framed R (getEntry id) := by
  unfold getEntry
  infer_instance

instance framed_loadInvoice {id : ℕ} : Framed R (loadInvoice id) := by
  unfold loadInvoice
  infer_instance

instance framed_requireNotPaused : Framed R (requireNotPaused env) := by
  unfold requireNotPaused
  infer_instance

instance framed_requireFnNotPaused {name : String} : Framed R (requireFnNotPaused env name) := by
  unfold requireFnNotPaused
  infer_instance

instance framed_requireNotFrozen : Framed R (requireNotFrozen env) := by
  unfold requireNotFrozen
  infer_instance

instance framed_invoke {c : Address} {f : String} : Framed R (invoke env c f) := by
  unfold invoke
  infer_instance

instance framed_invokeIfSet {c : Option Address} {f : String} : Framed R (invokeIfSet env c f) := by
  unfold invokeIfSet
  split <;> infer_instance

instance framed_notifyInvoice {inv : Invoice} : Framed R (notifyInvoice env inv) := by
  unfold notifyInvoice
  infer_instance

instance framed_maybeRecordReleased : Framed R (maybeRecordReleased env) := by
  unfold maybeRecordReleased
  infer_instance

instance framed_maybeRecordRefunded : Framed R (maybeRecordRefunded env) := by
  unfold maybeRecordRefunded
  infer_instance

instance framed_executeSmartRoute {inv : Invoice} {a : Address} :
    Framed R (executeSmartRoute env inv a) := by
  unfold executeSmartRoute
  split
  · split <;> infer_instance
  · infer_instance

instance framed_loadGroup {g : ℕ} : Framed R (loadGroup g) := by
  unfold loadGroup
  infer_instance

end Reads

/-! ## Writing -/

theorem framed_note {id : ℕ} {f : Entry → Entry} [h : Notes R id]
    (hf : ∀ e, (f e).core = e.core) : Framed R (modifyEntry id f) :=
  .of (.modify fun s => h.note s _ (hf _))

theorem framed_payNote {id : ℕ} {f : Entry → Entry} [h : PayNotes R id]
    (hf : ∀ e, (f e).core = e.core) (hfailed : ∀ e, (f e).failedPayouts = e.failedPayouts) :
    Framed R (modifyEntry id f) :=
  .of (.modify fun s => h.note s _ (hf _) (hfailed _))

theorem framed_stats {f : Stats → Stats} [h : Counts R]
    (hf : ∀ st, (f st).statsVolume = st.statsVolume) : Framed R (modifyStats f) :=
  .of (.modify fun s => h.count s f (hf _))

instance framed_acquireLock [h : Locks R] : Framed R acquireLock := by
  refine .of fun s v t hrun => ?_
  simp only [acquireLock, bind_ok, get_ok, require_ok, set_ok] at hrun
  obtain ⟨_, _, ⟨rfl, rfl⟩, _, _, ⟨-, rfl⟩, rfl⟩ := hrun
  exact h.lock s true

instance framed_removeLock [h : Locks R] : Framed R removeLock := .of (.modify fun s => h.lock s false)

instance framed_pushPayment {id : ℕ} {p : Payment} [h : CreditsBy R id p.payer] :
    Framed R (pushPayment id p) := .of (.modify fun s => h.credit s p rfl)

section Movements

variable {memo : Memo} {token a : Address} {amount : ℤ}

theorem framed_move {m : Transfer Memo} [h : Moves R m.memo] : Framed R (move env m) := by
  refine .of fun s v t hrun => ?_
  obtain ⟨-, rfl⟩ := move_ok.1 hrun
  exact h.move s m rfl

instance framed_transfer [h : Moves R memo] : Framed R (transfer env token a amount memo) :=
  framed_move (m := ⟨token, currentContract, a, amount, memo⟩) (h := h)

instance framed_collect [h : Moves R memo] : Framed R (collect env token a amount memo) :=
  framed_move (m := ⟨token, a, currentContract, amount, memo⟩) (h := h)

instance framed_saveInvoice {id : ℕ} {inv : Invoice} [h : Saves R id inv] :
    Framed R (saveInvoice env id inv) := by
  have hwrite : Framed R
      (modifyEntry id fun e => { e with invoice := some (inv.withPayments []) }) :=
    .of (.modify fun s => h.save inv rfl s)
  unfold saveInvoice
  infer_instance

instance framed_tryTransfer [h : Moves R memo] :
    Framed R (tryTransfer env token a amount memo) := by
  refine ⟨fun s sent t hrun => ?_⟩
  obtain ⟨-, rfl⟩ := tryTransfer_ok.1 hrun
  split
  · exact .single (h.move s _ rfl)
  · exact .refl

instance framed_transferIfSet {dst : Option Address} [Moves R memo] :
    Framed R (transferIfSet env token dst amount memo) := by
  unfold transferIfSet
  split <;> infer_instance

instance framed_transferPositive [Moves R memo] :
    Framed R (transferPositive env token a amount memo) := by
  unfold transferPositive
  infer_instance

end Movements

/-! ## Saved invoices -/

section Updates

variable {id : ℕ} {inv : Invoice} [h : Saves R id inv]

instance saves_withStatus {status : InvoiceStatus} : Saves R id (inv.withStatus status) := ⟨h.save⟩

instance saves_completed {status : InvoiceStatus} {now : ℕ} :
    Saves R id (inv.completed status now) := ⟨h.save⟩

instance saves_withReleasedBps {bps : ℕ} : Saves R id (inv.withReleasedBps bps) := ⟨h.save⟩

instance saves_insurancePaid : Saves R id inv.insurancePaid := ⟨h.save⟩

instance saves_resumed : Saves R id inv.resumed := ⟨h.save⟩

end Updates

/-! ## The passes of a release -/

section Passes

variable {id : ℕ} {inv : Invoice}

instance framed_payPlatformFee {fee : ℤ} {token : Address} [Moves R ⟨id, .platformFee⟩] :
    Framed R (payPlatformFee env id fee token) := by
  unfold payPlatformFee distributeFee
  infer_instance

instance framed_accrueCreatorRebate {a : Address} {x y : ℤ} [Counts R] :
    Framed R (accrueCreatorRebate env a x y) := by
  have hvolume : ∀ v, Framed R (modifyStats fun st =>
      { st with creatorVolume := update st.creatorVolume a v }) :=
    fun _ => framed_stats fun _ => rfl
  have hrebate : ∀ v, Framed R (modifyStats fun st =>
      { st with rebateBalance := update st.rebateBalance a v }) :=
    fun _ => framed_stats fun _ => rfl
  unfold accrueCreatorRebate
  infer_instance

instance framed_payBonus [Moves R ⟨id, .bonus⟩] : Framed R (payBonus env id inv) := by
  unfold payBonus
  infer_instance

instance framed_payProtocolFee [Moves R ⟨id, .protocolFee⟩] :
    Framed R (payProtocolFee env id inv) := by
  unfold payProtocolFee
  split <;> infer_instance

instance framed_returnInsurance [Moves R ⟨id, .insurance⟩] :
    Framed R (returnInsurance env id inv) := by
  unfold returnInsurance
  infer_instance

instance framed_parkShares {plan : Plan} [Notes R id] : Framed R (parkShares id plan) :=
  framed_note fun _ => rfl

theorem Entry.appendFailed_core (e : Entry) (a : Address) : (e.appendFailed a).core = e.core := by
  unfold Entry.appendFailed
  split <;> rfl

instance framed_markMissing {a : Address} [Notes R id] : Framed R (markMissing id a) :=
  framed_note fun e => e.appendFailed_core a

instance framed_recordFailedPayout {a : Address} {x : ℤ} [Notes R id] :
    Framed R (recordFailedPayout id a x) :=
  framed_note fun _ => Entry.appendFailed_core _ a

instance framed_recordFailure {a : Address} {x : ℤ} [Notes R id] :
    Framed R (recordFailure env id a x) := by
  have hledger : Framed R
      (modifyEntry id fun e => { e with lastFailedLedger := some env.sequence }) :=
    framed_note fun _ => rfl
  unfold recordFailure
  infer_instance

instance framed_deliverPayout {i : ℕ} {a : Address} {x : ℤ} [Moves R ⟨id, .payout⟩]
    [Moves R ⟨id, .stream⟩] : Framed R (deliverPayout env id inv i a x) := by
  unfold deliverPayout
  split
  · infer_instance
  · split
    · infer_instance
    · split
      · split <;> infer_instance
      · infer_instance

instance framed_payRecipient {paid : List Address} {fee : ℤ} {plan : Plan} {acc : Pass}
    {ri : Address × ℕ} [Notes R id] [Moves R ⟨id, .payout⟩] [Moves R ⟨id, .stream⟩]
    [Moves R ⟨id, .tax⟩] : Framed R (payRecipient env id inv paid fee plan acc ri) := by
  unfold payRecipient
  infer_instance

instance framed_payRecipients {paid : List Address} {fee : ℤ} {plan : Plan} [Notes R id]
    [Moves R ⟨id, .payout⟩] [Moves R ⟨id, .stream⟩] [Moves R ⟨id, .tax⟩]
    [Moves R ⟨id, .platformFee⟩] [Moves R ⟨id, .creatorFee⟩] :
    Framed R (payRecipients env id inv paid fee plan) := by
  unfold payRecipients
  infer_instance

instance framed_payTreasury {plan : Plan} {a : Address} [Moves R ⟨id, .tax⟩]
    [Moves R ⟨id, .platformFee⟩] [Moves R ⟨id, .treasuryNet⟩] :
    Framed R (payTreasury env id inv plan a) := by
  unfold payTreasury
  infer_instance

instance framed_payPlan {e : Entry} {fee : ℤ} {plan : Plan} [Notes R id] [Moves R ⟨id, .payout⟩]
    [Moves R ⟨id, .stream⟩] [Moves R ⟨id, .tax⟩] [Moves R ⟨id, .platformFee⟩]
    [Moves R ⟨id, .creatorFee⟩] [Moves R ⟨id, .treasuryNet⟩] :
    Framed R (payPlan env id inv e fee plan) := by
  unfold payPlan
  split <;> infer_instance

instance framed_payPasses {e : Entry} {fee : ℤ} {plan : Plan} [Notes R id] [Moves R ⟨id, .payout⟩]
    [Moves R ⟨id, .stream⟩] [Moves R ⟨id, .tax⟩] [Moves R ⟨id, .platformFee⟩]
    [Moves R ⟨id, .creatorFee⟩] [Moves R ⟨id, .treasuryNet⟩] [Moves R ⟨id, .protocolFee⟩]
    [Moves R ⟨id, .bonus⟩] : Framed R (payPasses env id inv e fee plan) := by
  unfold payPasses
  infer_instance

instance framed_payTax {token : Address} {x : ℤ} [Moves R ⟨id, .tax⟩] :
    Framed R (payTax env id inv token x) := by
  unfold payTax
  infer_instance

instance framed_closeOpenInvoice {a : Address} [Counts R] : Framed R (closeOpenInvoice a) :=
  framed_stats fun _ => rfl

instance framed_countRelease {a : Address} {x y : ℤ} [Counts R] [h : CountsVolume R] :
    Framed R (countRelease env a x y) := by
  have hstats : ∀ f, Framed R (modifyStats f) := fun f => .of (.modify fun s => h.count s f)
  unfold countRelease
  infer_instance

instance framed_finishRelease {failed : Bool} {fee : ℤ} [Counts R] [CountsVolume R]
    [Saves R id inv] : Framed R (finishRelease env id inv failed fee) := by
  unfold finishRelease
  infer_instance

instance framed_payMemberRecipient {token : Address} {acc : ℤ × ℤ} {rai : (Address × ℤ) × ℕ}
    [Moves R ⟨id, .payout⟩] [Moves R ⟨id, .tax⟩] : Framed R (payMemberRecipient env id inv token acc rai) := by
  unfold payMemberRecipient
  infer_instance

instance framed_payMemberFee {token : Address} {fee : ℤ} [Moves R ⟨id, .platformFee⟩] :
    Framed R (payMemberFee env id token fee) := by
  unfold payMemberFee
  infer_instance

instance framed_addCumulative {x : ℤ} [PayNotes R id] : Framed R (addCumulative id x) :=
  framed_payNote (fun _ => rfl) fun _ => rfl

/-! ### Tranches -/

instance framed_payTranche {bps : ℕ} {x y : ℤ} {acc : TranchePass} {ri : Address × ℕ} [Notes R id]
    [Moves R ⟨id, .payout⟩] : Framed R (payTranche env id inv bps x y acc ri) := by
  unfold payTranche deliverTranche
  infer_instance

instance framed_payTrancheFees {pass : TranchePass} [Moves R ⟨id, .tax⟩]
    [Moves R ⟨id, .platformFee⟩] : Framed R (payTrancheFees env id inv pass) := by
  unfold payTrancheFees
  infer_instance

instance framed_countTranche {x : ℤ} [Counts R] : Framed R (countTranche x) := by
  have hstats : ∀ v r, Framed R
      (modifyStats fun st => { st with totalVolume := v, totalReleased := r }) :=
    fun _ _ => framed_stats fun _ => rfl
  unfold countTranche
  infer_instance

instance framed_closeTranches {x : ℤ} [Counts R] [Moves R ⟨id, .insurance⟩] :
    Framed R (closeTranches env id inv x) := by
  have hstats : Framed R (modifyStats fun st => { st with
      statsReleased := update st.statsReleased inv.creator
        (st.statsReleased inv.creator + Machine.asU64 x) }) :=
    framed_stats fun _ => rfl
  unfold closeTranches
  infer_instance

instance framed_finishTranches {bps : ℕ} {failed : Bool} {x : ℤ} [Counts R] [Saves R id inv]
    [Moves R ⟨id, .insurance⟩] : Framed R (finishTranches env id inv bps failed x) := by
  unfold finishTranches
  infer_instance

instance framed_releaseTranches [Notes R id] [Counts R] [Saves R id inv]
    [Moves R ⟨id, .payout⟩] [Moves R ⟨id, .tax⟩] [Moves R ⟨id, .platformFee⟩]
    [Moves R ⟨id, .insurance⟩] : Framed R (releaseTranches env id inv) := by
  unfold releaseTranches
  infer_instance

end Passes

/-! ## Counters -/

section Counters

variable {a b : Address} {x : ℤ}

instance framed_addTotalRefunded [Counts R] : Framed R (addTotalRefunded x) := by
  have hstats : ∀ v, Framed R (modifyStats fun st => { st with totalRefunded := v }) :=
    fun _ => framed_stats fun _ => rfl
  unfold addTotalRefunded
  infer_instance

instance framed_countRefunded [Counts R] : Framed R (countRefunded a) := by
  have hstats : ∀ v, Framed R
      (modifyStats fun st => { st with statsRefunded := update st.statsRefunded a v }) :=
    fun _ => framed_stats fun _ => rfl
  unfold countRefunded
  infer_instance

instance framed_countCancel [Counts R] : Framed R (countCancel env a b) := framed_stats fun _ => rfl

instance framed_countPayment [h : CountsVolume R] : Framed R (countPayment a x) := by
  have hstats : ∀ f, Framed R (modifyStats f) := fun f => .of (.modify fun s => h.count s f)
  unfold countPayment
  infer_instance

end Counters

/-! ## Gates -/

section Gates

variable {id : ℕ} {inv : Invoice}

instance framed_checkPreimage {p : Option (List ℕ)} : Framed R (checkPreimage env inv p) := by
  unfold checkPreimage
  split <;> infer_instance

instance framed_checkDispute : Framed R (checkDispute id inv) := by
  unfold checkDispute
  infer_instance

instance framed_checkReleaseDelay : Framed R (checkReleaseDelay env id) := by
  unfold checkReleaseDelay
  infer_instance

instance framed_checkApproval : Framed R (checkApproval inv) := by
  unfold checkApproval
  infer_instance

instance framed_checkPrerequisite : Framed R (checkPrerequisite inv) := by
  unfold checkPrerequisite
  split <;> infer_instance

instance framed_checkGroup : Framed R (checkGroup id) := by
  unfold checkGroup checkGroupFunded memberFunded
  infer_instance

instance framed_checkCosigners : Framed R (checkCosigners id inv) := by
  unfold checkCosigners
  infer_instance

instance framed_authorizeCancel {a : Address} : Framed R (authorizeCancel env inv a) := by
  unfold authorizeCancel
  split <;> infer_instance

instance framed_checkCancelRate {a : Address} : Framed R (checkCancelRate env a) := by
  unfold checkCancelRate
  infer_instance

instance framed_aggregateShardPayments : Framed R (aggregateShardPayments id) := by
  unfold aggregateShardPayments
  infer_instance

instance framed_checkKyc {a : Address} : Framed R (checkKyc env inv a) := by
  unfold checkKyc
  infer_instance

instance framed_checkPoolPayment {token : Address} {p : InvoicePayment} :
    Framed R (checkPoolPayment env token p) := by
  unfold checkPoolPayment
  infer_instance

end Gates

/-! ## The passes of a payment -/

section Payments

variable {id : ℕ} {inv : Invoice} {a : Address} {x y : ℤ}

instance framed_setAccumulator [PayNotes R id] : Framed R (setAccumulator id a x) :=
  framed_payNote (fun _ => rfl) fun _ => rfl

instance framed_accumulate [PayNotes R id] : Framed R (accumulate id inv a x y) := by
  unfold accumulate
  infer_instance

instance framed_incrementNonce [PayNotes R id] : Framed R (incrementNonce id a) :=
  framed_payNote (fun _ => rfl) fun _ => rfl

instance framed_checkLimits {n : ℕ} [PayNotes R id] : Framed R (checkLimits env id inv a x n) := by
  have hvelocity : ∀ window, Framed R (setVelocity id a window) := fun _ => framed_payNote (fun _ => rfl) fun _ => rfl
  unfold checkLimits
  infer_instance

instance framed_passOnExcess [Moves R ⟨id, .surplus⟩] [Moves R ⟨id, .donation⟩] :
    Framed R (passOnExcess env id inv a x) := by
  unfold passOnExcess
  infer_instance

instance framed_payPenalty [h : Moves R ⟨id, .penalty⟩] : Framed R (payPenalty env id inv a x) := by
  have hshare : ∀ recipient share, Framed R
      (move env ⟨fundingTokenFor inv, a, recipient, share, ⟨id, .penalty⟩⟩) :=
    fun _ _ => framed_move (h := h)
  unfold payPenalty payPenaltyShare
  infer_instance

instance framed_takePayment {y z : ℤ} [Moves R ⟨id, .payment⟩] [Moves R ⟨id, .surplus⟩]
    [Moves R ⟨id, .donation⟩] [Moves R ⟨id, .penalty⟩] :
    Framed R (takePayment env a id inv x y z) := by
  unfold takePayment
  infer_instance

instance framed_addContribution [PayNotes R id] : Framed R (addContribution id a x) :=
  framed_payNote (fun _ => rfl) fun _ => rfl

instance framed_recordPayment {b : Bool} [PayNotes R id] [CreditsBy R id a] :
    Framed R (recordPayment id a x b) := by
  unfold recordPayment
  infer_instance

instance framed_releaseMilestone {token : Address} {m n : ℕ} [PayNotes R id] [Moves R ⟨id, .payout⟩] :
    Framed R (releaseMilestone env id inv token m n) := by
  have hsurplus : ∀ x, Framed R (addSurplus id x) := fun _ => framed_payNote (fun _ => rfl) fun _ => rfl
  unfold releaseMilestone payMilestoneShare
  infer_instance

instance framed_milestoneLoop {token : Address} {ms : List ℕ} {prev released : ℕ} [PayNotes R id]
    [Moves R ⟨id, .payout⟩] : Framed R (milestoneLoop env id inv token ms prev released) := by
  induction ms generalizing prev released with
  | nil =>
      unfold milestoneLoop
      infer_instance
  | cons m ms ih =>
      unfold milestoneLoop
      infer_instance

instance framed_autoResume [Saves R id inv] : Framed R (autoResume env id inv) := by
  unfold autoResume
  split <;> infer_instance

instance framed_checkPayment [∀ inv, Saves R id inv] : Framed R (checkPayment env a id x) := by
  unfold checkPayment
  infer_instance

instance framed_maybeReleaseMilestones [PayNotes R id] [Moves R ⟨id, .payout⟩] :
    Framed R (maybeReleaseMilestones env id inv) := by
  unfold maybeReleaseMilestones
  infer_instance

instance framed_recordFunded [PayNotes R id] : Framed R (recordFunded env id) :=
  framed_payNote (fun _ => rfl) fun _ => rfl

end Payments

/-! ## Releases and payments for relations that allow all their writes -/

section Open

variable [∀ id, Notes R id] [∀ id, ReleaseMoves R id] [∀ id inv, Saves R id inv]
  [∀ id, CreditsBy R id currentContract] [Counts R] [CountsVolume R] {id : ℕ} {inv : Invoice}
  {a : Address} {x y : ℤ}

instance framed_releaseMember_open : Framed R (releaseMember env id) := by
  unfold releaseMember
  infer_instance

instance framed_releaseGroup_open : Framed R (releaseGroup env id) := by
  have hmembers : ∀ g : Option ℕ, Framed R (match g with
      | none => pure ()
      | some groupId => do
          let members ← loadGroup groupId
          forM (members.filter (· ≠ id)) (releaseMember env)) := by
    intro g
    cases g <;> infer_instance
  unfold releaseGroup
  infer_instance

omit [∀ id, ReleaseMoves R id] [Counts R] [CountsVolume R] in
theorem framed_forwardToInvoice_open {next : ℕ → Invoice → Address → SplitM Unit}
    (hnext : ∀ id inv a, Framed R (next id inv a)) :
    Framed R (forwardToInvoice env next id x) := by
  unfold forwardToInvoice
  infer_instance

omit [Counts R] [CountsVolume R] in
theorem framed_forwardLeftover_open {next : ℕ → Invoice → Address → SplitM Unit}
    (hnext : ∀ id inv a, Framed R (next id inv a)) :
    Framed R (forwardLeftover env next id inv x) := by
  have hforward : ∀ targetId, Framed R (forwardToInvoice env next targetId x) :=
    fun _ => framed_forwardToInvoice_open hnext
  unfold forwardLeftover
  split
  · split
    · infer_instance
    · split <;> infer_instance
  · infer_instance

instance framed_releaseWithin_open {depth : ℕ} : Framed R (releaseWithin env depth id inv a) := by
  induction depth generalizing id inv a with
  | zero =>
      unfold releaseWithin
      infer_instance
  | succ depth ih =>
      have hnext : ∀ id inv a, Framed R (releaseWithin env depth id inv a) := fun _ _ _ => ih
      have hforward : ∀ x, Framed R (forwardLeftover env (releaseWithin env depth) id inv x) :=
        fun _ => framed_forwardLeftover_open hnext
      have hfull : Framed R (releaseFull env (releaseWithin env depth) id inv a) := by
        unfold releaseFull
        refine .next fun e => .next fun platformFee => .next fun plan => ?_
        infer_instance
      unfold releaseWithin
      infer_instance

instance framed_releaseAs_open : Framed R (releaseAs env id inv a) := by
  unfold releaseAs
  infer_instance

instance framed_settlePayment_open : Framed R (settlePayment env id inv x a) := by
  unfold settlePayment
  infer_instance

variable [∀ memo, Moves R memo] [CreditsBy R id a]

instance framed_creditPayment_open {b : Bool} : Framed R (creditPayment env a id inv x y b) := by
  unfold creditPayment
  refine .next fun credited => .next fun premium => ?_
  infer_instance

instance framed_pay_open {n : ℕ} {b : Bool} : Framed R (pay env a id x n b) := by
  unfold pay payInner
  infer_instance

end Open

/-! ## The log -/

section Log

variable {M : Memo → Prop} {id : ℕ} {inv : Invoice} {s t : Store}

/-- The log has grown by movements with a memo in `M`. -/
def Grows (M : Memo → Prop) (s t : Store) : Prop := ∃ new, t.log = new ++ s.log ∧ ∀ m ∈ new, M m.memo

theorem Grows.of_log (h : t.log = s.log) : Grows M s t := ⟨[], by simpa using h, by simp⟩

instance grows_refl : Std.Refl (Grows M) := ⟨fun _ => .of_log rfl⟩

instance grows_trans : IsTrans Store (Grows M) := ⟨fun _ _ _ => grown_trans⟩

theorem moves_grows {memo : Memo} (h : M memo) : Moves (Grows M) memo :=
  ⟨fun _ m hm => ⟨[m], rfl, by simpa [hm] using h⟩⟩

instance notes_grows : Notes (Grows M) id := ⟨fun _ _ _ => .of_log rfl⟩

instance credits_grows : Credits (Grows M) id := ⟨fun _ _ => .of_log rfl⟩

instance saves_grows : Saves (Grows M) id inv := ⟨fun _ _ _ => .of_log rfl⟩

instance counts_grows : Counts (Grows M) := ⟨fun _ _ _ => .of_log rfl⟩

instance countsVolume_grows : CountsVolume (Grows M) := ⟨fun _ _ => .of_log rfl⟩

/-- A release moves tokens for the purposes of a release only. -/
theorem releaseAs_grows {a : Address} {v : Unit} (hrun : releaseAs env id inv a s = .ok (v, t)) :
    Grows (fun memo => memo.purpose.ofRelease = true) s t := by
  have hmoves : ∀ id, ReleaseMoves (Grows fun memo => memo.purpose.ofRelease = true) id :=
    fun _ => ⟨fun _ hp => moves_grows hp⟩
  exact Framed.holds s v t hrun

theorem Grows.tally {p : Transfer Memo → Bool} (h : Grows M s t)
    (hp : ∀ m, M m.memo → p m = false) : tally p t.log = tally p s.log := by
  obtain ⟨new, hlog, hnew⟩ := h
  rw [hlog, tally_append, tally_eq_zero fun m hm => hp m (hnew m hm), zero_add]

end Log

/-! ## What no release writes -/

section Kept

variable {β : Type} {π : Entry → β} {id : ℕ} {inv : Invoice} {memo : Memo}

/-- A part of the entries is the same for every invoice. -/
def Keeps (π : Entry → β) (s t : Store) : Prop := ∀ k, π (t.entries k) = π (s.entries k)

/-- A part of the entries that payments, releases and disputes neither note nor save. -/
class Untouched (π : Entry → β) : Prop where
  core : ∀ e, π e.core = π e
  invoice : ∀ e inv, π { e with invoice := inv } = π e
  shards : ∀ e shards, π { e with shards := shards } = π e

instance keeps_refl : Std.Refl (Keeps π) := ⟨fun _ _ => rfl⟩

instance keeps_trans : IsTrans Store (Keeps π) := ⟨fun _ _ _ h₁ h₂ k => (h₂ k).trans (h₁ k)⟩

theorem keeps_setEntry {s : Store} {e : Entry} (h : π e = π (s.entries id)) :
    Keeps π s (s.setEntry id e) := by
  intro k
  by_cases hk : k = id
  · subst hk
    rw [Store.setEntry_self, h]
  · rw [Store.setEntry_ne s hk]

instance moves_keeps : Moves (Keeps π) memo := ⟨fun _ _ _ _ => rfl⟩

instance counts_keeps : Counts (Keeps π) := ⟨fun _ _ _ _ => rfl⟩

instance countsVolume_keeps : CountsVolume (Keeps π) := ⟨fun _ _ _ => rfl⟩

variable [h : Untouched π]

instance notes_keeps : Notes (Keeps π) id :=
  ⟨fun _ _ hcore => keeps_setEntry (by rw [← h.core, hcore, h.core])⟩

instance credits_keeps : Credits (Keeps π) id := ⟨fun _ _ => keeps_setEntry (h.shards _ _)⟩

instance saves_keeps : Saves (Keeps π) id inv := ⟨fun _ _ _ => keeps_setEntry (h.invoice _ _)⟩

end Kept

end StellarSplit.Split
