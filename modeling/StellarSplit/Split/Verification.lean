import StellarSplit.Lib.Runs
import StellarSplit.Split.Claims
import StellarSplit.Split.ReleaseGates

/-!
# Authentication of recipients

The creator of an invoice may require that its recipients answer a challenge before
they are paid. A release and the milestones of a payment look at the answers. The
other calls that pay recipients do not, nor does a release when it pays for the other
members of its group, so a run pays verified recipients only as far as these calls are
made for verified recipients.
-/

namespace StellarSplit.Split

/-- The purposes of the movements that bring tokens to a recipient. -/
def Purpose.reachesRecipient : Purpose → Bool
  | .payout | .single | .penalty | .retry | .fallback | .auctionPayout => true
  | _ => false

/-- The recipients of the stored invoice, and what is known about their authentication. -/
def Entry.screen (e : Entry) : Option (List Address) × Bool × (Address → Bool) :=
  (e.invoice.map Invoice.recipients, e.authRequired, e.recipientVerified)

/-- What is known about the authentication of the recipients. -/
def Entry.verification (e : Entry) : Bool × (Address → Bool) := (e.authRequired, e.recipientVerified)

def Invoice.withClaimed (inv : Invoice) (claimed : List ℤ) : Invoice := { inv with claimed := claimed }

def Invoice.withReleasedStages (inv : Invoice) (stages : ℕ) : Invoice := { inv with releasedStages := stages }

end StellarSplit.Split

namespace StellarSplit.Split.Verification

open Exec Function Machine

/-! ## Stages and drips -/

/-- The share of a recipient in a stage before fees and taxes. -/
def stageShare (inv : Invoice) (bps i : ℕ) : Result ℤ := do
  let amount ← unwrap inv.amounts[i]?
  if inv.ratios ≠ [] then do
    let ratio ← unwrap inv.ratios[i]?
    checkedProportion amount ratio inv.ratioDenominator
  else trancheShare amount inv.funded inv.total bps

/-- Pay one recipient's share of a stage; the accumulator is the fees and the taxes. -/
def payStageShare (env : Env) (id : ℕ) (inv : Invoice) (token : Address) (bps : ℕ) (acc : ℤ × ℤ)
    (ri : Address × ℕ) : SplitM (ℤ × ℤ) := do
  let raw ← ofResult (stageShare inv bps ri.2)
  if 0 < raw then do
    let fee ← ofResult (claimFee env ri.1 raw)
    let tax ← ofResult (plainMulDiv (asU128 raw) inv.taxBps 10000)
    let routed ← executeSmartRoute env inv ri.1
    onlyIf (routed = false) (transfer env token ri.1 (raw - fee - tax) ⟨id, .payout⟩)
    pure (acc.1 + fee, acc.2 + tax)
  else pure acc

/-- Save the invoice after one more stage; the last one closes it. -/
def finishStage (env : Env) (id : ℕ) (inv : Invoice) (token : Address) (stages : ℕ) : SplitM Unit :=
  if inv.releaseStages.length ≤ stages then do
    transferPositive env token inv.creator inv.insuranceFund ⟨id, .insurance⟩
    notifyInvoice env inv
    saveInvoice env id ((inv.insurancePaid.withReleasedStages stages).completed .released env.now)
  else saveInvoice env id (inv.withReleasedStages stages)

def stageRelease (env : Env) (id : ℕ) (creator : Address) : SplitM Unit := do
  requireNotPaused env
  requireAuth env.toLedger creator
  let inv ← loadInvoice id
  require (inv.creator = creator) (.panic "only creator can call stage_release")
  require (inv.frozen = false) (.panic "invoice is frozen")
  require (inv.disputed = false) (.panic "invoice is disputed")
  require (inv.status = .pending) (.panic "invoice is not pending")
  require (inv.releaseStages ≠ []) (.panic "no release stages defined")
  require (inv.total ≤ inv.funded) (.panic "invoice not fully funded")
  let bps ← orPanic inv.releaseStages[inv.releasedStages]? "all stages already released"
  let token ← orPanic inv.tokens.head? "no token"
  let sums ← inv.recipients.zipIdx.foldlM (payStageShare env id inv token bps) (0, 0)
  payPlatformFee env id sums.1 token
  payTax env id inv token sums.2
  countTranche (tranchePart inv.funded bps)
  finishStage env id inv token (inv.releasedStages + 1)

section Frames

variable {R : Store → Store → Prop} {env : Env} {id : ℕ} {inv : Invoice} {token creator : Address}
  [∀ inv, Saves R id inv]

instance framed_finishStage {stages : ℕ} [Moves R ⟨id, .insurance⟩] :
    Framed R (finishStage env id inv token stages) := by
  unfold finishStage
  infer_instance

variable [ReleaseMoves R id]

omit [∀ inv, Saves R id inv] in
instance framed_payStageShare {bps : ℕ} {acc : ℤ × ℤ} {ri : Address × ℕ} :
    Framed R (payStageShare env id inv token bps acc ri) := by
  unfold payStageShare
  infer_instance

theorem framed_partialRelease {amount : ℤ} : Framed R (partialRelease env id creator amount) := by
  unfold partialRelease payPartialRelease payByPriority payProportional
  infer_instance

theorem framed_stageRelease [Counts R] : Framed R (stageRelease env id creator) := by
  unfold stageRelease
  infer_instance

end Frames

/-- What has vested of an amount since the release. -/
def vestedAmount (total : ℤ) (elapsed dripDuration : ℕ) : Result ℤ :=
  if dripDuration ≤ elapsed then .ok total
  else if InI128 (elapsed * total) then .ok ((elapsed * total).tdiv dripDuration)
  else .error .overflow

/-- `drip_claim`, with the release timestamp that the invoice carries. -/
def dripClaim (env : Env) (releaseTimestamp : Option ℕ) (id : ℕ) (recipient : Address) : SplitM Unit := do
  let inv ← loadInvoice id
  require (inv.status = .released) (.panic "invoice not released")
  let dripDuration ← orPanic inv.dripDuration "no drip schedule"
  let releasedAt ← orPanic releaseTimestamp "no release timestamp"
  let idx ← orPanic (inv.recipients.findIdx? (· = recipient)) "recipient not found"
  let total ← ofResult (unwrap inv.amounts[idx]?)
  let claimed ← ofResult (unwrap inv.claimed[idx]?)
  let vested ← ofResult (vestedAmount total (env.now - releasedAt) dripDuration)
  require (InI128 (vested - claimed)) .overflow
  require (0 < vested - claimed) (.panic "nothing to claim")
  saveInvoice env id (inv.withClaimed (inv.claimed.set idx vested))
  let token ← orPanic inv.tokens.head? "no token"
  transfer env token recipient (vested - claimed) ⟨id, .payout⟩

/-! ## Challenges -/

inductive RecipientAuthStatus where
  | unverified | challengeIssued | verified | failed | expired | revoked
deriving DecidableEq, Repr

/-- The authentication of one recipient of one invoice. -/
structure RecipientAuth where
  invoiceId : ℕ
  recipient : Address
  status : RecipientAuthStatus
  challenge : Option Hash
  issuedAt : ℕ
  expiresAt : ℕ
  verifiedAt : Option ℕ
  attempts : ℕ
  nonce : ℕ
deriving DecidableEq, Repr

/-- The storage with the challenges and their nonces, and the release timestamps of the invoices. -/
structure AuthStore where
  ledger : Store := {}
  auths : ℕ → Address → Option RecipientAuth := fun _ _ => none
  nonce : ℕ := 0
  releaseTimestamp : ℕ → Option ℕ := fun _ => none

abbrev AuthM (α : Type) := Call AuthStore SplitFault α

def onLedger {α : Type} (x : SplitM α) : AuthM α :=
  focus AuthStore.ledger (fun s t => { s with ledger := t }) x

def maxRecipientAuthAttempts : ℕ := 3

def minRecipientAuthTtlSecs : ℕ := 60

def maxRecipientAuthTtlSecs : ℕ := 7 * 24 * 60 * 60

def requireCreatorOrCocreator (inv : Invoice) (caller : Address) : AuthM Unit :=
  require (inv.creator = caller ∨ caller ∈ inv.coCreators)
    (.panic "NotAuthorized: caller is not the creator or a co-creator")

/-- Whether the record says that its recipient is verified. -/
def RecipientAuth.isVerified (auth : RecipientAuth) : Bool := auth.status = .verified

/-- The storage with a new record; the entry of the invoice says who is verified. -/
def AuthStore.withAuth (s : AuthStore) (auth : RecipientAuth) : AuthStore := { s with
  auths := update s.auths auth.invoiceId (update (s.auths auth.invoiceId) auth.recipient (some auth))
  ledger := s.ledger.setEntry auth.invoiceId { s.ledger.entries auth.invoiceId with
    recipientVerified := update (s.ledger.entries auth.invoiceId).recipientVerified auth.recipient
      auth.isVerified } }

def saveRecipientAuth (auth : RecipientAuth) : AuthM Unit := modify fun s => s.withAuth auth

def setRecipientAuthRequired (env : Env) (caller : Address) (id : ℕ) (required : Bool) : AuthM Unit := do
  onLedger (requireNotPaused env)
  requireAuth env.toLedger caller
  let inv ← onLedger (loadInvoice id)
  requireCreatorOrCocreator inv caller
  require (inv.status = .pending) (.panic "invoice not pending")
  onLedger (modifyEntry id fun e => { e with authRequired := required })

/-- The preimage of a challenge, field by field. -/
def challengeSeed (env : Env) (id : ℕ) (recipient : Address) (nonce : ℕ) : List ℕ :=
  [currentContract, id, recipient, nonce, env.now, env.sequence]

def issueRecipientChallenge (env : Env) (caller : Address) (id : ℕ) (recipient : Address) (ttlSecs : ℕ) :
    AuthM Hash := do
  onLedger (requireNotPaused env)
  requireAuth env.toLedger caller
  let inv ← onLedger (loadInvoice id)
  requireCreatorOrCocreator inv caller
  require (recipient ∈ inv.recipients) (.panic "not an invoice recipient")
  require (minRecipientAuthTtlSecs ≤ ttlSecs ∧ ttlSecs ≤ maxRecipientAuthTtlSecs)
    (.panic "invalid challenge ttl")
  let s ← get
  require (∀ existing ∈ s.auths id recipient, existing.status ≠ .verified)
    (.panic "recipient already verified")
  require (s.nonce + 1 ≤ u64Max) .overflow
  set { s with nonce := s.nonce + 1 }
  require (env.now + ttlSecs ≤ u64Max) .overflow
  let challenge := env.sha256 (challengeSeed env id recipient (s.nonce + 1))
  saveRecipientAuth
    { invoiceId := id
      recipient := recipient
      status := .challengeIssued
      challenge := some challenge
      issuedAt := env.now
      expiresAt := env.now + ttlSecs
      verifiedAt := none
      attempts := 0
      nonce := s.nonce + 1 }
  pure challenge

def recipientChallengeResponse (env : Env) (challenge : Hash) (recipient : Address) : Hash :=
  env.sha256 [challenge, recipient]

/-- The record after a wrong response; the last attempt fails the challenge. -/
def RecipientAuth.missed (auth : RecipientAuth) : RecipientAuth :=
  if maxRecipientAuthAttempts ≤ auth.attempts + 1 then
    { auth with attempts := auth.attempts + 1, status := .failed, challenge := none }
  else { auth with attempts := auth.attempts + 1 }

def respondRecipientChallenge (env : Env) (recipient : Address) (id : ℕ) (response : Hash) : AuthM Bool := do
  onLedger (requireNotPaused env)
  requireAuth env.toLedger recipient
  let s ← get
  let auth ← orPanic (s.auths id recipient) "no challenge issued"
  require (auth.status = .challengeIssued) (.panic "no active challenge")
  let challenge ← orPanic auth.challenge "no active challenge"
  if auth.expiresAt < env.now then do
    saveRecipientAuth { auth with status := .expired, challenge := none }
    pure false
  else if response = recipientChallengeResponse env challenge recipient then do
    saveRecipientAuth { auth with status := .verified, challenge := none, verifiedAt := some env.now }
    pure true
  else do
    require (auth.attempts + 1 ≤ u32Max) .overflow
    saveRecipientAuth auth.missed
    pure false

def revokeRecipientVerification (env : Env) (caller : Address) (id : ℕ) (recipient : Address) : AuthM Unit := do
  onLedger (requireNotPaused env)
  requireAuth env.toLedger caller
  let inv ← onLedger (loadInvoice id)
  requireCreatorOrCocreator inv caller
  let s ← get
  let auth ← orPanic (s.auths id recipient) "no verification record"
  saveRecipientAuth { auth with status := .revoked, challenge := none, verifiedAt := none }

/-! ## Who is cleared -/

section Clearance

variable {s t u : Store}

/-- The stored invoice passes the check of its recipients, if there is one. -/
def cleared (s : Store) (id : ℕ) : Bool := (s.entries id).invoice.all (recipientsVerified (s.entries id))

/-- The recipient may be paid for the invoice. -/
def clearedFor (s : Store) (id : ℕ) (recipient : Address) : Bool :=
  !(s.entries id).authRequired || (s.entries id).recipientVerified recipient

/-- No recipient of an invoice is paid for it without the verification that the invoice requires. -/
def PaysVerified (s t : Store) : Prop :=
  ∃ new, t.log = new ++ s.log ∧ ∀ m ∈ new, m.memo.purpose.reachesRecipient = true →
    ∀ inv ∈ (s.entries m.memo.invoice).invoice, m.dst ∈ inv.recipients →
      clearedFor s m.memo.invoice m.dst = true

theorem clearedFor_of_cleared {id : ℕ} {inv : Invoice} {recipient : Address} (h : cleared s id = true)
    (hinv : inv ∈ (s.entries id).invoice) (hmem : recipient ∈ inv.recipients) :
    clearedFor s id recipient = true := by
  have hverified : recipientsVerified (s.entries id) inv = true := by
    rw [cleared, Option.mem_def.1 hinv, Option.all_some] at h
    exact h
  unfold clearedFor
  rw [recipientsVerified, Bool.or_eq_true] at hverified
  rw [Bool.or_eq_true]
  exact hverified.imp_right fun hall => List.all_eq_true.1 hall recipient hmem

theorem cleared_congr {id : ℕ} (h : (t.entries id).screen = (s.entries id).screen) :
    cleared t id = cleared s id := by
  have hkey : ∀ e : Entry, e.invoice.all (recipientsVerified e) =
      e.screen.1.all fun recipients => !e.screen.2.1 || recipients.all e.screen.2.2 := by
    intro e
    unfold Entry.screen recipientsVerified
    cases e.invoice <;> rfl
  unfold cleared
  rw [hkey, hkey, h]

end Clearance

/-! ## Calls that pay for one invoice -/

/-- Movements to recipients are made for the invoice only. -/
abbrev PaysFor (id : ℕ) : Store → Store → Prop :=
  Grows fun memo => memo.purpose.reachesRecipient = true → memo.invoice = id

/-- Movements to recipients are made for the invoice and go to one recipient. -/
def Serves (id : ℕ) (recipient : Address) (s t : Store) : Prop :=
  ∃ new, t.log = new ++ s.log ∧
    ∀ m ∈ new, m.memo.purpose.reachesRecipient = true → m.memo.invoice = id ∧ m.dst = recipient

section Single

variable {env : Env} {s t u : Store} {v : Unit} {id k : ℕ} {inv : Invoice} {recipient : Address}

instance moves_paysFor {purpose : Purpose} : Moves (PaysFor id) ⟨id, purpose⟩ := moves_grows fun _ => rfl

instance releaseMoves_paysFor : ReleaseMoves (PaysFor id) id := ⟨fun _ _ => moves_paysFor⟩

theorem PaysFor.paysVerified (h : PaysFor id s t) (hcleared : cleared s id = true) : PaysVerified s t := by
  obtain ⟨new, hlog, hnew⟩ := h
  refine ⟨new, hlog, fun m hm hreaches inv hinv hmem => ?_⟩
  rw [hnew m hm hreaches] at hinv ⊢
  exact clearedFor_of_cleared hcleared hinv hmem

theorem Serves.paysVerified (h : Serves id recipient s t) (hcleared : clearedFor s id recipient = true) :
    PaysVerified s t := by
  obtain ⟨new, hlog, hnew⟩ := h
  refine ⟨new, hlog, fun m hm hreaches inv hinv hmem => ?_⟩
  obtain ⟨hid, hdst⟩ := hnew m hm hreaches
  rw [hid, hdst]
  exact hcleared

theorem Serves.of_log (h : t.log = s.log) : Serves id recipient s t := ⟨[], by simpa using h, by simp⟩

instance serves_refl : Std.Refl (Serves id recipient) := ⟨fun _ => .of_log rfl⟩

instance serves_trans : IsTrans Store (Serves id recipient) := ⟨fun _ _ _ => grown_trans⟩

theorem moves_serves {memo : Memo} (h : memo.purpose.reachesRecipient = false) :
    Moves (Serves id recipient) memo := by
  refine ⟨fun s m hm => ⟨[m], rfl, fun m' hm' hreaches => ?_⟩⟩
  rw [List.mem_singleton.1 hm', hm, h] at hreaches
  cases hreaches

instance moves_serves_tax : Moves (Serves id recipient) ⟨k, .tax⟩ := moves_serves rfl

instance notes_serves : Notes (Serves id recipient) k := ⟨fun _ _ _ => .of_log rfl⟩

instance saves_serves : Saves (Serves id recipient) k inv := ⟨fun _ _ _ => .of_log rfl⟩

instance counts_serves : Counts (Serves id recipient) := ⟨fun _ _ _ => .of_log rfl⟩

instance framed_modifyEntry_serves {f : Entry → Entry} : Framed (Serves id recipient) (modifyEntry k f) :=
  .of (.modify fun _ => .of_log rfl)

/-- The movement to the recipient itself. -/
theorem serves_movement {m : Transfer Memo} (hid : m.memo.invoice = id) (hdst : m.dst = recipient) :
    Serves id recipient s (s.withLog (m :: s.log)) := by
  refine ⟨[m], rfl, fun m' hm' _ => ?_⟩
  rw [List.mem_singleton.1 hm']
  exact ⟨hid, hdst⟩

instance framed_transfer_serves {token : Address} {amount : ℤ} {purpose : Purpose} :
    Framed (Serves id recipient) (transfer env token recipient amount ⟨id, purpose⟩) := by
  refine .of fun s v t hrun => ?_
  obtain ⟨-, rfl⟩ := transfer_ok.1 hrun
  exact serves_movement rfl rfl

instance framed_tryTransfer_serves {token : Address} {amount : ℤ} {purpose : Purpose} :
    Framed (Serves id recipient) (tryTransfer env token recipient amount ⟨id, purpose⟩) := by
  refine .of fun s sent t hrun => ?_
  obtain ⟨-, rfl⟩ := tryTransfer_ok.1 hrun
  split
  · exact serves_movement rfl rfl
  · exact refl_of (Serves id recipient) s

theorem framed_releaseToRecipient_serves :
    Framed (Serves id recipient) (releaseToRecipient env id recipient) := by
  unfold releaseToRecipient bookRecipientPaid bookRecipientFailed
  infer_instance

theorem framed_claim_serves : Framed (Serves id recipient) (claim env id recipient) := by
  unfold claim
  infer_instance

theorem framed_claimFallback_serves : Framed (Serves id recipient) (claimFallback env recipient id) := by
  unfold claimFallback
  infer_instance

theorem framed_dripClaim_serves {releaseTimestamp : Option ℕ} :
    Framed (Serves id recipient) (dripClaim env releaseTimestamp id recipient) := by
  unfold dripClaim
  infer_instance

theorem framed_retryFailedPayout_serves :
    Framed (Serves id recipient) (retryFailedPayout env id recipient) := by
  unfold retryFailedPayout finishRetry
  infer_instance

instance framed_markTranche_grows {M : Memo → Prop} {index : ℕ} : Framed (Grows M) (markTranche k index) :=
  .of (.modify fun _ => .of_log rfl)

instance framed_modifyStats_grows {M : Memo → Prop} {f : Stats → Stats} : Framed (Grows M) (modifyStats f) :=
  .of (.modify fun _ => .of_log rfl)

end Single

/-! ## Releases -/

/-- A movement that pays nobody for invoice `k`. -/
def sparesPayees (k : ℕ) (memo : Memo) : Prop := memo.invoice = k → memo.purpose.reachesRecipient = false

/-- A call that leaves the recipients of invoice `k` and what is known about them, and pays nobody for
the invoice. -/
structure Apart (k : ℕ) (s t : Store) : Prop where
  screen : (t.entries k).screen = (s.entries k).screen
  payouts : Grows (sparesPayees k) s t

section Releases

variable {env : Env} {s t u : Store} {v : Unit} {id k depth : ℕ} {inv : Invoice} {actor : Address}

instance apart_refl : Std.Refl (Apart k) := ⟨fun s => ⟨rfl, refl_of (Grows _) s⟩⟩

instance apart_trans : IsTrans Store (Apart k) :=
  ⟨fun _ _ _ h₁ h₂ => ⟨h₂.screen.trans h₁.screen, trans_of (Grows _) h₁.payouts h₂.payouts⟩⟩

theorem apart_setEntry {e : Entry} (h : e.screen = (s.entries id).screen) : Apart k s (s.setEntry id e) := by
  refine ⟨?_, .of_log rfl⟩
  rcases eq_or_ne k id with rfl | hk
  · rw [Store.setEntry_self, h]
  · rw [Store.setEntry_ne s hk]

instance notes_apart : Notes (Apart k) id := by
  refine ⟨fun s e hcore => apart_setEntry ?_⟩
  have hscreen : e.core.screen = (s.entries id).core.screen := by rw [hcore]
  exact hscreen

instance credits_apart : Credits (Apart k) id := ⟨fun _ _ => apart_setEntry rfl⟩

instance counts_apart : Counts (Apart k) := ⟨fun _ _ _ => ⟨rfl, .of_log rfl⟩⟩

instance countsVolume_apart : CountsVolume (Apart k) := ⟨fun _ _ => ⟨rfl, .of_log rfl⟩⟩

theorem moves_apart {memo : Memo} (h : sparesPayees k memo) : Moves (Apart k) memo :=
  ⟨fun s m hm => ⟨rfl, (moves_grows h).move s m hm⟩⟩

section Other

variable [hne : Fact (k ≠ id)]

instance moves_apart_other {purpose : Purpose} : Moves (Apart k) ⟨id, purpose⟩ :=
  moves_apart fun hid => absurd hid.symm hne.out

instance saves_apart_other : Saves (Apart k) id inv :=
  ⟨fun _ _ s => ⟨by rw [Store.setEntry_ne s hne.out], .of_log rfl⟩⟩

end Other

/-- The stored invoice has the recipients of this one. -/
def Matches (s : Store) (id : ℕ) (inv : Invoice) : Prop :=
  (s.entries id).invoice.map Invoice.recipients = some inv.recipients

theorem matches_load (hload : (s.entries id).load = some inv) : Matches s id inv := by
  obtain ⟨stored, hstored, rfl⟩ := Option.map_eq_some_iff.1 hload
  rw [Matches, hstored]
  rfl

theorem Matches.congr (h : Matches s id inv) (hscreen : (t.entries id).screen = (s.entries id).screen) :
    Matches t id inv := by
  have hrecipients : (t.entries id).invoice.map Invoice.recipients =
      (s.entries id).invoice.map Invoice.recipients := congrArg Prod.fst hscreen
  exact hrecipients.trans h

theorem Matches.save {inv' : Invoice} (h : Matches s id inv) (hrun : saveInvoice env id inv' s = .ok (v, t))
    (hrecipients : inv'.recipients = inv.recipients) : Apart k s t := by
  obtain ⟨-, rfl⟩ := saveInvoice_ok.1 hrun
  refine apart_setEntry ?_
  have hstored : some (inv'.withPayments []).recipients = (s.entries id).invoice.map Invoice.recipients :=
    (congrArg some hrecipients).trans h.symm
  exact congrArg (fun recipients =>
    (recipients, (s.entries id).authRequired, (s.entries id).recipientVerified)) hstored

theorem Matches.cleared (h : Matches s id inv) (hverified : recipientsVerified (s.entries id) inv = true) :
    cleared s id = true := by
  obtain ⟨stored, hstored, hrecipients⟩ := Option.map_eq_some_iff.1 h
  rw [Verification.cleared, hstored, Option.all_some, recipientsVerified, hrecipients]
  exact hverified

/-- A release of an invoice that is not cleared does not return. -/
theorem releaseWithin_cleared (hmatches : Matches s id inv)
    (hrun : releaseWithin env depth id inv actor s = .ok (v, t)) : cleared s id = true := by
  cases depth with
  | zero => exact (throw_ok.1 hrun).elim
  | succ depth =>
      exact hmatches.cleared (releaseWithin_succ_ok.1 hrun).2.1

/-! ### The group -/

/-- The stored invoice is not waiting for its release. -/
def Idle (s : Store) (id : ℕ) : Prop := ∀ inv ∈ (s.entries id).invoice, inv.status ≠ .pending

theorem releaseMember_apart (hk : k ≠ id) (hrun : releaseMember env id s = .ok (v, t)) : Apart k s t := by
  have hne : Fact (k ≠ id) := ⟨hk⟩
  have hframed : Framed (Apart k) (releaseMember env id) := by
    unfold releaseMember
    infer_instance
  exact hframed.respects s v t hrun

theorem releaseMembers_apart (members : List ℕ) :
    Respects (Under (fun s => k ∈ members → Idle s k) (Apart k)) (forM members (releaseMember env)) := by
  refine .forM fun member hmember s v t hrun hidle => ?_
  by_cases hk : k = member
  · subst hk
    obtain rfl := releaseMember_idle (hidle hmember) hrun
    exact ⟨hidle, refl_of (Apart k) _⟩
  · have hentry : t.entries k = s.entries k := (releaseMember_outside hk hrun).entries
    refine ⟨fun hmem => ?_, releaseMember_apart hk hrun⟩
    unfold Idle
    rw [hentry]
    exact hidle hmem

theorem releaseGroup_apart (hidle : k ∈ groupMembers s id → Idle s k)
    (hrun : releaseGroup env id s = .ok (v, t)) : Apart k s t := by
  refine (releaseMembers_apart _ s v t (releaseGroup_ok hrun) fun hmem => hidle ?_).2
  exact (List.mem_filter.1 hmem).1

/-! ### Forwarding -/

/-- What a nested release does to an invoice that is not cleared. -/
def NextApart (k : ℕ) (next : ℕ → Invoice → Address → SplitM Unit) : Prop :=
  ∀ {id inv actor s t} {v : Unit}, cleared s k = false → Matches s id inv → (s.entries id).group = none →
    next id inv actor s = .ok (v, t) → Apart k s t

theorem forwardToInvoice_apart {next : ℕ → Invoice → Address → SplitM Unit} {leftover : ℤ}
    (hnext : NextApart k next) (hheld : cleared s k = false)
    (hrun : forwardToInvoice env next id leftover s = .ok (v, t)) : Apart k s t := by
  obtain ⟨target, u₁, u₂, hload, hpush, hcumulative, hrun⟩ := forwardToInvoice_ok hrun
  have hbefore : ∀ j, Apart j s u₂ := fun j => trans_of (Apart j) (framed_pushPayment.respects s _ u₁ hpush)
    (framed_addCumulative.respects u₁ _ u₂ hcumulative)
  have hmatches : Matches u₂ id (target.withFunded (target.funded + leftover)) :=
    (matches_load hload).congr (hbefore id).screen
  rcases hrun with ⟨-, hunguarded, hrun⟩ | ⟨-, hrun⟩
  · have hstill : cleared u₂ k = false := (cleared_congr (hbefore k).screen).trans hheld
    exact trans_of (Apart k) (hbefore k) (hnext hstill hmatches (isGuarded_group hunguarded) hrun)
  · exact trans_of (Apart k) (hbefore k) (hmatches.save hrun rfl)

theorem forwardLeftover_apart {next : ℕ → Invoice → Address → SplitM Unit} {leftover : ℤ}
    (hnext : NextApart k next) (hk : k ≠ id) (hheld : cleared s k = false)
    (hrun : forwardLeftover env next id inv leftover s = .ok (v, t)) : Apart k s t := by
  have hne : Fact (k ≠ id) := ⟨hk⟩
  rcases forwardLeftover_cases hrun with rfl | ⟨addr, -, htransfer⟩ | ⟨-, -, targetId, -, hforward⟩
  · exact refl_of (Apart k) s
  · exact framed_transfer.respects s _ t htransfer
  · exact forwardToInvoice_apart hnext hheld hforward

/-! ### The release -/

theorem releaseFull_apart {next : ℕ → Invoice → Address → SplitM Unit} (hnext : NextApart k next)
    (hk : k ≠ id) (hheld : cleared s k = false) (hidle : k ∈ groupMembers s id → Idle s k)
    (hrun : releaseFull env next id inv actor s = .ok (v, t)) : Apart k s t := by
  have hne : Fact (k ≠ id) := ⟨hk⟩
  obtain ⟨platformFee, plan, failed, u₁, u₂, u₃, u₄, -, -, hpaid, hgroup, hinsurance, hforward, hfinish⟩ :=
    releaseFull_passes hrun
  have h₁ : Apart k s u₁ := framed_payPasses.respects s _ u₁ hpaid
  have hentry : u₁.entries k = s.entries k := by
    have houtside : Outside k s u₁ := framed_payPasses.respects s _ u₁ hpaid
    exact houtside.entries
  have hchange : Change Set.univ anyMemo s u₁ := change_of_framed framed_payPasses hpaid
  have h₂ : Apart k u₁ u₂ := by
    refine releaseGroup_apart (fun hmem => ?_) hgroup
    unfold Idle
    rw [hentry]
    exact hidle (groupMembers_congr hchange ▸ hmem)
  have h₃ : Apart k u₂ u₃ := framed_returnInsurance.respects u₂ _ u₃ hinsurance
  have hbefore : Apart k s u₃ := trans_of (Apart k) h₁ (trans_of (Apart k) h₂ h₃)
  have h₄ : Apart k u₃ u₄ := by
    refine forwardLeftover_apart hnext hk ?_ hforward
    rw [cleared_congr hbefore.screen, hheld]
  have h₅ : Apart k u₄ t := framed_finishRelease.respects u₄ _ t hfinish
  exact trans_of (Apart k) hbefore (trans_of (Apart k) h₄ h₅)

/-- A release pays nobody for an invoice that is not cleared, unless the invoice waits for its release in
the same group. -/
theorem releaseWithin_apart (hheld : cleared s k = false) (hmatches : Matches s id inv)
    (hidle : k ∈ groupMembers s id → k ≠ id → Idle s k)
    (hrun : releaseWithin env depth id inv actor s = .ok (v, t)) : Apart k s t := by
  induction depth generalizing s t id inv actor with
  | zero => exact (throw_ok.1 hrun).elim
  | succ depth ih =>
      have hk : k ≠ id := by
        rintro rfl
        rw [releaseWithin_cleared hmatches hrun] at hheld
        cases hheld
      have hnext : NextApart k (releaseWithin env depth) := by
        intro id inv actor s t v hheld hmatches hgroup hrun
        refine ih hheld hmatches (fun hmem => ?_) hrun
        rw [groupMembers_none hgroup] at hmem
        cases hmem
      obtain ⟨-, -, ⟨-, hrun⟩ | ⟨-, hrun⟩⟩ := releaseWithin_succ_ok.1 hrun
      · exact releaseFull_apart hnext hk hheld (fun hmem => hidle hmem hk) hrun
      · have hne : Fact (k ≠ id) := ⟨hk⟩
        exact framed_releaseTranches.respects s _ t hrun

end Releases

/-! ## Payments -/

/-- A late payment owes a penalty, which goes straight to the recipients. -/
def penaltyDue (env : Env) (amount : ℤ) (inv : Invoice) : Bool :=
  decide (inv.penaltyDeadline < env.now ∧ 0 < penaltyRate env inv) &&
    (plainMulDiv (asU128 amount) (penaltyRate env inv) 10000).toOption.any (0 < ·)

section Payments

variable {env : Env} {s t u : Store} {v : Unit} {id k : ℕ} {inv paid : Invoice} {payer : Address}
  {amount target credited premium : ℤ}

theorem payPenalty_idle (hdue : penaltyDue env amount inv = false)
    (hrun : payPenalty env id inv payer amount s = .ok (v, t)) : t = s := by
  unfold penaltyDue at hdue
  rcases onlyIf_ok.1 hrun with ⟨hlate, hrun⟩ | ⟨-, rfl⟩
  · obtain ⟨penalty, hpenalty, hrun⟩ := ofResult_bind.1 hrun
    rw [hpenalty, decide_eq_true hlate] at hdue
    rcases onlyIf_ok.1 hrun with ⟨hpos, -⟩ | ⟨-, rfl⟩
    · exact absurd hpos (of_decide_eq_false hdue)
    · rfl
  · rfl

instance moves_apart_payment : Moves (Apart k) ⟨id, .payment⟩ := moves_apart fun _ => rfl

instance moves_apart_surplus : Moves (Apart k) ⟨id, .surplus⟩ := moves_apart fun _ => rfl

instance moves_apart_donation : Moves (Apart k) ⟨id, .donation⟩ := moves_apart fun _ => rfl

theorem takePayment_apart (hdue : k = id → penaltyDue env amount inv = false)
    (hrun : takePayment env payer id inv amount credited premium s = .ok (v, t)) : Apart k s t := by
  obtain ⟨_, u₁, hcollect, hrun⟩ := bind_ok.1 hrun
  obtain ⟨_, u₂, hexcess, hpenalty⟩ := bind_ok.1 hrun
  have h₁ : Apart k s u₁ := framed_collect.respects s _ u₁ hcollect
  have h₂ : Apart k u₁ u₂ := framed_passOnExcess.respects u₁ _ u₂ hexcess
  have h₃ : Apart k u₂ t := by
    by_cases hk : k = id
    · rw [payPenalty_idle (hdue hk) hpenalty]
      exact refl_of (Apart k) u₂
    · have hne : Fact (k ≠ id) := ⟨hk⟩
      exact framed_payPenalty.respects u₂ _ t hpenalty
  exact trans_of (Apart k) h₁ (trans_of (Apart k) h₂ h₃)

instance notes_keeps_screen : Notes (Keeps Entry.screen) id := by
  refine ⟨fun s e hcore => keeps_setEntry ?_⟩
  have hscreen : e.core.screen = (s.entries id).core.screen := by rw [hcore]
  exact hscreen

instance credits_keeps_screen : Credits (Keeps Entry.screen) id := ⟨fun _ _ => keeps_setEntry rfl⟩

/-- The milestones of an invoice that is not cleared wait. -/
theorem maybeReleaseMilestones_apart (hheld : cleared s k = false) (hmatches : Matches s id inv)
    (hrun : maybeReleaseMilestones env id inv s = .ok (paid, t)) :
    Apart k s t ∧ paid.recipients = inv.recipients := by
  have hrecipients : paid.recipients = inv.recipients :=
    maybeReleaseMilestones_field Invoice.recipients (fun _ => rfl) (fun _ => rfl) hrun
  refine ⟨?_, hrecipients⟩
  by_cases hk : k = id
  · subst hk
    have hwaits : recipientsVerified (s.entries k) inv = false := by
      rw [← Bool.not_eq_true]
      intro hverified
      rw [hmatches.cleared hverified] at hheld
      cases hheld
    obtain ⟨-, -, rfl⟩ | ⟨-, hverified, -⟩ := maybeReleaseMilestones_cases hrun
    · exact refl_of (Apart k) _
    · rw [hwaits] at hverified
      cases hverified
  · have hne : Fact (k ≠ id) := ⟨hk⟩
    exact framed_maybeReleaseMilestones.respects s _ t hrun

theorem settlePayment_apart (hheld : cleared s k = false) (hmatches : Matches s id inv)
    (hrun : settlePayment env id inv target payer s = .ok (v, t)) : Apart k s t := by
  have hhold : (startHold env inv).recipients = inv.recipients :=
    startHold_field Invoice.recipients (fun _ => rfl) env
  obtain ⟨-, u, hrecord, hend⟩ | ⟨-, hrun⟩ := settlePayment_cases hrun
  · have hrecorded : ∀ j, Apart j s u := fun _ => framed_recordFunded.respects s _ u hrecord
    have hstill : Matches u id inv := hmatches.congr (hrecorded id).screen
    rcases hend with ⟨-, hrun⟩ | ⟨hunguarded, hrun⟩
    · exact trans_of (Apart k) (hrecorded k) (hstill.save hrun hhold)
    · have hfree : isGuarded (u.entries id) (startHold env inv) = false :=
        isGuarded_of_payGuarded hunguarded
      have hholds : Matches u id (startHold env inv) := hstill.trans (congrArg some hhold.symm)
      have hstops : cleared u k = false := (cleared_congr (hrecorded k).screen).trans hheld
      refine trans_of (Apart k) (hrecorded k) (releaseWithin_apart hstops hholds (fun hmem => ?_) hrun)
      exact absurd hmem (notMember_of_unguarded hfree)
  · exact hmatches.save hrun rfl

theorem creditPayment_apart {donate : Bool} (hheld : cleared s k = false) (hmatches : Matches s id inv)
    (hdue : k = id → penaltyDue env amount inv = false)
    (hrun : creditPayment env payer id inv amount target donate s = .ok (v, t)) : Apart k s t := by
  obtain ⟨credited, premium, credit, paid, u₁, u₂, u₃, u₄, u₅, u₆, -, -, htake, -, hrecord, hcount, hnotify,
    hmilestones, hreceipt, hsettle⟩ := creditPayment_passes hrun
  have h₁ : Apart k s u₁ := takePayment_apart hdue htake
  have h₂ : Apart k u₁ u₂ := framed_recordPayment.respects u₁ _ u₂ hrecord
  have h₃ : Apart k u₂ u₃ := framed_countPayment.respects u₂ _ u₃ hcount
  have h₄ : Apart k u₃ u₄ := framed_notifyInvoice.respects u₃ _ u₄ hnotify
  have hbefore : Apart k s u₄ := trans_of (Apart k) h₁ (trans_of (Apart k) h₂ (trans_of (Apart k) h₃ h₄))
  have hkept₁ : Keeps Entry.screen s u₁ := framed_takePayment.respects s _ u₁ htake
  have hkept₂ : Keeps Entry.screen u₁ u₂ := framed_recordPayment.respects u₁ _ u₂ hrecord
  have hkept₃ : Keeps Entry.screen u₂ u₃ := framed_countPayment.respects u₂ _ u₃ hcount
  have hkept₄ : Keeps Entry.screen u₃ u₄ := framed_notifyInvoice.respects u₃ _ u₄ hnotify
  have hkept₅ : Keeps Entry.screen u₄ u₅ := framed_maybeReleaseMilestones.respects u₄ _ u₅ hmilestones
  have hcredited : Matches u₄ id (inv.credited (inv.funded + credited) premium credit) :=
    (((hmatches.congr (hkept₁ id)).congr (hkept₂ id)).congr (hkept₃ id)).congr (hkept₄ id)
  have hheld₄ : cleared u₄ k = false := (cleared_congr hbefore.screen).trans hheld
  obtain ⟨h₅, hrecipients⟩ := maybeReleaseMilestones_apart hheld₄ hcredited hmilestones
  obtain rfl := eq_of_framed hreceipt
  have hpaid : Matches u₅ id paid := (hcredited.congr (hkept₅ id)).trans (congrArg some hrecipients.symm)
  have hheld₅ : cleared u₅ k = false := (cleared_congr h₅.screen).trans hheld₄
  exact trans_of (Apart k) hbefore (trans_of (Apart k) h₅ (settlePayment_apart hheld₅ hpaid hsettle))

/-- A payment pays nobody for an invoice that is not cleared, unless it is made for the invoice and owes
a penalty. -/
theorem pay_apart {nonce : ℕ} {donate : Bool} (hheld : cleared s k = false)
    (hdue : k = id → (s.entries id).load.all (fun inv => !penaltyDue env amount inv) = true)
    (hrun : pay env payer id amount nonce donate s = .ok (v, t)) : Apart k s t := by
  obtain ⟨inv, target, credits, u₁, u₂, u₃, -, hcheck, -, hkyc, haccumulate, hrest⟩ := pay_passes hrun
  obtain ⟨stored, hload, -, hresumed⟩ := checkPayment_ok hcheck
  have hfree : k = id → penaltyDue env amount stored = false := by
    intro hk
    have hall := hdue hk
    rw [hload, Option.all_some, Bool.not_eq_true'] at hall
    exact hall
  have hchecked : (∀ j, Apart j s u₁) ∧ inv.recipients = stored.recipients ∧
      (k = id → penaltyDue env amount inv = false) := by
    rcases hresumed with ⟨rfl, rfl⟩ | ⟨rfl, hsave⟩
    · exact ⟨fun j => refl_of (Apart j) _, rfl, hfree⟩
    · exact ⟨fun j => (matches_load hload).save hsave rfl, rfl, hfree⟩
  obtain ⟨h₁, hrecipients, hfree⟩ := hchecked
  obtain rfl := eq_of_framed hkyc
  have h₃ : ∀ j, Apart j u₁ u₃ := fun _ => framed_accumulate.respects u₁ _ u₃ haccumulate
  rcases hrest with ⟨-, u₄, hlimits, hcredit⟩ | ⟨-, rfl⟩
  · have h₄ : ∀ j, Apart j u₃ u₄ := fun _ => framed_checkLimits.respects u₃ _ u₄ hlimits
    have hbefore : ∀ j, Apart j s u₄ := fun j =>
      trans_of (Apart j) (h₁ j) (trans_of (Apart j) (h₃ j) (h₄ j))
    have hmatches : Matches u₄ id inv :=
      ((matches_load hload).congr (hbefore id).screen).trans (congrArg some hrecipients.symm)
    have hstill : cleared u₄ k = false := (cleared_congr (hbefore k).screen).trans hheld
    exact trans_of (Apart k) (hbefore k) (creditPayment_apart hstill hmatches hfree hcredit)
  · exact trans_of (Apart k) (h₁ k) (h₃ k)

end Payments

/-! ## Calls -/

/-- The calls that pay recipients. -/
inductive PayoutCall where
  | release (id : ℕ) (call : ReleaseCall)
  | releaseToRecipient (id : ℕ) (recipient : Address)
  | releaseTranche (id index : ℕ)
  | stageRelease (id : ℕ) (creator : Address)
  | partialRelease (id : ℕ) (creator : Address) (amount : ℤ)
  | dripClaim (id : ℕ) (recipient : Address)
  | claim (id : ℕ) (recipient : Address)
  | claimFallback (recipient : Address) (id : ℕ)
  | retryFailedPayout (id : ℕ) (recipient : Address)
  | pay (payer : Address) (id : ℕ) (amount : ℤ) (nonce : ℕ) (donateOnFailure : Bool)
deriving DecidableEq

def PayoutCall.run (env : Env) (releaseTimestamp : ℕ → Option ℕ) : PayoutCall → SplitM Unit
  | .release id call => (⟨env, call⟩ : ReleaseStep).run id
  | .releaseToRecipient id recipient => Split.releaseToRecipient env id recipient
  | .releaseTranche id index => Split.releaseTranche env id index
  | .stageRelease id creator => Verification.stageRelease env id creator
  | .partialRelease id creator amount => Split.partialRelease env id creator amount
  | .dripClaim id recipient => Verification.dripClaim env (releaseTimestamp id) id recipient
  | .claim id recipient => Split.claim env id recipient
  | .claimFallback recipient id => Split.claimFallback env recipient id
  | .retryFailedPayout id recipient => Split.retryFailedPayout env id recipient
  | .pay payer id amount nonce donate => Split.pay env payer id amount nonce donate

/-- The other members of the group are cleared or do not wait for their release. -/
def groupCleared (s : Store) (id : ℕ) : Bool :=
  (groupMembers s id).all fun member =>
    member = id || cleared s member || (s.entries member).invoice.all (·.status ≠ .pending)

/-- The call looks at the verification of whom it pays, or they are verified anyway. -/
def PayoutCall.screened (env : Env) (s : Store) : PayoutCall → Bool
  | .release id _ => groupCleared s id
  | .releaseTranche id _ | .stageRelease id _ | .partialRelease id _ _ => cleared s id
  | .releaseToRecipient id recipient | .dripClaim id recipient | .claim id recipient
  | .claimFallback recipient id | .retryFailedPayout id recipient => clearedFor s id recipient
  | .pay _ id amount _ _ =>
      cleared s id || (s.entries id).load.all fun inv => !penaltyDue env amount inv

section PayoutCalls

variable {env : Env} {s t : Store} {v : Unit} {id k : ℕ} {releaseTimestamp : ℕ → Option ℕ}
  {call : PayoutCall}

theorem paysVerified_of_apart (hgrows : Grows anyMemo s t)
    (hapart : ∀ k, cleared s k = false → Apart k s t) : PaysVerified s t := by
  obtain ⟨new, hlog, -⟩ := hgrows
  refine ⟨new, hlog, fun m hm hreaches inv hinv hmem => ?_⟩
  cases hcleared : cleared s m.memo.invoice with
  | true => exact clearedFor_of_cleared hcleared hinv hmem
  | false =>
      obtain ⟨new', hlog', hspares⟩ := (hapart _ hcleared).payouts
      obtain rfl : new = new' := List.append_cancel_right (hlog.symm.trans hlog')
      rw [hspares m hm rfl] at hreaches
      cases hreaches

instance moves_grows_any {memo : Memo} : Moves (Grows anyMemo) memo := moves_grows trivial

theorem release_paysVerified {kind : ReleaseCall} (hgroup : groupCleared s id = true)
    (hrun : (⟨env, kind⟩ : ReleaseStep).run id s = .ok (v, t)) : PaysVerified s t := by
  obtain ⟨inv, b, b', t', hload, -, hrelease, rfl⟩ := ReleaseStep.inner hrun
  have hgrows : Grows anyMemo (s.withLock b) t' := framed_releaseAs_open.respects _ _ t' hrelease
  refine paysVerified_of_apart hgrows fun k hheld => ?_
  have hapart : Apart k (s.withLock b) t' := by
    refine releaseWithin_apart (s := s.withLock b) hheld (matches_load hload) (fun hmem hk => ?_) hrelease
    have hmember := List.all_eq_true.1 hgroup k hmem
    rw [hheld, Bool.or_false, decide_eq_false hk, Bool.false_or] at hmember
    intro stored hstored
    have hentry : (s.entries k).invoice = some stored := hstored
    rw [hentry, Option.all_some] at hmember
    exact of_decide_eq_true hmember
  exact ⟨hapart.screen, hapart.payouts⟩

theorem pay_paysVerified {payer : Address} {amount : ℤ} {nonce : ℕ} {donate : Bool}
    (hscreened : (PayoutCall.pay payer id amount nonce donate).screened env s = true)
    (hrun : pay env payer id amount nonce donate s = .ok (v, t)) : PaysVerified s t := by
  have hgrows : Grows anyMemo s t := framed_pay_open.respects s v t hrun
  refine paysVerified_of_apart hgrows fun k hheld => pay_apart hheld (fun hk => ?_) hrun
  subst hk
  have hfree : (cleared s k || (s.entries k).load.all fun inv => !penaltyDue env amount inv) = true := hscreened
  rw [hheld, Bool.false_or] at hfree
  exact hfree

/-- A call that is screened pays verified recipients only. -/
theorem PayoutCall.paysVerified (hscreened : call.screened env s = true)
    (hrun : call.run env releaseTimestamp s = .ok (v, t)) : PaysVerified s t := by
  cases call with
  | release id kind => exact release_paysVerified hscreened hrun
  | releaseToRecipient id recipient =>
      exact (framed_releaseToRecipient_serves.respects s v t hrun).paysVerified hscreened
  | releaseTranche id index =>
      exact PaysFor.paysVerified (framed_releaseTranche.respects s v t hrun) hscreened
  | stageRelease id creator =>
      exact PaysFor.paysVerified (framed_stageRelease.respects s v t hrun) hscreened
  | partialRelease id creator amount =>
      exact PaysFor.paysVerified (framed_partialRelease.respects s v t hrun) hscreened
  | dripClaim id recipient => exact (framed_dripClaim_serves.respects s v t hrun).paysVerified hscreened
  | claim id recipient => exact (framed_claim_serves.respects s v t hrun).paysVerified hscreened
  | claimFallback recipient id =>
      exact (framed_claimFallback_serves.respects s v t hrun).paysVerified hscreened
  | retryFailedPayout id recipient =>
      exact (framed_retryFailedPayout_serves.respects s v t hrun).paysVerified hscreened
  | pay payer id amount nonce donate => exact pay_paysVerified hscreened hrun

/-! ### What the calls keep -/

instance untouched_verification : Untouched Entry.verification := ⟨fun _ => rfl, fun _ _ => rfl, fun _ _ => rfl⟩

theorem framed_modifyEntry_verification {f : Entry → Entry} (hf : ∀ e, (f e).verification = e.verification) :
    Framed (Keeps Entry.verification) (modifyEntry id f) := .of (.modify fun _ => keeps_setEntry (hf _))

theorem framed_releaseToRecipient_verification {recipient : Address} :
    Framed (Keeps Entry.verification) (releaseToRecipient env id recipient) := by
  have hpaid : Framed (Keeps Entry.verification)
      (modifyEntry id fun e => { e with paidRecipients := e.paidRecipients ++ [recipient] }) :=
    framed_modifyEntry_verification fun _ => rfl
  unfold releaseToRecipient bookRecipientPaid bookRecipientFailed
  refine .next fun _ => .next fun inv => ?_
  infer_instance

theorem framed_releaseTranche_verification {index : ℕ} :
    Framed (Keeps Entry.verification) (releaseTranche env id index) := by
  have hmark : Framed (Keeps Entry.verification) (markTranche id index) :=
    framed_modifyEntry_verification fun _ => rfl
  have hstats : ∀ f, Framed (Keeps Entry.verification) (modifyStats f) := fun _ => .of (.modify fun _ _ => rfl)
  exact framed_releaseTranche

theorem framed_claimFallback_verification {recipient : Address} :
    Framed (Keeps Entry.verification) (claimFallback env recipient id) := by
  have hfailed : Framed (Keeps Entry.verification) (modifyEntry id fun e =>
      { e with failedRecord := update e.failedRecord recipient 0 }.removeFailed recipient) :=
    framed_modifyEntry_verification fun _ => rfl
  have hescrow : Framed (Keeps Entry.verification) (modifyEntry id fun e =>
      { e with fallbackEscrow := update e.fallbackEscrow recipient 0 }) :=
    framed_modifyEntry_verification fun _ => rfl
  unfold claimFallback
  infer_instance

theorem framed_retryFailedPayout_verification {recipient : Address} :
    Framed (Keeps Entry.verification) (retryFailedPayout env id recipient) := by
  have hremove : Framed (Keeps Entry.verification) (modifyEntry id fun e => e.removeFailed recipient) :=
    framed_modifyEntry_verification fun _ => rfl
  unfold retryFailedPayout finishRetry
  infer_instance

theorem framed_dripClaim_verification {releasedAt : Option ℕ} {recipient : Address} :
    Framed (Keeps Entry.verification) (dripClaim env releasedAt id recipient) := by
  unfold dripClaim
  infer_instance

theorem framed_claim_verification {recipient : Address} :
    Framed (Keeps Entry.verification) (claim env id recipient) := by
  unfold claim
  infer_instance

theorem release_verification {kind : ReleaseCall} (hrun : (⟨env, kind⟩ : ReleaseStep).run id s = .ok (v, t)) :
    Keeps Entry.verification s t := by
  obtain ⟨inv, b, b', t', -, -, hrelease, rfl⟩ := ReleaseStep.inner hrun
  have hkept : Keeps Entry.verification (s.withLock b) t' := framed_releaseAs_open.respects _ _ t' hrelease
  exact hkept

/-- No payout changes who is verified. -/
theorem PayoutCall.keeps (hrun : call.run env releaseTimestamp s = .ok (v, t)) :
    Keeps Entry.verification s t := by
  cases call with
  | release id kind => exact release_verification hrun
  | releaseToRecipient id recipient => exact framed_releaseToRecipient_verification.respects s v t hrun
  | releaseTranche id index => exact framed_releaseTranche_verification.respects s v t hrun
  | stageRelease id creator => exact framed_stageRelease.respects s v t hrun
  | partialRelease id creator amount => exact framed_partialRelease.respects s v t hrun
  | dripClaim id recipient => exact framed_dripClaim_verification.respects s v t hrun
  | claim id recipient => exact framed_claim_verification.respects s v t hrun
  | claimFallback recipient id => exact framed_claimFallback_verification.respects s v t hrun
  | retryFailedPayout id recipient => exact framed_retryFailedPayout_verification.respects s v t hrun
  | pay payer id amount nonce donate => exact framed_pay_open.respects s v t hrun

end PayoutCalls

/-! ## Runs -/

/-- A call that pays no recipient and leaves alone who is verified. -/
def Neutral (s t : Store) : Prop :=
  Keeps Entry.verification s t ∧ Grows (fun memo => memo.purpose.reachesRecipient = false) s t

inductive AuthCall where
  | setRequired (caller : Address) (id : ℕ) (required : Bool)
  | issue (caller : Address) (id : ℕ) (recipient : Address) (ttlSecs : ℕ)
  | respond (recipient : Address) (id : ℕ) (response : Hash)
  | revoke (caller : Address) (id : ℕ) (recipient : Address)
  | payout (call : PayoutCall)
  | other (x : { x : SplitM Unit // ∀ s v t, x s = .ok (v, t) → Neutral s t })

def authStep (c : Env × AuthCall) : AuthM Unit :=
  match c.2 with
  | .setRequired caller id required => setRecipientAuthRequired c.1 caller id required
  | .issue caller id recipient ttlSecs => ignore (issueRecipientChallenge c.1 caller id recipient ttlSecs)
  | .respond recipient id response => ignore (respondRecipientChallenge c.1 recipient id response)
  | .revoke caller id recipient => revokeRecipientVerification c.1 caller id recipient
  | .payout call => fun s => onLedger (call.run c.1 s.releaseTimestamp) s
  | .other x => onLedger x.1

/-- The call gives the recipient a new challenge or takes the verification away. -/
def AuthCall.resets (k : ℕ) (r : Address) : AuthCall → Bool
  | .issue _ id recipient _ | .revoke _ id recipient => id = k && recipient = r
  | _ => false

/-- A response of the recipient that returns and does not answer the challenge. -/
def isWrong (k : ℕ) (r : Address) (challenge : Hash) (s : AuthStore) (c : Env × AuthCall) : Bool :=
  match c.2 with
  | .respond recipient id response =>
      id = k && recipient = r && response ≠ recipientChallengeResponse c.1 challenge r && (authStep c s).isOk
  | _ => false

/-- How many responses of the calls do not answer the challenge. -/
def wrongSince (k : ℕ) (r : Address) (challenge : Hash) : AuthStore → List (Env × AuthCall) → ℕ
  | _, [] => 0
  | s, c :: cs =>
      (if isWrong k r challenge s c then 1 else 0) + wrongSince k r challenge (commit (authStep c) s) cs

/-- The state after the calls. -/
def after (s : AuthStore) (calls : List (Env × AuthCall)) : AuthStore := runAll authStep s calls

/-- No call that returns challenges the recipient anew or takes the verification away. -/
def Stands (k : ℕ) (r : Address) (s : AuthStore) (calls : List (Env × AuthCall)) : Prop :=
  Along (fun _ c => c.2.resets k r = false) authStep s calls

/-- The latest challenge of the recipient, when it expires and how many responses were wrong since. -/
def Issued (s : AuthStore) (calls : List (Env × AuthCall)) (k : ℕ) (r : Address) (challenge : Hash)
    (expiresAt wrong : ℕ) : Prop :=
  ∃ before env caller ttlSecs t since, calls = before ++ (env, .issue caller k r ttlSecs) :: since ∧
    issueRecipientChallenge env caller k r ttlSecs (after s before) = .ok (challenge, t) ∧
    expiresAt = env.now + ttlSecs ∧ Stands k r t since ∧ wrong = wrongSince k r challenge t since

/-- The recipient has authorised the right response to the latest challenge in time, after fewer wrong
responses than are allowed, and has not been challenged or revoked since. -/
def Proved (s : AuthStore) (calls : List (Env × AuthCall)) (k : ℕ) (r : Address) : Prop :=
  ∃ before env response since challenge expiresAt wrong,
    calls = before ++ (env, .respond r k response) :: since ∧ Issued s before k r challenge expiresAt wrong ∧
    wrong < maxRecipientAuthAttempts ∧ env.auth r = true ∧ env.now ≤ expiresAt ∧
    response = recipientChallengeResponse env challenge r ∧
    Stands k r (after s (before ++ [(env, .respond r k response)])) since

/-- Recipients are paid verified and verified by a response to their challenge only. -/
structure AuthLaw (s : AuthStore) (calls : List (Env × AuthCall)) : Prop where
  paid : ∀ before c, before ++ [c] <+: calls →
    PaysVerified (after s before).ledger (after s (before ++ [c])).ledger
  proved : ∀ before, before <+: calls → ∀ k r,
    ((after s before).ledger.entries k).recipientVerified r = true → Proved s before k r

/-- The calls that return are screened. -/
def Screened (s : AuthStore) (c : Env × AuthCall) : Prop :=
  ∀ call, c.2 = .payout call → call.screened c.1 s.ledger = true

/-- Nobody has been challenged or verified. -/
def Fresh (s : AuthStore) : Prop :=
  ∀ k r, s.auths k r = none ∧ (s.ledger.entries k).recipientVerified r = false

section History

variable {s t u : AuthStore} {c : Env × AuthCall} {v : Unit} {k : ℕ} {r : Address} {auth : RecipientAuth}
  {xs : List (Env × AuthCall)}

/-! ### Records -/

theorem withAuth_auths (s : AuthStore) (auth : RecipientAuth) : (s.withAuth auth).auths =
    update s.auths auth.invoiceId (update (s.auths auth.invoiceId) auth.recipient (some auth)) := rfl

theorem withAuth_self : (s.withAuth auth).auths auth.invoiceId auth.recipient = some auth := by
  rw [withAuth_auths, update_self, update_self]

theorem withAuth_other (h : ¬(auth.invoiceId = k ∧ auth.recipient = r)) :
    (s.withAuth auth).auths k r = s.auths k r := by
  rw [withAuth_auths]
  rcases eq_or_ne k auth.invoiceId with rfl | hk
  · rw [update_self, update_of_ne fun hr => h ⟨rfl, hr.symm⟩]
  · rw [update_of_ne hk]

theorem withAuth_verified_self : ((s.withAuth auth).ledger.entries auth.invoiceId).recipientVerified =
    update (s.ledger.entries auth.invoiceId).recipientVerified auth.recipient auth.isVerified := by
  rw [AuthStore.withAuth, Store.setEntry_self]

theorem withAuth_entry_other (h : k ≠ auth.invoiceId) :
    (s.withAuth auth).ledger.entries k = s.ledger.entries k := Store.setEntry_ne s.ledger h _

/-- The entries of the invoices say who is verified. -/
def Agrees (s : AuthStore) : Prop :=
  ∀ k r, (s.ledger.entries k).recipientVerified r = (s.auths k r).any RecipientAuth.isVerified

theorem Agrees.withAuth (h : Agrees s) : Agrees (s.withAuth auth) := by
  intro k r
  by_cases hsame : auth.invoiceId = k ∧ auth.recipient = r
  · obtain ⟨rfl, rfl⟩ := hsame
    rw [withAuth_self, withAuth_verified_self, update_self, Option.any_some]
  · rw [withAuth_other hsame, ← h k r]
    rcases eq_or_ne k auth.invoiceId with rfl | hk
    · rw [withAuth_verified_self, update_of_ne fun hr => hsame ⟨rfl, hr.symm⟩]
    · rw [withAuth_entry_other hk]

/-- The records are stored under their invoice and recipient. -/
def Keyed (s : AuthStore) : Prop := ∀ k r, ∀ auth ∈ s.auths k r, auth.invoiceId = k ∧ auth.recipient = r

theorem Keyed.withAuth (h : Keyed s) : Keyed (s.withAuth auth) := by
  intro k r auth' hauth'
  by_cases hsame : auth.invoiceId = k ∧ auth.recipient = r
  · obtain ⟨rfl, rfl⟩ := hsame
    rw [withAuth_self] at hauth'
    obtain rfl := Option.some.inj hauth'
    exact ⟨rfl, rfl⟩
  · rw [withAuth_other hsame] at hauth'
    exact h k r auth' hauth'

/-! ### What a call writes -/

/-- How a call came to write a record. -/
inductive Wrote (s : AuthStore) (c : Env × AuthCall) (t : AuthStore) (auth : RecipientAuth) : Prop where
  | issued (caller ttlSecs challenge) (hcall : c.2 = .issue caller auth.invoiceId auth.recipient ttlSecs)
      (hissue : issueRecipientChallenge c.1 caller auth.invoiceId auth.recipient ttlSecs s = .ok (challenge, t))
      (hstatus : auth.status = .challengeIssued) (hchallenge : auth.challenge = some challenge)
      (hexpires : auth.expiresAt = c.1.now + ttlSecs) (hattempts : auth.attempts = 0)
  | revoked (caller) (hcall : c.2 = .revoke caller auth.invoiceId auth.recipient)
      (hstatus : auth.status = .revoked)
  | expired (response) (hcall : c.2 = .respond auth.recipient auth.invoiceId response)
      (hstatus : auth.status = .expired)
  | verified (response old challenge) (hcall : c.2 = .respond auth.recipient auth.invoiceId response)
      (hold : s.auths auth.invoiceId auth.recipient = some old) (hpending : old.status = .challengeIssued)
      (hchallenge : old.challenge = some challenge) (hintime : c.1.now ≤ old.expiresAt)
      (hright : response = recipientChallengeResponse c.1 challenge auth.recipient)
      (hauth : c.1.auth auth.recipient = true) (hstatus : auth.status = .verified)
  | missed (response old challenge) (hcall : c.2 = .respond auth.recipient auth.invoiceId response)
      (hold : s.auths auth.invoiceId auth.recipient = some old) (hpending : old.status = .challengeIssued)
      (hchallenge : old.challenge = some challenge)
      (hwrong : response ≠ recipientChallengeResponse c.1 challenge auth.recipient) (hauth : auth = old.missed)

/-- The call is none about the authentication of recipients. -/
def AuthCall.aside : AuthCall → Bool
  | .issue .. | .respond .. | .revoke .. => false
  | _ => true

/-- The checks that the calls of a creator begin with only read. -/
theorem loads_authenticated {env : Env} {caller : Address} {α : Type} {f : Invoice → AuthM α} {p : α × AuthStore}
    (hrun : (do onLedger (requireNotPaused env); requireAuth env.toLedger caller
                let inv ← onLedger (loadInvoice k); f inv) s = .ok p) : ∃ inv, f inv s = .ok p := by
  obtain ⟨_, u, hpaused, hrun⟩ := focus_bind.1 hrun
  obtain ⟨-, rfl⟩ := requireNotPaused_ok.1 hpaused
  obtain ⟨-, hrun⟩ := requireAuth_bind.1 hrun
  obtain ⟨inv, w, hload, hrun⟩ := focus_bind.1 hrun
  obtain ⟨-, rfl⟩ := loadInvoice_ok.1 hload
  exact ⟨inv, hrun⟩

theorem issueRecipientChallenge_ok {env : Env} {caller : Address} {ttlSecs : ℕ} {challenge : Hash}
    (hrun : issueRecipientChallenge env caller k r ttlSecs s = .ok (challenge, t)) :
    ∃ auth : RecipientAuth, t = { s with nonce := s.nonce + 1 }.withAuth auth ∧ auth.invoiceId = k ∧
      auth.recipient = r ∧ auth.status = .challengeIssued ∧ auth.challenge = some challenge ∧
      auth.expiresAt = env.now + ttlSecs ∧ auth.attempts = 0 := by
  obtain ⟨inv, hrun⟩ := loads_authenticated hrun
  simp only [requireCreatorOrCocreator, require_bind, get_bind] at hrun
  obtain ⟨-, -, -, -, -, hrun⟩ := hrun
  obtain ⟨_, w, hset, hrun⟩ := bind_ok.1 hrun
  obtain rfl := set_ok.1 hset
  obtain ⟨-, hrun⟩ := require_bind.1 hrun
  obtain ⟨_, w, hsave, hrun⟩ := bind_ok.1 hrun
  obtain rfl := modify_ok.1 hsave
  obtain ⟨rfl, rfl⟩ := pure_ok.1 hrun
  exact ⟨_, rfl, rfl, rfl, rfl, rfl, rfl, rfl⟩

theorem respondRecipientChallenge_ok {env : Env} {response : Hash} {b : Bool}
    (hrun : respondRecipientChallenge env r k response s = .ok (b, t)) :
    ∃ old challenge, s.auths k r = some old ∧ old.status = .challengeIssued ∧ old.challenge = some challenge ∧
      env.auth r = true ∧
      (t = s.withAuth { old with status := .expired, challenge := none } ∨
        (env.now ≤ old.expiresAt ∧ response = recipientChallengeResponse env challenge r ∧
          t = s.withAuth { old with status := .verified, challenge := none, verifiedAt := some env.now }) ∨
        (response ≠ recipientChallengeResponse env challenge r ∧ t = s.withAuth old.missed)) := by
  obtain ⟨_, u, hpaused, hrun⟩ := focus_bind.1 hrun
  obtain ⟨-, rfl⟩ := requireNotPaused_ok.1 hpaused
  obtain ⟨hauth, hrun⟩ := requireAuth_bind.1 hrun
  simp only [get_bind, orPanic_bind, require_bind] at hrun
  obtain ⟨old, hold, hpending, challenge, hchallenge, hrun⟩ := hrun
  refine ⟨old, challenge, hold, hpending, hchallenge, hauth.1, ?_⟩
  split_ifs at hrun with hlate hright
  · obtain ⟨_, w, hsave, hrun⟩ := bind_ok.1 hrun
    obtain rfl := modify_ok.1 hsave
    obtain ⟨-, rfl⟩ := pure_ok.1 hrun
    exact .inl rfl
  · obtain ⟨_, w, hsave, hrun⟩ := bind_ok.1 hrun
    obtain rfl := modify_ok.1 hsave
    obtain ⟨-, rfl⟩ := pure_ok.1 hrun
    exact .inr (.inl ⟨not_lt.1 hlate, hright, rfl⟩)
  · obtain ⟨-, hrun⟩ := require_bind.1 hrun
    obtain ⟨_, w, hsave, hrun⟩ := bind_ok.1 hrun
    obtain rfl := modify_ok.1 hsave
    obtain ⟨-, rfl⟩ := pure_ok.1 hrun
    exact .inr (.inr ⟨hright, rfl⟩)

theorem revokeRecipientVerification_ok {env : Env} {caller : Address}
    (hrun : revokeRecipientVerification env caller k r s = .ok (v, t)) :
    ∃ old, s.auths k r = some old ∧
      t = s.withAuth { old with status := .revoked, challenge := none, verifiedAt := none } := by
  obtain ⟨inv, hrun⟩ := loads_authenticated hrun
  simp only [requireCreatorOrCocreator, require_bind, get_bind, orPanic_bind] at hrun
  obtain ⟨-, old, hold, hrun⟩ := hrun
  obtain rfl := modify_ok.1 hrun
  exact ⟨old, hold, rfl⟩

/-- Who is verified stays the same. -/
structure Untold (s t : AuthStore) : Prop where
  auths : t.auths = s.auths
  verified : ∀ k, (t.ledger.entries k).recipientVerified = (s.ledger.entries k).recipientVerified

theorem setRecipientAuthRequired_untold {env : Env} {caller : Address} {required : Bool}
    (hrun : setRecipientAuthRequired env caller k required s = .ok (v, t)) :
    Untold s t ∧ t.ledger.log = s.ledger.log := by
  obtain ⟨inv, hrun⟩ := loads_authenticated hrun
  simp only [requireCreatorOrCocreator, require_bind] at hrun
  obtain ⟨-, -, hrun⟩ := hrun
  obtain ⟨w, hwrite, rfl⟩ := focus_ok.1 hrun
  have hkept : Keeps Entry.recipientVerified s.ledger w ∧ w.log = s.ledger.log := by
    obtain rfl := modifyEntry_ok.1 hwrite
    exact ⟨keeps_setEntry rfl, rfl⟩
  exact ⟨⟨rfl, hkept.1⟩, hkept.2⟩

theorem onLedger_untold {x : SplitM Unit} (hx : ∀ u, x s.ledger = .ok ((), u) → Keeps Entry.verification s.ledger u)
    (hrun : onLedger x s = .ok (v, t)) : Untold s t := by
  obtain ⟨u, hcall, rfl⟩ := focus_ok.1 hrun
  exact ⟨rfl, fun k => congrArg Prod.snd (hx u hcall k)⟩

/-- A call about the authentication of a recipient writes its record, and no other call writes any. -/
theorem authStep_cases (hkeyed : Keyed s) (hrun : authStep c s = .ok (v, t)) :
    (c.2.aside = true ∧ Untold s t) ∨
      ∃ (u : AuthStore) (auth : RecipientAuth), u.auths = s.auths ∧ u.ledger = s.ledger ∧
        t = u.withAuth auth ∧ Wrote s c t auth := by
  obtain ⟨env, call⟩ := c
  cases call with
  | setRequired caller id required => exact .inl ⟨rfl, (setRecipientAuthRequired_untold hrun).1⟩
  | issue caller id recipient ttlSecs =>
      obtain ⟨challenge, hissue⟩ := ignore_ok.1 hrun
      obtain ⟨auth, ht, rfl, rfl, hstatus, hchallenge, hexpires, hattempts⟩ := issueRecipientChallenge_ok hissue
      exact .inr ⟨{ s with nonce := s.nonce + 1 }, auth, rfl, rfl, ht,
        .issued caller ttlSecs challenge rfl hissue hstatus hchallenge hexpires hattempts⟩
  | respond recipient id response =>
      obtain ⟨b, hrespond⟩ := ignore_ok.1 hrun
      obtain ⟨old, challenge, hold, hpending, hchallenge, hauth, hcases⟩ := respondRecipientChallenge_ok hrespond
      obtain ⟨rfl, rfl⟩ := hkeyed id recipient old hold
      rcases hcases with rfl | ⟨hintime, hright, rfl⟩ | ⟨hwrong, rfl⟩
      · exact .inr ⟨s, _, rfl, rfl, rfl, .expired response rfl rfl⟩
      · exact .inr ⟨s, _, rfl, rfl, rfl,
          .verified response old challenge rfl hold hpending hchallenge hintime hright hauth rfl⟩
      · have hkeys : old.missed.invoiceId = old.invoiceId ∧ old.missed.recipient = old.recipient := by
          unfold RecipientAuth.missed
          split <;> exact ⟨rfl, rfl⟩
        exact .inr ⟨s, _, rfl, rfl, rfl, .missed response old challenge (by rw [hkeys.1, hkeys.2])
          (by rw [hkeys.1, hkeys.2, hold]) hpending hchallenge (by rw [hkeys.2]; exact hwrong) rfl⟩
  | revoke caller id recipient =>
      obtain ⟨old, hold, rfl⟩ := revokeRecipientVerification_ok hrun
      obtain ⟨rfl, rfl⟩ := hkeyed id recipient old hold
      exact .inr ⟨s, _, rfl, rfl, rfl, .revoked caller rfl rfl⟩
  | payout call => exact .inl ⟨rfl, onLedger_untold (fun u hcall => call.keeps hcall) hrun⟩
  | other x => exact .inl ⟨rfl, onLedger_untold (fun u hcall => (x.2 _ _ u hcall).1) hrun⟩

/-! ### The history -/

theorem wrongSince_snoc {challenge : Hash} : wrongSince k r challenge s (xs ++ [c]) =
    wrongSince k r challenge s xs + if isWrong k r challenge (after s xs) c then 1 else 0 := by
  induction xs generalizing s with
  | nil =>
      rw [List.nil_append, wrongSince, wrongSince, wrongSince, Nat.add_zero, Nat.zero_add]
      rfl
  | cons x xs ih =>
      rw [List.cons_append, wrongSince, ih, wrongSince, ← Nat.add_assoc]
      rfl

theorem isWrong_returns {challenge : Hash} (h : isWrong k r challenge s c = true) :
    ∃ q, authStep c s = .ok q := by
  unfold isWrong at h
  split at h
  · rw [Bool.and_eq_true] at h
    exact isOk_iff.1 h.2
  · cases h

/-- A challenge stays the latest one while no call resets the recipient. -/
theorem Issued.snoc {challenge : Hash} {expiresAt wrong : ℕ} (h : Issued s xs k r challenge expiresAt wrong)
    (hresets : (∃ q, authStep c (after s xs) = .ok q) → c.2.resets k r = false) :
    Issued s (xs ++ [c]) k r challenge expiresAt
      (wrong + if isWrong k r challenge (after s xs) c then 1 else 0) := by
  obtain ⟨before, env, caller, ttlSecs, t, since, rfl, hissue, hexpires, hstands, rfl⟩ := h
  have hstate : after s (before ++ (env, .issue caller k r ttlSecs) :: since) = runAll authStep t since := by
    have hstep : authStep (env, .issue caller k r ttlSecs) (after s before) = .ok ((), t) :=
      ignore_ok.2 ⟨challenge, hissue⟩
    have hafter : after s (before ++ (env, .issue caller k r ttlSecs) :: since) =
        runAll authStep (commit (authStep (env, .issue caller k r ttlSecs)) (after s before)) since := by
      rw [after, runAll_append, runAll_cons]
      rfl
    rw [hafter, commit_ok hstep]
  refine ⟨before, env, caller, ttlSecs, t, since ++ [c], by simp, hissue, hexpires, ?_, ?_⟩
  · refine along_snoc.2 ⟨hstands, ?_⟩
    rw [← hstate]
    exact hresets
  · rw [wrongSince_snoc, hstate]
    rfl

theorem Proved.snoc (h : Proved s xs k r)
    (hresets : (∃ q, authStep c (after s xs) = .ok q) → c.2.resets k r = false) :
    Proved s (xs ++ [c]) k r := by
  obtain ⟨before, env, response, since, challenge, expiresAt, wrong, rfl, hissued, hfew, hauth, hintime, hright,
    hstands⟩ := h
  refine ⟨before, env, response, since ++ [c], challenge, expiresAt, wrong, by simp, hissued, hfew, hauth,
    hintime, hright, along_snoc.2 ⟨hstands, ?_⟩⟩
  have hstate : after s (before ++ (env, .respond r k response) :: since) =
      runAll authStep (after s (before ++ [(env, .respond r k response)])) since := by
    rw [after, after, ← runAll_append, List.append_assoc]
    rfl
  rw [← hstate]
  exact hresets

/-- What the records say about the calls that were made. -/
structure Recorded (s₀ : AuthStore) (xs : List (Env × AuthCall)) (s : AuthStore) : Prop where
  agrees : Agrees s
  keyed : Keyed s
  pending : ∀ k r, ∀ auth ∈ s.auths k r, auth.status = .challengeIssued → ∀ challenge ∈ auth.challenge,
    Issued s₀ xs k r challenge auth.expiresAt auth.attempts ∧ auth.attempts < maxRecipientAuthAttempts
  verified : ∀ k r, ∀ auth ∈ s.auths k r, auth.status = .verified → Proved s₀ xs k r

/-- A call that writes no record and resets nobody. -/
theorem Recorded.keep {s₀ : AuthStore} (h : Recorded s₀ xs (after s₀ xs)) (hagrees : Agrees t)
    (hauths : t.auths = (after s₀ xs).auths) (hresets : ∀ k r, c.2.resets k r = false)
    (hright : ∀ k r challenge, isWrong k r challenge (after s₀ xs) c = false) : Recorded s₀ (xs ++ [c]) t := by
  refine ⟨hagrees, fun k r => hauths ▸ h.keyed k r, fun k r auth hauth hstatus challenge hchallenge => ?_,
    fun k r auth hauth hstatus => ?_⟩
  · rw [hauths] at hauth
    obtain ⟨hissued, hfew⟩ := h.pending k r auth hauth hstatus challenge hchallenge
    have hsnoc := hissued.snoc fun _ => hresets k r
    rw [hright, if_neg Bool.false_ne_true, Nat.add_zero] at hsnoc
    exact ⟨hsnoc, hfew⟩
  · rw [hauths] at hauth
    exact (h.verified k r auth hauth hstatus).snoc fun _ => hresets k r

/-- The calls about one recipient say nothing about the others. -/
theorem Wrote.other (h : Wrote s c t auth) (hother : ¬(auth.invoiceId = k ∧ auth.recipient = r)) :
    c.2.resets k r = false ∧ ∀ challenge u, isWrong k r challenge u c = false := by
  obtain ⟨env, call⟩ := c
  have hkey : (decide (auth.invoiceId = k) && decide (auth.recipient = r)) = false := by
    rw [← Bool.decide_and]
    exact decide_eq_false hother
  cases h with
  | issued caller ttlSecs challenge hcall =>
      cases hcall
      exact ⟨hkey, fun _ _ => rfl⟩
  | revoked caller hcall =>
      cases hcall
      exact ⟨hkey, fun _ _ => rfl⟩
  | expired response hcall | verified response old challenge hcall | missed response old challenge hcall =>
      cases hcall
      refine ⟨rfl, fun _ _ => ?_⟩
      simp only [isWrong, hkey, Bool.false_and]

/-- What the record says that a call has written. -/
theorem Recorded.written {s₀ : AuthStore} (h : Recorded s₀ xs (after s₀ xs))
    (hrun : authStep c (after s₀ xs) = .ok (v, t)) (hwrote : Wrote (after s₀ xs) c t auth) :
    (auth.status = .challengeIssued → ∀ challenge ∈ auth.challenge,
      Issued s₀ (xs ++ [c]) auth.invoiceId auth.recipient challenge auth.expiresAt auth.attempts ∧
        auth.attempts < maxRecipientAuthAttempts) ∧
      (auth.status = .verified → Proved s₀ (xs ++ [c]) auth.invoiceId auth.recipient) := by
  cases hwrote with
  | issued caller ttlSecs challenge hcall hissue hstatus hchallenge hexpires hattempts =>
      refine ⟨fun _ challenge' hchallenge' => ?_, fun hverified => ?_⟩
      · obtain rfl := Option.some.inj (hchallenge.symm.trans hchallenge')
        have hc : c = (c.1, .issue caller auth.invoiceId auth.recipient ttlSecs) := Prod.ext rfl hcall
        refine ⟨⟨xs, c.1, caller, ttlSecs, t, [], congrArg (fun x => xs ++ [x]) hc, hissue, hexpires, trivial,
          hattempts⟩, ?_⟩
        rw [hattempts]
        decide
      · rw [hstatus] at hverified
        cases hverified
  | revoked caller hcall hstatus | expired response hcall hstatus =>
      refine ⟨fun hpending => ?_, fun hverified => ?_⟩
      · rw [hstatus] at hpending
        cases hpending
      · rw [hstatus] at hverified
        cases hverified
  | verified response old challenge hcall hold hpending hchallenge hintime hright hauth hstatus =>
      refine ⟨fun hissued => ?_, fun _ => ?_⟩
      · rw [hstatus] at hissued
        cases hissued
      · obtain ⟨hissued, hfew⟩ := h.pending _ _ old hold hpending challenge hchallenge
        have hc : c = (c.1, .respond auth.recipient auth.invoiceId response) := Prod.ext rfl hcall
        exact ⟨xs, c.1, response, [], challenge, old.expiresAt, old.attempts, congrArg (fun x => xs ++ [x]) hc,
          hissued, hfew, hauth, hintime, hright, trivial⟩
  | missed response old challenge hcall hold hpending hchallenge hwrong hauth =>
      have hreturns : (authStep c (after s₀ xs)).isOk = true := isOk_iff.2 ⟨_, hrun⟩
      have hcounts : isWrong auth.invoiceId auth.recipient challenge (after s₀ xs) c = true := by
        unfold isWrong
        rw [hcall]
        simp [hwrong, hreturns]
      have hresets : c.2.resets auth.invoiceId auth.recipient = false := by
        rw [hcall]
        rfl
      obtain ⟨hissued, -⟩ := h.pending _ _ old hold hpending challenge hchallenge
      have hsnoc := hissued.snoc fun _ => hresets
      rw [hcounts, if_pos rfl] at hsnoc
      by_cases hlast : maxRecipientAuthAttempts ≤ old.attempts + 1
      · -- the last attempt fails the challenge
        have hfailed : auth.status = .failed := by
          rw [hauth, RecipientAuth.missed, if_pos hlast]
        rw [hfailed]
        exact ⟨nofun, nofun⟩
      · have hsame : auth.status = old.status ∧ auth.challenge = old.challenge ∧
            auth.expiresAt = old.expiresAt ∧ auth.attempts = old.attempts + 1 := by
          rw [hauth, RecipientAuth.missed, if_neg hlast]
          exact ⟨rfl, rfl, rfl, rfl⟩
        obtain ⟨hstatus, hsameChallenge, hexpires, hattempts⟩ := hsame
        refine ⟨fun _ challenge' hchallenge' => ?_, fun hverified => ?_⟩
        · rw [hsameChallenge, hchallenge] at hchallenge'
          obtain rfl := Option.some.inj hchallenge'
          rw [hexpires, hattempts]
          exact ⟨hsnoc, not_le.1 hlast⟩
        · rw [hstatus, hpending] at hverified
          cases hverified

theorem Recorded.write {s₀ : AuthStore} (h : Recorded s₀ xs (after s₀ xs))
    (hauths : u.auths = (after s₀ xs).auths) (hledger : u.ledger = (after s₀ xs).ledger)
    (hrun : authStep c (after s₀ xs) = .ok (v, u.withAuth auth))
    (hwrote : Wrote (after s₀ xs) c (u.withAuth auth) auth) : Recorded s₀ (xs ++ [c]) (u.withAuth auth) := by
  have hagrees : Agrees u := fun k r => by rw [hauths, hledger, h.agrees k r]
  have hkeyed : Keyed u := fun k r => hauths ▸ h.keyed k r
  obtain ⟨hpending, hverified⟩ := h.written hrun hwrote
  refine ⟨hagrees.withAuth, hkeyed.withAuth, fun k r auth' hauth' hstatus challenge hchallenge => ?_,
    fun k r auth' hauth' hstatus => ?_⟩
  · by_cases hsame : auth.invoiceId = k ∧ auth.recipient = r
    · obtain ⟨rfl, rfl⟩ := hsame
      rw [withAuth_self] at hauth'
      obtain rfl := Option.some.inj hauth'
      exact hpending hstatus challenge hchallenge
    · rw [withAuth_other hsame, hauths] at hauth'
      obtain ⟨hissued, hfew⟩ := h.pending k r auth' hauth' hstatus challenge hchallenge
      obtain ⟨hresets, hright⟩ := hwrote.other hsame
      have hsnoc := hissued.snoc fun _ => hresets
      rw [hright, if_neg Bool.false_ne_true, Nat.add_zero] at hsnoc
      exact ⟨hsnoc, hfew⟩
  · by_cases hsame : auth.invoiceId = k ∧ auth.recipient = r
    · obtain ⟨rfl, rfl⟩ := hsame
      rw [withAuth_self] at hauth'
      obtain rfl := Option.some.inj hauth'
      exact hverified hstatus
    · rw [withAuth_other hsame, hauths] at hauth'
      exact (h.verified k r auth' hauth' hstatus).snoc fun _ => (hwrote.other hsame).1

theorem Recorded.step {s₀ : AuthStore} (h : Recorded s₀ xs (after s₀ xs))
    (hrun : authStep c (after s₀ xs) = .ok (v, t)) : Recorded s₀ (xs ++ [c]) t := by
  rcases authStep_cases h.keyed hrun with ⟨haside, huntold⟩ | ⟨u, auth, hauths, hledger, rfl, hwrote⟩
  · have hagrees : Agrees t := fun k r => by rw [huntold.verified, huntold.auths, h.agrees k r]
    obtain ⟨env, call⟩ := c
    refine h.keep hagrees huntold.auths (fun k r => ?_) fun k r challenge => ?_
    · cases call with
      | issue | respond | revoke => cases haside
      | setRequired | payout | other => rfl
    · cases call with
      | issue | respond | revoke => cases haside
      | setRequired | payout | other => rfl
  · exact h.write hauths hledger hrun hwrote

theorem Recorded.trap {s₀ : AuthStore} {e : SplitFault} (h : Recorded s₀ xs (after s₀ xs))
    (htrap : authStep c (after s₀ xs) = .error e) : Recorded s₀ (xs ++ [c]) (after s₀ xs) := by
  have hreturns : ¬∃ q, authStep c (after s₀ xs) = .ok q := by
    rintro ⟨q, hq⟩
    rw [htrap] at hq
    cases hq
  refine ⟨h.agrees, h.keyed, fun k r auth hauth hstatus challenge hchallenge => ?_,
    fun k r auth hauth hstatus => ?_⟩
  · obtain ⟨hissued, hfew⟩ := h.pending k r auth hauth hstatus challenge hchallenge
    have hsnoc := hissued.snoc fun hq => absurd hq hreturns
    rw [if_neg fun hwrong => hreturns (isWrong_returns hwrong), Nat.add_zero] at hsnoc
    exact ⟨hsnoc, hfew⟩
  · exact (h.verified k r auth hauth hstatus).snoc fun hq => absurd hq hreturns

theorem run_recorded {s₀ : AuthStore} (hfresh : Fresh s₀) (xs : List (Env × AuthCall)) :
    Recorded s₀ xs (after s₀ xs) := by
  refine runAll_history (H := Recorded s₀) ?_ (fun ys c v t h _ hrun => h.step hrun)
    (fun ys c e h htrap => h.trap htrap) (along_true authStep s₀ xs)
  refine ⟨fun k r => ?_, fun k r auth hauth => ?_, fun k r auth hauth => ?_, fun k r auth hauth => ?_⟩
  · rw [(hfresh k r).1, (hfresh k r).2, Option.any_none]
  all_goals
    rw [(hfresh k r).1] at hauth
    cases hauth

/-! ### The law -/

theorem PaysVerified.of_log {s t : Store} (h : t.log = s.log) : PaysVerified s t := ⟨[], by simpa using h, by simp⟩

theorem Neutral.paysVerified {s t : Store} (h : Neutral s t) : PaysVerified s t := by
  obtain ⟨new, hlog, hnew⟩ := h.2
  refine ⟨new, hlog, fun m hm hreaches => ?_⟩
  rw [hnew m hm] at hreaches
  cases hreaches

theorem authStep_paysVerified (hscreened : Screened s c) (hrun : authStep c s = .ok (v, t)) :
    PaysVerified s.ledger t.ledger := by
  obtain ⟨env, call⟩ := c
  cases call with
  | setRequired caller id required => exact .of_log (setRecipientAuthRequired_untold hrun).2
  | issue caller id recipient ttlSecs =>
      obtain ⟨challenge, hissue⟩ := ignore_ok.1 hrun
      obtain ⟨auth, rfl, -⟩ := issueRecipientChallenge_ok hissue
      exact .of_log rfl
  | respond recipient id response =>
      obtain ⟨b, hrespond⟩ := ignore_ok.1 hrun
      obtain ⟨old, challenge, -, -, -, -, hcases⟩ := respondRecipientChallenge_ok hrespond
      rcases hcases with rfl | ⟨-, -, rfl⟩ | ⟨-, rfl⟩ <;> exact .of_log rfl
  | revoke caller id recipient =>
      obtain ⟨old, -, rfl⟩ := revokeRecipientVerification_ok hrun
      exact .of_log rfl
  | payout call =>
      have hcall : onLedger (call.run env s.releaseTimestamp) s = .ok (v, t) := hrun
      obtain ⟨u, hpays, rfl⟩ := focus_ok.1 hcall
      exact PayoutCall.paysVerified (hscreened call rfl) hpays
  | other x =>
      have hcall : onLedger x.1 s = .ok (v, t) := hrun
      obtain ⟨u, hneutral, rfl⟩ := focus_ok.1 hcall
      exact (x.2 _ _ u hneutral).paysVerified

/-- In every run from a contract in which nobody is verified, and whose payouts are screened, recipients
are paid only as verified as their invoice requires, and whoever is verified has authorised the right
response to the latest challenge in time, after fewer wrong ones than are allowed, and was not revoked
since. -/
theorem auth_law {calls : List (Env × AuthCall)} (hfresh : Fresh s) (h : Along Screened authStep s calls) :
    AuthLaw s calls := by
  refine ⟨fun before c hprefix => ?_, fun before _ k r hverified => ?_⟩
  · have hnext : after s (before ++ [c]) = commit (authStep c) (after s before) := runAll_snoc authStep s before c
    rw [hnext]
    rcases commit_cases (authStep c) (after s before) with ⟨v, hrun⟩ | ⟨-, hsame⟩
    · exact authStep_paysVerified (along_iff.1 h before c hprefix ⟨_, hrun⟩) hrun
    · rw [hsame]
      exact .of_log rfl
  · have hrecorded := run_recorded hfresh before
    rw [hrecorded.agrees k r] at hverified
    obtain ⟨auth, hauth, hstatus⟩ := (Option.any_eq_true _ _).1 hverified
    exact hrecorded.verified k r auth hauth (of_decide_eq_true hstatus)

end History

/-- An environment with a hash that tells its inputs apart. -/
def hashEnv (now : ℕ) : Env :=
  { sampleEnv now 0 with sha256 := fun bytes => bytes.foldl (fun hash b => hash * 1000 + b) 1 }

/-- What the recipient of invoice 1 answers to the challenge with this nonce from time `issued`. -/
def rightResponse (issued recipient nonce : ℕ) : Hash :=
  recipientChallengeResponse (hashEnv issued)
    ((hashEnv issued).sha256 (challengeSeed (hashEnv issued) 1 recipient nonce)) recipient

def unansweredStore : AuthStore := { ledger := sampleStore sampleInvoice [] }

theorem fresh_unanswered : Fresh unansweredStore := by
  intro k r
  refine ⟨rfl, ?_⟩
  change ((if k = 1 then _ else _ : Entry).recipientVerified r) = false
  split <;> rfl

/-- Both recipients are verified, one of them at the second attempt, before the payment that fills the
invoice releases it. -/
def verifiedRun : List (Env × AuthCall) :=
  [(hashEnv 10, .setRequired 2 1 true), (hashEnv 11, .issue 2 1 10 100), (hashEnv 12, .respond 10 1 7),
    (hashEnv 13, .respond 10 1 (rightResponse 11 10 1)), (hashEnv 14, .issue 2 1 11 100),
    (hashEnv 15, .respond 11 1 (rightResponse 14 11 2)), (hashEnv 16, .payout (.pay 20 1 100 0 false))]

theorem auth_law_verified_run :
    releasedOut 1 (after unansweredStore verifiedRun).ledger = 100 ∧ AuthLaw unansweredStore verifiedRun := by
  refine ⟨by decide +kernel, auth_law fresh_unanswered ⟨?_, ?_, ?_, ?_, ?_, ?_, ?_, trivial⟩⟩
  all_goals
    intro _ call hcall
    cases hcall
  decide +kernel

/-- The creator releases a part of what was paid in while nobody has been challenged yet. -/
def unverifiedRun : List (Env × AuthCall) :=
  [(hashEnv 10, .setRequired 2 1 true), (hashEnv 11, .payout (.pay 20 1 40 0 false)),
    (hashEnv 12, .payout (.partialRelease 1 2 40))]

/-- A partial release pays recipients who are not verified. -/
theorem partial_release_pays_unverified :
    ¬∀ (s : AuthStore) (calls : List (Env × AuthCall)), Fresh s → AuthLaw s calls := by
  intro h
  obtain ⟨new, hlog, hnew⟩ := (h unansweredStore unverifiedRun fresh_unanswered).paid (unverifiedRun.take 2)
    (hashEnv 12, .payout (.partialRelease 1 2 40)) (List.prefix_refl _)
  have hpaid : (after unansweredStore unverifiedRun).ledger.log =
      [⟨9, 0, 11, 20, ⟨1, .payout⟩⟩, ⟨9, 0, 10, 20, ⟨1, .payout⟩⟩] ++
        (after unansweredStore (unverifiedRun.take 2)).ledger.log := by decide +kernel
  obtain rfl := List.append_cancel_right (hlog.symm.trans hpaid)
  have hstored : ((after unansweredStore (unverifiedRun.take 2)).ledger.entries 1).invoice.map
      Invoice.recipients = some [10, 11] := by decide +kernel
  obtain ⟨inv, hinv, hrecipients⟩ := Option.map_eq_some_iff.1 hstored
  have hcleared := hnew ⟨9, 0, 10, 20, ⟨1, .payout⟩⟩ (by simp) rfl inv hinv (by simp [hrecipients])
  have hopen : clearedFor (after unansweredStore (unverifiedRun.take 2)).ledger 1 10 = false := by
    decide +kernel
  exact Bool.false_ne_true (hopen.symm.trans hcleared)

end StellarSplit.Split.Verification
