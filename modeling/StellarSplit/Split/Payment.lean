import StellarSplit.Split.Refund

/-!
# Payments

`pay` with its checks, the overfunding policies, the penalty and the
milestones it may release; `pool_pay`, `contribute` and `partial_release`.
A payment that reaches the target of an unguarded invoice releases it.
-/

namespace StellarSplit.Split

open Exec Function Machine

/-! ## The checks of a payment -/

/-- The amount that funds the invoice at this moment. -/
def paymentTarget (env : Env) (inv : Invoice) : Result ℤ :=
  match inv.priceOracle with
  | some oracle =>
      match env.price oracle with
      | some price => .ok (Int.tdiv (inv.baseAmounts.sum * price) 1000000)
      | none => .error (.callFailed oracle)
  | none =>
    match inv.oracle with
    | some oracle =>
        if inv.oracleAssetPairBase.isNone ∨ inv.oracleAssetPairQuote.isNone then
          .error (.panic "oracle_asset_pair required when oracle is set")
        else
          match env.price oracle with
          | some rate =>
              if 0 < rate then .ok (Int.tdiv (inv.total * 1000000) rate)
              else .error (.panic "OracleUnavailable")
          | none => .error (.panic "OracleUnavailable")
    | none => .ok inv.total

/-- The freeze is lifted. -/
def Invoice.resumed (inv : Invoice) : Invoice := { inv with frozen := false, autoResumeAt := none }

/-- Lift the freeze of an invoice whose pause has run out. -/
def autoResume (env : Env) (id : ℕ) (inv : Invoice) : SplitM Invoice :=
  match inv.autoResumeAt with
  | some autoAt =>
      if inv.frozen = true ∧ autoAt ≤ env.now then do
        saveInvoice env id inv.resumed
        pure inv.resumed
      else pure inv
  | none => pure inv

/-- Whether an optional list lets an address pass. -/
def listed (a : Address) (allowed : Option (List Address)) : Prop := ∀ l ∈ allowed, a ∈ l

instance (a : Address) (allowed : Option (List Address)) : Decidable (listed a allowed) :=
  match allowed with
  | none => isTrue (by simp [listed])
  | some l => decidable_of_iff (a ∈ l) (by simp [listed])

/-- The checks on status, time and payer before a payment is taken; `inv` may be resumed. -/
def checkPayment (env : Env) (payer : Address) (id : ℕ) (amount : ℤ) : SplitM Invoice := do
  let stored ← loadInvoice id
  require (stored.status ≠ .deleted) (.panic "InvoiceDeleted")
  require (stored.status = .pending) (.panic "invoice is not pending")
  require (stored.disputed = false) (.panic "invoice is disputed")
  require (env.now ≤ stored.deadline) (.panic "invoice deadline has passed")
  require (0 < amount) (.panic "ZeroAmountNotAllowed")
  let e ← getEntry id
  require (∀ t ∈ e.paymentOpenAt, t ≤ env.now) (.panic "PaymentWindowNotOpen")
  require (∀ t ∈ e.paymentCloseAt, env.now ≤ t) (.panic "PaymentWindowClosed")
  let inv ← autoResume env id stored
  require (inv.frozen = false) (.panic "invoice is frozen")
  require (inv.adminFrozen = false) (.panic "invoice frozen by admin")
  require (listed payer inv.allowedPayers) (.panic "payer not allowed")
  require (listed payer inv.contributorAllowlist) (.panic "ContributorNotAllowed")
  pure inv

/-- `require_kyc` -/
def checkKyc (env : Env) (inv : Invoice) (payer : Address) : SplitM Unit :=
  onlyIf (inv.requireKyc = true) do
    let kyc ← orPanic env.config.kycContract "kyc contract not set"
    invoke env kyc "is_verified"
    require (env.isVerified payer = true) (.panic "kyc required")

def setAccumulator (id : ℕ) (payer : Address) (amount : ℤ) : SplitM Unit :=
  modifyEntry id fun e => { e with accumulator := update e.accumulator payer amount }

/-- The accumulator of small payments; the answer says whether this payment is credited. -/
def accumulate (id : ℕ) (inv : Invoice) (payer : Address) (amount remaining : ℤ) : SplitM Bool :=
  if 0 < inv.minPayment then do
    let e ← getEntry id
    if e.accumulator payer + amount < inv.minPayment then do
      setAccumulator id payer (e.accumulator payer + amount)
      pure false
    else do
      require (inv.overfundingPolicy = .cap → e.accumulator payer + amount ≤ remaining)
        (.panic "InvoiceFullyFunded: payment exceeds remaining balance")
      setAccumulator id payer 0
      pure true
  else pure true

/-- The velocity window of a payer: it starts again when it has run out. -/
def velocityWindow (env : Env) (inv : Invoice) (window : ℕ × ℤ) : ℕ × ℤ :=
  if window.1 + inv.velocityWindow < env.now then (env.now, 0) else window

def incrementNonce (id : ℕ) (payer : Address) : SplitM Unit :=
  modifyEntry id fun e => { e with nonce := update e.nonce payer (e.nonce payer + 1) }

def setVelocity (id : ℕ) (payer : Address) (window : ℕ × ℤ) : SplitM Unit :=
  modifyEntry id fun e => { e with velocity := update e.velocity payer window }

/-- The nonce and the velocity window of the payer on this invoice. -/
def checkLimits (env : Env) (id : ℕ) (inv : Invoice) (payer : Address) (amount : ℤ) (nonce : ℕ) :
    SplitM Unit := do
  require (env.admits id payer amount = true) (.panic "payment rate limit exceeded")
  let e ← getEntry id
  require (nonce = e.nonce payer) (.panic "invalid nonce")
  incrementNonce id payer
  onlyIf (0 < inv.velocityLimit) do
    require ((velocityWindow env inv (e.velocity payer)).2 + amount ≤ inv.velocityLimit)
      (.panic "velocity limit exceeded")
    setVelocity id payer
      ((velocityWindow env inv (e.velocity payer)).1,
        (velocityWindow env inv (e.velocity payer)).2 + amount)

/-! ## Taking the money -/

/-- The part of a payment the invoice is credited with. -/
def creditedAmount (inv : Invoice) (amount remaining : ℤ) : Result ℤ :=
  match inv.overfundingPolicy with
  | .acceptAll => .ok amount
  | .returnSurplus => .ok (min amount (max remaining 0))
  | .cap =>
      match inv.overflowBehavior with
      | .reject =>
          if amount ≤ remaining then .ok amount
          else .error (.panic "InvoiceFullyFunded: payment exceeds remaining balance")
      | .refund => .ok (if amount ≤ remaining then amount else remaining)
      | .donate => .ok (if amount ≤ remaining then amount else remaining)

/-- What happens to the part that is not credited. -/
def passOnExcess (env : Env) (id : ℕ) (inv : Invoice) (payer : Address) (excess : ℤ) :
    SplitM Unit :=
  onlyIf (0 < excess)
    (if inv.overfundingPolicy = .returnSurplus ∨ inv.overflowBehavior = .refund then
      transfer env (fundingTokenFor inv) payer excess ⟨id, .surplus⟩
    else onlyIf (inv.overflowBehavior = .donate) do
      let treasury ← orPanic env.config.treasury "treasury not set"
      transfer env (fundingTokenFor inv) treasury excess ⟨id, .donation⟩)

/-- The penalty rate at this time: the last tier reached, or the flat rate. -/
def penaltyRate (env : Env) (inv : Invoice) : ℕ :=
  if inv.penaltyTiers ≠ [] then
    inv.penaltyTiers.foldl (fun bps t =>
      if t.secondsAfterDeadline ≤ env.now - inv.penaltyDeadline then t.bps else bps) 0
  else inv.penaltyBps

/-- The part of `pot` that recipient `i` gets; the last one gets what is left. -/
def splitShare (inv : Invoice) (pot distributed : ℤ) (i : ℕ) : Result ℤ := do
  let amount ← unwrap inv.amounts[i]?
  if i + 1 = inv.recipients.length then .ok (pot - distributed)
  else plainMulDiv (asU128 pot) (asU128 amount) (asU128 inv.total)

/-- The penalty goes from the payer to the recipients. -/
def payPenaltyShare (env : Env) (id : ℕ) (inv : Invoice) (payer : Address) (penalty : ℤ)
    (distributed : ℤ) (ri : Address × ℕ) : SplitM ℤ := do
  let share ← ofResult (splitShare inv penalty distributed ri.2)
  onlyIf (0 < share) (move env ⟨fundingTokenFor inv, payer, ri.1, share, ⟨id, .penalty⟩⟩)
  pure (distributed + share)

def payPenalty (env : Env) (id : ℕ) (inv : Invoice) (payer : Address) (amount : ℤ) : SplitM Unit :=
  onlyIf (inv.penaltyDeadline < env.now ∧ 0 < penaltyRate env inv) do
    let penalty ← ofResult (plainMulDiv (asU128 amount) (penaltyRate env inv) 10000)
    onlyIf (0 < penalty)
      (ignore (inv.recipients.zipIdx.foldlM (payPenaltyShare env id inv payer penalty) 0))

def getApplicableFee (env : Env) (volume : ℕ) : ℕ :=
  match (env.config.feeTiers.filter fun t => t.volumeThreshold ≤ volume).getLast? with
  | some tier => tier.feeBps
  | none => env.config.platformFeeBps

/-- The fee discount an early payment earns. -/
def earlyBirdCredit (env : Env) (s : Store) (e : Entry) (inv : Invoice) (credited : ℤ) :
    Result ℤ :=
  let standard := getApplicableFee env (s.stats.statsVolume inv.creator)
  if 0 < inv.earlyBirdWindowLedgers ∧
      env.sequence ≤ satAddU32 (e.createdLedger.getD env.sequence) inv.earlyBirdWindowLedgers ∧
      inv.earlyBirdFeeBps < standard then do
    let discount ← plainMulDiv (asU128 credited) (standard - inv.earlyBirdFeeBps) 10000
    .ok (if 0 < discount then satAddI128 inv.earlyBirdFeeCredit discount else inv.earlyBirdFeeCredit)
  else .ok inv.earlyBirdFeeCredit

/-! ## Milestones -/

/-- The share of recipient `i` in a milestone before the cap. -/
def milestoneShare (inv : Invoice) (delta : ℕ) (tranche : ℤ) (acc : ℤ × ℤ) (i : ℕ) : Result ℤ := do
  let amount ← unwrap inv.amounts[i]?
  if i + 1 = inv.recipients.length then .ok (satAddI128 (satSubI128 tranche acc.1) acc.2)
  else checkedBpsOf amount delta 10000

/-- What was paid and the surplus above the caps after one more recipient. -/
def milestoneSums (acc : ℤ × ℤ) (proportional payout : ℤ) : ℤ × ℤ :=
  (if 0 < payout then satAddI128 acc.1 payout else acc.1,
    if payout < proportional then satAddI128 acc.2 (proportional - payout) else acc.2)

/-- One recipient of a milestone; the accumulator is what was paid and the surplus. -/
def payMilestoneShare (env : Env) (id : ℕ) (inv : Invoice) (token : Address) (delta : ℕ)
    (tranche : ℤ) (acc : ℤ × ℤ) (ri : Address × ℕ) : SplitM (ℤ × ℤ) := do
  let proportional ← ofResult (milestoneShare inv delta tranche acc ri.2)
  transferPositive env token ri.1 (cappedShare inv ri.2 proportional) ⟨id, .payout⟩
  pure (milestoneSums acc proportional (cappedShare inv ri.2 proportional))

def addSurplus (id : ℕ) (amount : ℤ) : SplitM Unit :=
  modifyEntry id fun e => { e with surplus := satAddI128 e.surplus amount }

/-- Pay the part between two milestones. -/
def releaseMilestone (env : Env) (id : ℕ) (inv : Invoice) (token : Address) (prevBps bps : ℕ) :
    SplitM Unit := do
  let tranche ← ofResult (checkedBpsOf inv.total (bps - prevBps) 10000)
  let sums ← inv.recipients.zipIdx.foldlM
    (payMilestoneShare env id inv token (bps - prevBps) tranche) (0, 0)
  onlyIf (0 < sums.2) (addSurplus id sums.2)

/-- Release milestones as long as the funding has reached the next one. -/
def milestoneLoop (env : Env) (id : ℕ) (inv : Invoice) (token : Address) :
    List ℕ → ℕ → ℕ → SplitM ℕ
  | [], _, released => pure released
  | bps :: rest, prevBps, released => do
      let threshold ← ofResult (checkedBpsOf inv.total bps 10000)
      if inv.funded < threshold then pure released
      else do
        releaseMilestone env id inv token prevBps bps
        milestoneLoop env id inv token rest bps (released + 1)

/-- The milestone released last. -/
def lastMilestone (inv : Invoice) : ℕ :=
  if inv.milestonesReleased = 0 then 0 else inv.milestones.getD (inv.milestonesReleased - 1) 0

def maybeReleaseMilestones (env : Env) (id : ℕ) (inv : Invoice) : SplitM Invoice := do
  let e ← getEntry id
  if inv.milestones = [] ∨ recipientsVerified e inv = false ∨ inv.total ≤ 0 then pure inv
  else do
    let token ← orPanic inv.tokens.head? "no token"
    let released ← milestoneLoop env id inv token (inv.milestones.drop inv.milestonesReleased)
      (lastMilestone inv) inv.milestonesReleased
    pure (if inv.milestones.length ≤ released then
        (inv.withMilestones released).completed .released env.now
      else inv.withMilestones released)

/-- The milestones are left alone, or paid as far as they are reached. -/
theorem maybeReleaseMilestones_cases {env : Env} {id : ℕ} {inv paid : Invoice} {s t : Store}
    (hrun : maybeReleaseMilestones env id inv s = .ok (paid, t)) :
    ((inv.milestones = [] ∨ recipientsVerified (s.entries id) inv = false ∨ inv.total ≤ 0) ∧
        paid = inv ∧ t = s) ∨
      (inv.milestones ≠ [] ∧ recipientsVerified (s.entries id) inv = true ∧ 0 < inv.total ∧
        ∃ token released, inv.tokens.head? = some token ∧
          milestoneLoop env id inv token (inv.milestones.drop inv.milestonesReleased) (lastMilestone inv)
            inv.milestonesReleased s = .ok (released, t) ∧
          paid = if inv.milestones.length ≤ released then
              (inv.withMilestones released).completed .released env.now
            else inv.withMilestones released) := by
  rw [maybeReleaseMilestones, getEntry_bind] at hrun
  split_ifs at hrun with hidle
  · obtain ⟨rfl, rfl⟩ := pure_ok.1 hrun
    exact .inl ⟨hidle, rfl, rfl⟩
  · simp only [not_or, Bool.not_eq_false, not_le] at hidle
    obtain ⟨token, htoken, hrun⟩ := orPanic_bind.1 hrun
    obtain ⟨released, u, hloop, hrun⟩ := bind_ok.1 hrun
    obtain ⟨rfl, rfl⟩ := pure_ok.1 hrun
    exact .inr ⟨hidle.1, hidle.2.1, hidle.2.2, token, released, htoken, hloop, rfl⟩

/-- What does not depend on the progress of the milestones is as it was. -/
theorem maybeReleaseMilestones_field {α : Type*} (f : Invoice → α) {env : Env} {id : ℕ}
    {inv paid : Invoice} {s t : Store} (hmilestones : ∀ released, f (inv.withMilestones released) = f inv)
    (hclosed : ∀ released, f ((inv.withMilestones released).completed .released env.now) = f inv)
    (hrun : maybeReleaseMilestones env id inv s = .ok (paid, t)) : f paid = f inv := by
  obtain ⟨-, rfl, -⟩ | ⟨-, -, -, token, released, -, -, rfl⟩ := maybeReleaseMilestones_cases hrun
  · rfl
  · split_ifs
    · exact hclosed released
    · exact hmilestones released

/-- No milestone is due. -/
def MilestoneAhead (e : Entry) (inv : Invoice) : Prop :=
  inv.milestones ≠ [] → recipientsVerified e inv = true → 0 < inv.total →
    ∃ bps ∈ (inv.milestones.drop inv.milestonesReleased).head?,
      ∀ threshold, checkedBpsOf inv.total bps 10000 = .ok threshold → inv.funded < threshold

theorem milestoneAhead_of_none {e : Entry} {inv : Invoice} (hnone : inv.milestones = []) : MilestoneAhead e inv :=
  fun hsome => absurd hnone hsome

theorem maybeReleaseMilestones_ahead {env : Env} {id : ℕ} {inv paid : Invoice} {s t : Store}
    (hahead : MilestoneAhead (s.entries id) inv)
    (hrun : maybeReleaseMilestones env id inv s = .ok (paid, t)) : t = s ∧ paid = inv := by
  obtain ⟨-, rfl, rfl⟩ | ⟨hsome, hverified, htotal, token, released, -, hloop, rfl⟩ :=
    maybeReleaseMilestones_cases hrun
  · exact ⟨rfl, rfl⟩
  · obtain ⟨bps, hbps, hnext⟩ := hahead hsome hverified htotal
    obtain ⟨rest, hdue⟩ := List.head?_eq_some_iff.1 hbps
    rw [hdue, milestoneLoop] at hloop
    obtain ⟨threshold, hthreshold, hloop⟩ := ofResult_bind.1 hloop
    rw [if_pos (hnext threshold hthreshold)] at hloop
    obtain ⟨rfl, rfl⟩ := pure_ok.1 hloop
    have hleft : ¬inv.milestones.length ≤ inv.milestonesReleased := by
      intro hout
      rw [List.drop_eq_nil_of_le hout] at hdue
      cases hdue
    rw [if_neg hleft]
    exact ⟨rfl, rfl⟩

/-! ## Pay -/

/-- `(amounts.sum() * min_funding_bps / 10_000)` is not reached. -/
def belowMinFunding (inv : Invoice) : Bool :=
  0 < inv.minFundingBps ∧ inv.funded < Int.tdiv (inv.total * inv.minFundingBps) 10000

/-- The condition oracle has not answered yet, or the minimum funding is not reached. -/
def conditionPending (inv : Invoice) : Bool :=
  (inv.conditionOracle.isSome && !inv.conditionMet) || belowMinFunding inv

/-- What keeps `pay` from releasing a fully funded invoice at once. -/
def payGuarded (env : Env) (e : Entry) (inv : Invoice) : Bool :=
  isGuarded e inv || !inv.milestones.isEmpty || conditionPending inv || e.releaseDelay.isSome ||
    inv.heldUntil.isSome || inv.scheduledReleaseAt.any (env.now < ·)

theorem isGuarded_of_payGuarded {env : Env} {e : Entry} {inv : Invoice} (h : payGuarded env e inv = false) :
    isGuarded e inv = false := by
  simp only [payGuarded, Bool.or_eq_false_iff] at h
  exact h.1.1.1.1.1

/-- Start the escrow hold of a fully funded invoice. -/
def startHold (env : Env) (inv : Invoice) : Invoice :=
  match inv.escrowHoldPeriod with
  | some hold =>
      { inv with heldUntil := some (inv.heldUntil.getD (satAddU32 env.sequence hold)) }
  | none => inv

/-- Starting the hold sets its end and nothing else. -/
theorem startHold_field {α : Type*} (f : Invoice → α) {inv : Invoice}
    (hf : ∀ heldUntil, f { inv with heldUntil := heldUntil } = f inv) (env : Env) :
    f (startHold env inv) = f inv := by
  unfold startHold
  split
  · exact hf _
  · rfl

/-- Remember the ledger in which the invoice was first fully funded. -/
def recordFunded (env : Env) (id : ℕ) : SplitM Unit :=
  modifyEntry id fun e => { e with fundedAtLedger := some (e.fundedAtLedger.getD env.sequence) }

/-- Save the paid invoice, or release it when it is fully funded and unguarded. -/
def settlePayment (env : Env) (id : ℕ) (paid : Invoice) (target : ℤ) (payer : Address) :
    SplitM Unit :=
  if target ≤ paid.funded then do
    recordFunded env id
    let e ← getEntry id
    if payGuarded env e (startHold env paid) = true then saveInvoice env id (startHold env paid)
    else releaseAs env id (startHold env paid) payer
  else saveInvoice env id paid

/-- A paid invoice that is filled is released, unless something guards it; any other is saved. -/
theorem settlePayment_cases {env : Env} {id : ℕ} {paid : Invoice} {target : ℤ} {payer : Address}
    {s t : Store} {v : Unit} (hrun : settlePayment env id paid target payer s = .ok (v, t)) :
    (target ≤ paid.funded ∧ ∃ u, recordFunded env id s = .ok ((), u) ∧
        ((payGuarded env (u.entries id) (startHold env paid) = true ∧
            saveInvoice env id (startHold env paid) u = .ok (v, t)) ∨
          (payGuarded env (u.entries id) (startHold env paid) = false ∧
            releaseAs env id (startHold env paid) payer u = .ok (v, t)))) ∨
      (paid.funded < target ∧ saveInvoice env id paid s = .ok (v, t)) := by
  unfold settlePayment at hrun
  split_ifs at hrun with hfull
  · obtain ⟨_, u, hrecord, hrun⟩ := bind_ok.1 hrun
    rw [getEntry_bind] at hrun
    refine .inl ⟨hfull, u, hrecord, ?_⟩
    split_ifs at hrun with hguarded
    · exact .inl ⟨hguarded, hrun⟩
    · exact .inr ⟨Bool.not_eq_true _ ▸ hguarded, hrun⟩
  · exact .inr ⟨not_le.1 hfull, hrun⟩

def addContribution (id : ℕ) (payer : Address) (amount : ℤ) : SplitM Unit :=
  modifyEntry id fun e => { e with
    contribution := update e.contribution payer (e.contribution payer + amount) }

/-- Record a credited payment in the shard, the contribution and the counters. -/
def recordPayment (id : ℕ) (payer : Address) (credited : ℤ) (donateOnFailure : Bool) :
    SplitM Unit := do
  pushPayment id { payer := payer, amount := credited, donateOnFailure := donateOnFailure }
  addCumulative id credited
  addContribution id payer credited

/-- Count the payment for the creator. -/
def countPayment (creator : Address) (amount : ℤ) : SplitM Unit := do
  let s ← get
  require (s.stats.statsVolume creator + asU64 amount ≤ u64Max) .overflow
  modifyStats fun st => { st with
    statsVolume := update st.statsVolume creator (st.statsVolume creator + asU64 amount) }

/-- The invoice after a payment: the new funding, the premium and the fee credit. -/
def Invoice.credited (inv : Invoice) (funded premium credit : ℤ) : Invoice :=
  { inv with
    funded := funded
    insuranceFund := inv.insuranceFund + premium
    earlyBirdFeeCredit := credit }

/-- Take the money of a payment and credit it. -/
def creditPayment (env : Env) (payer : Address) (id : ℕ) (inv : Invoice) (amount target : ℤ)
    (donateOnFailure : Bool) : SplitM Unit := do
  let credited ← ofResult (creditedAmount inv amount (target - inv.funded))
  let premium ← ofResult (plainMulDiv (asU128 credited) inv.insurancePremiumBps 10000)
  collect env (fundingTokenFor inv) payer (credited + premium + (amount - credited)) ⟨id, .payment⟩
  passOnExcess env id inv payer (amount - credited)
  payPenalty env id inv payer amount
  let s ← get
  let credit ← ofResult (earlyBirdCredit env s (s.entries id) inv credited)
  let funded ← orError (checkedAddI128 inv.funded credited) .arithmeticOverflow
  recordPayment id payer credited donateOnFailure
  countPayment inv.creator credited
  notifyInvoice env inv
  let paid ← maybeReleaseMilestones env id (inv.credited funded premium credit)
  invokeIfSet env env.config.receiptFactory "mint_receipt"
  settlePayment env id paid target payer

/-- `_pay` for a direct payment. -/
def payInner (env : Env) (payer : Address) (id : ℕ) (amount : ℤ) (nonce : ℕ)
    (donateOnFailure : Bool) : SplitM Unit := do
  let inv ← checkPayment env payer id amount
  require (inv.allowedCallers.isNone = true)
    (.panic "direct payments not allowed when caller allowlist is set")
  let target ← ofResult (paymentTarget env inv)
  checkKyc env inv payer
  let credited ← accumulate id inv payer amount (target - inv.funded)
  onlyIf (credited = true) do
    checkLimits env id inv payer amount nonce
    creditPayment env payer id inv amount target donateOnFailure

/-- `pay` without a commitment. -/
def pay (env : Env) (payer : Address) (id : ℕ) (amount : ℤ) (nonce : ℕ) (donateOnFailure : Bool) :
    SplitM Unit := do
  requireFnNotPaused env "pay"
  requireNotFrozen env
  requireAuth env.toLedger payer
  payInner env payer id amount nonce donateOnFailure

/-- The movements of a payment: what is taken, the excess passed on and the penalty. -/
def takePayment (env : Env) (payer : Address) (id : ℕ) (inv : Invoice) (amount credited premium : ℤ) :
    SplitM Unit := do
  collect env (fundingTokenFor inv) payer (credited + premium + (amount - credited)) ⟨id, .payment⟩
  passOnExcess env id inv payer (amount - credited)
  payPenalty env id inv payer amount

section PayPasses

variable {env : Env} {s t : Store} {v : Unit} {id : ℕ} {inv : Invoice} {payer : Address}
  {amount target credited premium : ℤ} {nonce : ℕ} {donate : Bool}

theorem autoResume_ok {stored : Invoice} (hrun : autoResume env id stored s = .ok (inv, t)) :
    (inv = stored ∧ t = s) ∨
      (inv = stored.resumed ∧ (∃ autoAt ∈ stored.autoResumeAt, autoAt ≤ env.now) ∧
        saveInvoice env id stored.resumed s = .ok ((), t)) := by
  unfold autoResume at hrun
  cases hat : stored.autoResumeAt with
  | none =>
      rw [hat] at hrun
      obtain ⟨rfl, rfl⟩ := pure_ok.1 hrun
      exact .inl ⟨rfl, rfl⟩
  | some autoAt =>
      rw [hat] at hrun
      dsimp only at hrun
      split_ifs at hrun with hdue
      · obtain ⟨_, u, hsave, hrun⟩ := bind_ok.1 hrun
        obtain ⟨rfl, rfl⟩ := pure_ok.1 hrun
        exact .inr ⟨rfl, ⟨autoAt, rfl, hdue.2⟩, hsave⟩
      · obtain ⟨rfl, rfl⟩ := pure_ok.1 hrun
        exact .inl ⟨rfl, rfl⟩

/-- The checks of a payment write nothing, or lift the freeze. -/
theorem checkPayment_ok (hrun : checkPayment env payer id amount s = .ok (inv, t)) :
    ∃ stored, (s.entries id).load = some stored ∧ stored.status = .pending ∧
      ((inv = stored ∧ t = s) ∨
        (inv = stored.resumed ∧ saveInvoice env id stored.resumed s = .ok ((), t))) := by
  simp only [checkPayment, loadInvoice_bind, require_bind, getEntry_bind] at hrun
  obtain ⟨stored, hload, -, hpending, -, -, -, -, -, hrun⟩ := hrun
  obtain ⟨resumed, u, hresume, hrun⟩ := bind_ok.1 hrun
  simp only [require_bind] at hrun
  obtain ⟨-, -, -, -, hrun⟩ := hrun
  obtain ⟨rfl, rfl⟩ := pure_ok.1 hrun
  refine ⟨stored, hload, hpending, ?_⟩
  rcases autoResume_ok hresume with hsame | ⟨hresumed, -, hsave⟩
  · exact .inl hsame
  · exact .inr ⟨hresumed, hsave⟩

theorem takePayment_ok :
    takePayment env payer id inv amount credited premium s = .ok (v, t) ↔
      ∃ u₁ u₂, collect env (fundingTokenFor inv) payer (credited + premium + (amount - credited))
          ⟨id, .payment⟩ s = .ok ((), u₁) ∧
        passOnExcess env id inv payer (amount - credited) u₁ = .ok ((), u₂) ∧
        payPenalty env id inv payer amount u₂ = .ok (v, t) := by
  simp only [takePayment, bind_ok]
  constructor
  · rintro ⟨_, u₁, hcollect, _, u₂, hexcess, hpenalty⟩
    exact ⟨u₁, u₂, hcollect, hexcess, hpenalty⟩
  · rintro ⟨u₁, u₂, hcollect, hexcess, hpenalty⟩
    exact ⟨(), u₁, hcollect, (), u₂, hexcess, hpenalty⟩

/-- A credited payment pass by pass. -/
theorem creditPayment_passes (hrun : creditPayment env payer id inv amount target donate s = .ok (v, t)) :
    ∃ credited premium credit paid u₁ u₂ u₃ u₄ u₅ u₆,
      creditedAmount inv amount (target - inv.funded) = .ok credited ∧
      plainMulDiv (asU128 credited) inv.insurancePremiumBps 10000 = .ok premium ∧
      takePayment env payer id inv amount credited premium s = .ok ((), u₁) ∧
      earlyBirdCredit env u₁ (u₁.entries id) inv credited = .ok credit ∧
      recordPayment id payer credited donate u₁ = .ok ((), u₂) ∧
      countPayment inv.creator credited u₂ = .ok ((), u₃) ∧ notifyInvoice env inv u₃ = .ok ((), u₄) ∧
      maybeReleaseMilestones env id (inv.credited (inv.funded + credited) premium credit) u₄ =
        .ok (paid, u₅) ∧
      invokeIfSet env env.config.receiptFactory "mint_receipt" u₅ = .ok ((), u₆) ∧
      settlePayment env id paid target payer u₆ = .ok (v, t) := by
  unfold creditPayment at hrun
  obtain ⟨credited, hcredited, hrun⟩ := ofResult_bind.1 hrun
  obtain ⟨premium, hpremium, hrun⟩ := ofResult_bind.1 hrun
  obtain ⟨_, w₁, hcollect, hrun⟩ := bind_ok.1 hrun
  obtain ⟨_, w₂, hexcess, hrun⟩ := bind_ok.1 hrun
  obtain ⟨_, u₁, hpenalty, hrun⟩ := bind_ok.1 hrun
  rw [get_bind] at hrun
  obtain ⟨credit, hcredit, hrun⟩ := ofResult_bind.1 hrun
  obtain ⟨funded, hsum, hrun⟩ := orError_bind.1 hrun
  obtain ⟨_, u₂, hrecord, hrun⟩ := bind_ok.1 hrun
  obtain ⟨_, u₃, hcount, hrun⟩ := bind_ok.1 hrun
  obtain ⟨_, u₄, hnotify, hrun⟩ := bind_ok.1 hrun
  obtain ⟨paid, u₅, hmilestones, hrun⟩ := bind_ok.1 hrun
  obtain ⟨_, u₆, hreceipt, hsettle⟩ := bind_ok.1 hrun
  obtain rfl : funded = inv.funded + credited := checkedAddI128_eq hsum
  have htake := takePayment_ok.2 ⟨w₁, w₂, hcollect, hexcess, hpenalty⟩
  exact ⟨credited, premium, credit, paid, u₁, u₂, u₃, u₄, u₅, u₆, hcredited, hpremium, htake, hcredit,
    hrecord, hcount, hnotify, hmilestones, hreceipt, hsettle⟩

theorem payInner_passes (hrun : payInner env payer id amount nonce donate s = .ok (v, t)) :
    ∃ inv target credits u₁ u₂ u₃, checkPayment env payer id amount s = .ok (inv, u₁) ∧
      paymentTarget env inv = .ok target ∧ checkKyc env inv payer u₁ = .ok ((), u₂) ∧
      accumulate id inv payer amount (target - inv.funded) u₂ = .ok (credits, u₃) ∧
      ((credits = true ∧ ∃ u₄, checkLimits env id inv payer amount nonce u₃ = .ok ((), u₄) ∧
          creditPayment env payer id inv amount target donate u₄ = .ok (v, t)) ∨
        (credits = false ∧ u₃ = t)) := by
  unfold payInner at hrun
  obtain ⟨inv, u₁, hcheck, hrun⟩ := bind_ok.1 hrun
  obtain ⟨-, hrun⟩ := require_bind.1 hrun
  obtain ⟨target, htarget, hrun⟩ := ofResult_bind.1 hrun
  obtain ⟨_, u₂, hkyc, hrun⟩ := bind_ok.1 hrun
  obtain ⟨credits, u₃, haccumulate, hrun⟩ := bind_ok.1 hrun
  refine ⟨inv, target, credits, u₁, u₂, u₃, hcheck, htarget, hkyc, haccumulate, ?_⟩
  rcases onlyIf_ok.1 hrun with ⟨hcredits, hrun⟩ | ⟨hcredits, rfl⟩
  · obtain ⟨_, u₄, hlimits, hcredit⟩ := bind_ok.1 hrun
    exact .inl ⟨hcredits, u₄, hlimits, hcredit⟩
  · exact .inr ⟨Bool.eq_false_iff.2 hcredits, rfl⟩

/-- A payment pass by pass: it is put by, or credited. -/
theorem pay_passes (hrun : pay env payer id amount nonce donate s = .ok (v, t)) :
    ∃ inv target credits u₁ u₂ u₃, (env.auth payer = true ∧ payer ≠ currentContract) ∧
      checkPayment env payer id amount s = .ok (inv, u₁) ∧ paymentTarget env inv = .ok target ∧
      checkKyc env inv payer u₁ = .ok ((), u₂) ∧
      accumulate id inv payer amount (target - inv.funded) u₂ = .ok (credits, u₃) ∧
      ((credits = true ∧ ∃ u₄, checkLimits env id inv payer amount nonce u₃ = .ok ((), u₄) ∧
          creditPayment env payer id inv amount target donate u₄ = .ok (v, t)) ∨
        (credits = false ∧ u₃ = t)) := by
  simp only [pay, requireFnNotPaused_bind, requireNotFrozen_bind, requireAuth_bind] at hrun
  obtain ⟨-, -, hauth, hinner⟩ := hrun
  obtain ⟨inv, target, credits, u₁, u₂, u₃, hpasses⟩ := payInner_passes hinner
  exact ⟨inv, target, credits, u₁, u₂, u₃, hauth, hpasses⟩

theorem pay_pending (hrun : pay env payer id amount nonce donate s = .ok (v, t)) :
    ∃ inv, (s.entries id).load = some inv ∧ inv.status = .pending := by
  obtain ⟨inv, _, _, _, _, _, -, hcheck, -⟩ := pay_passes hrun
  obtain ⟨stored, hload, hpending, -⟩ := checkPayment_ok hcheck
  exact ⟨stored, hload, hpending⟩

end PayPasses

/-! ## Pool payments and contributions -/

/-- The checks of `_pool_pay` on one payment. -/
def checkPoolPayment (env : Env) (token : Address) (p : InvoicePayment) : SplitM Unit := do
  let inv ← loadInvoice p.invoiceId
  require (inv.status = .pending) (.panic "invoice is not pending")
  require (inv.disputed = false) (.panic "invoice is disputed")
  require (env.now ≤ inv.deadline) (.panic "invoice deadline has passed")
  require (0 < p.amount) (.panic "payment amount must be positive")
  require (inv.funded + p.amount ≤ inv.total) (.panic "payment exceeds remaining balance")
  require (fundingTokenFor inv = token) (.panic "all invoices must use the same token")

/-- Credit one payment of a pool; the invoice is loaded again and its status not looked at. -/
def creditPoolPayment (env : Env) (payer : Address) (p : InvoicePayment) : SplitM Unit := do
  let inv ← loadInvoice p.invoiceId
  pushPayment p.invoiceId { payer := payer, amount := p.amount }
  let funded ← orError (checkedAddI128 inv.funded p.amount) .arithmeticOverflow
  addCumulative p.invoiceId p.amount
  let e ← getEntry p.invoiceId
  if inv.total ≤ funded ∧ isGuarded e inv = false ∧ conditionPending (inv.withFunded funded) = false
  then releaseAs env p.invoiceId (inv.withFunded funded) payer
  else saveInvoice env p.invoiceId (inv.withFunded funded)

/-- The parts of the single transfer that pay for each invoice. -/
def collectPool (env : Env) (token payer : Address) (payments : List InvoicePayment) :
    SplitM Unit :=
  match payments with
  | [] => pure ()
  | p :: _ =>
      collect env token payer (payments.map InvoicePayment.amount).sum ⟨p.invoiceId, .payment⟩

def poolPay (env : Env) (payer : Address) (payments : List InvoicePayment) : SplitM Unit := do
  requireNotPaused env
  requireAuth env.toLedger payer
  let first ← orPanic payments.head? "payments must not be empty"
  let firstInv ← loadInvoice first.invoiceId
  forM payments (checkPoolPayment env (fundingTokenFor firstInv))
  collectPool env (fundingTokenFor firstInv) payer payments
  forM payments (creditPoolPayment env payer)

/-- The part of a contribution that still fits. -/
def appliedAmount (inv : Invoice) (amount : ℤ) : ℤ :=
  if satSubI128 inv.total inv.funded < amount then satSubI128 inv.total inv.funded else amount

/-- The invoice after a contribution: full funding marks it as released. -/
def Invoice.contributed (inv : Invoice) (funded : ℤ) : Invoice :=
  { inv with
    funded := funded
    status := if inv.total ≤ funded then .released else inv.status }

/-- `contribute`: the payment it appends to the loaded record is dropped when the invoice is
saved, and no tokens move. -/
def contribute (env : Env) (id : ℕ) (payer : Address) (amount : ℤ) : SplitM (ℤ × ℤ) := do
  requireNotPaused env
  requireAuth env.toLedger payer
  require (env.admits id payer amount = true) (.panic "PayerSpendLimitExceeded")
  let inv ← loadInvoice id
  require (inv.status ≠ .disputed) (.error .invoiceDisputed)
  require (inv.status = .pending) (.panic "InvoiceNotPending")
  require (env.config.allowedTokens = [] ∨ inv.fundingToken ∈ env.config.allowedTokens)
    (.panic "UnauthorisedToken")
  onlyIf (0 < appliedAmount inv amount) do
    let funded ← orError (checkedAddI128 inv.funded (appliedAmount inv amount)) .arithmeticOverflow
    saveInvoice env id (inv.contributed funded)
  pure (appliedAmount inv amount, amount - appliedAmount inv amount)

/-! ## Partial release -/

/-- The recipients in the order of their priorities, equal ones in list order. -/
def priorityOrder (inv : Invoice) : Result (List ℕ) := do
  let ps ← (List.range inv.recipients.length).mapM fun i => do
    let p ← unwrap inv.priorities[i]?
    .ok (i, p)
  .ok ((ps.insertionSort fun a b => a.2 ≤ b.2).map Prod.fst)

/-- Pay a recipient in full when the rest covers it. -/
def payByPriority (env : Env) (id : ℕ) (inv : Invoice) (token : Address) (remaining : ℤ) (i : ℕ) :
    SplitM ℤ := do
  let recipient ← ofResult (unwrap inv.recipients[i]?)
  let amount ← ofResult (unwrap inv.amounts[i]?)
  onlyIf (amount ≤ remaining) (transfer env token recipient amount ⟨id, .payout⟩)
  pure (if amount ≤ remaining then remaining - amount else remaining)

/-- Pay a recipient the proportional part; the last one gets what is left. -/
def payProportional (env : Env) (id : ℕ) (inv : Invoice) (token : Address) (amount : ℤ)
    (distributed : ℤ) (ri : Address × ℕ) : SplitM ℤ := do
  let share ← ofResult (splitShare inv amount distributed ri.2)
  transferPositive env token ri.1 share ⟨id, .payout⟩
  pure (distributed + share)

/-- The payouts of `partial_release`. -/
def payPartialRelease (env : Env) (id : ℕ) (inv : Invoice) (token : Address) (amount : ℤ) :
    SplitM Unit :=
  if inv.priorities ≠ [] then do
    let order ← ofResult (priorityOrder inv)
    ignore (order.foldlM (payByPriority env id inv token) amount)
  else ignore (inv.recipients.zipIdx.foldlM (payProportional env id inv token amount) 0)

def partialRelease (env : Env) (id : ℕ) (creator : Address) (amount : ℤ) : SplitM Unit := do
  requireNotPaused env
  requireAuth env.toLedger creator
  let inv ← loadInvoice id
  require (inv.creator = creator) (.panic "only creator can call partial_release")
  require (inv.frozen = false) (.panic "invoice is frozen")
  require (inv.disputed = false) (.panic "invoice is disputed")
  require (inv.status = .pending) (.panic "invoice is not pending")
  require (0 < amount) (.panic "amount must be positive")
  require (amount ≤ inv.funded) (.panic "amount exceeds funded balance")
  let token ← orPanic inv.tokens.head? "no token"
  payPartialRelease env id inv token amount
  saveInvoice env id (inv.withFunded (inv.funded - amount))

end StellarSplit.Split
