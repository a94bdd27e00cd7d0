import StellarSplit.Split.Storage

/-!
# Releasing an invoice

The payout plan, the transfer pass over the recipients, the group and
forwarding passes of a full release, and the release of tranches. A
release that leaves a remainder may credit another invoice and release it
in turn; the host's bound on nested calls ends that recursion with a trap.
-/

namespace StellarSplit.Split

open Exec Function Machine

/-! ## Failed payouts -/

def Entry.appendFailed (e : Entry) (recipient : Address) : Entry :=
  if recipient ∈ e.failedPayouts then e
  else { e with failedPayouts := e.failedPayouts ++ [recipient] }

/-- A recipient without an account is only listed. -/
def markMissing (id : ℕ) (recipient : Address) : SplitM Unit :=
  modifyEntry id fun e => e.appendFailed recipient

/-- `record_failed_payout` with reason `TransferFailed` -/
def recordFailedPayout (id : ℕ) (recipient : Address) (amount : ℤ) : SplitM Unit :=
  modifyEntry id fun e =>
    { e with failedRecord := update e.failedRecord recipient amount }.appendFailed recipient

/-- Record a failed payout and the ledger it failed in. -/
def recordFailure (env : Env) (id : ℕ) (recipient : Address) (amount : ℤ) : SplitM Unit := do
  recordFailedPayout id recipient amount
  modifyEntry id fun e => { e with lastFailedLedger := some env.sequence }

/-! ## The payout plan -/

/-- What the planning pass adds up over the recipients. -/
structure Plan where
  payouts : List ℤ := []
  distributed : ℤ := 0
  totalFee : ℤ := 0
  totalTax : ℤ := 0
  surplus : ℤ := 0
  unreleased : ℤ := 0

/-- The amounts of the recipients that were not paid individually, one if there are none. -/
def effectiveTotal (inv : Invoice) (paidSet : List Address) : Result ℤ :=
  if paidSet.isEmpty then .ok inv.total
  else do
    let et ← inv.recipients.zipIdx.foldlM (fun (et : ℤ) ri => do
      if ri.1 ∈ paidSet then .ok et
      else
        let amount ← unwrap inv.amounts[ri.2]?
        .ok (et + amount)) 0
    .ok (if et = 0 then 1 else et)

/-- The index of the last recipient that was not paid individually. -/
def lastUnpaidIdx (recipients paidSet : List Address) : ℕ :=
  recipients.zipIdx.foldl (fun last ri => if ri.1 ∈ paidSet then last else ri.2)
    (recipients.length - 1)

/-- The share of recipient `i` before the cap. -/
def proportionalShare (inv : Invoice) (effective : ℤ) (last i : ℕ) (amount distributed : ℤ) :
    Result ℤ :=
  if inv.ratios ≠ [] then do
    let ratio ← unwrap inv.ratios[i]?
    checkedProportion amount ratio inv.ratioDenominator
  else if inv.splitRules ≠ [] then do
    let rule ← unwrap inv.splitRules[i]?
    match rule with
    | .fixed fixedAmt => .ok fixedAmt
    | .percentage bps => checkedBpsOf inv.funded bps 10000
    | .tiered threshold bps =>
        if threshold < inv.funded then checkedBpsOf inv.funded bps 10000 else .ok 0
  else if i = last then .ok (inv.funded - distributed)
  else checkedProportion amount inv.funded effective

/-- The share after the recipient's cap. -/
def cappedShare (inv : Invoice) (i : ℕ) (proportional : ℤ) : ℤ :=
  match inv.recipientMaxPayouts.getD i none with
  | some maxPayout => min proportional maxPayout
  | none => proportional

/-- The platform fee on a share after tax. -/
def feeOnShare (waived : Bool) (funded platformFee postTax : ℤ) : Result ℤ :=
  if waived ∨ funded = 0 then .ok 0 else checkedProportion postTax platformFee funded

/-- One step of the planning pass. -/
def planStep (env : Env) (inv : Invoice) (paidSet : List Address) (locked : Address → Bool)
    (effective platformFee : ℤ) (acc : Plan) (ri : Address × ℕ) : Result Plan := do
  let amount ← unwrap inv.amounts[ri.2]?
  if ri.1 ∈ paidSet then .ok { acc with payouts := acc.payouts ++ [0] }
  else
    let proportional ← proportionalShare inv effective (lastUnpaidIdx inv.recipients paidSet) ri.2
      amount acc.distributed
    let capped := cappedShare inv ri.2 proportional
    let surplus := acc.surplus + (proportional - capped)
    if locked ri.1 then
      .ok { acc with
        surplus := surplus
        unreleased := satAddI128 acc.unreleased capped
        payouts := acc.payouts ++ [0] }
    else
      let tax ← checkedBpsOf capped inv.taxBps 10000
      let fee ← feeOnShare (env.config.recipientFeeWaivers.contains ri.1) inv.funded platformFee
        (capped - tax)
      .ok { acc with
        surplus := surplus
        distributed := acc.distributed + capped
        totalTax := acc.totalTax + tax
        totalFee := acc.totalFee + fee
        payouts := acc.payouts ++ [capped] }

/-- The planning pass of `_release_full`. -/
def planPayouts (env : Env) (inv : Invoice) (paidSet : List Address) (locked : Address → Bool)
    (platformFee : ℤ) : Result Plan := do
  let effective ← effectiveTotal inv paidSet
  inv.recipients.zipIdx.foldlM (planStep env inv paidSet locked effective platformFee) {}

/-! ## Paying one recipient -/

/-- `execute_smart_route`: let the router pay when it knows a path. -/
def executeSmartRoute (env : Env) (inv : Invoice) (recipient : Address) : SplitM Bool :=
  if inv.smartRoute then
    match env.config.dexRouter with
    | some router => do
        let token ← orPanic inv.tokens.head? "no token"
        invoke env router "get_path"
        if env.hasPath token recipient then do
          invoke env router "route_transfer"
          pure true
        else pure false
    | none => pure false
  else pure false

/-- Move a payout to its recipient; the answer says whether the contract counts it as paid. -/
def deliverPayout (env : Env) (id : ℕ) (inv : Invoice) (i : ℕ) (recipient : Address) (payout : ℤ) :
    SplitM Bool :=
  match inv.swapTokens.getD i none with
  | some outToken => pure (env.calls outToken "swap")
  | none =>
    if inv.smartRoute then do
      let sent ← tryTransfer env (fundingTokenFor inv) recipient payout ⟨id, .payout⟩
      transfer env (recipientTokenFor inv i) recipient payout ⟨id, .payout⟩
      pure sent
    else if inv.convertToStream then
      match env.config.streamContract with
      | some stream => do
          let sent ← tryTransfer env (fundingTokenFor inv) stream payout ⟨id, .stream⟩
          pure (sent && env.calls stream "create_stream")
      | none => do
          transfer env (recipientTokenFor inv i) recipient payout ⟨id, .payout⟩
          pure false
    else do
      let routed ← executeSmartRoute env inv recipient
      if routed then do
        transfer env (recipientTokenFor inv i) recipient payout ⟨id, .payout⟩
        pure true
      else tryTransfer env (fundingTokenFor inv) recipient payout ⟨id, .payout⟩

/-- What the transfer pass keeps: the creator's fee, and whether a transfer failed. -/
structure Pass where
  creatorFee : ℤ := 0
  failed : Bool := false

/-- The amounts taken off a share: what is left for the recipient, and the creator's fee. -/
def netPayout (env : Env) (inv : Invoice) (platformFee : ℤ) (recipient : Address)
    (proportional : ℤ) : Result (ℤ × ℤ) := do
  let tax ← checkedBpsOf proportional inv.taxBps 10000
  let fee ← feeOnShare (env.config.recipientFeeWaivers.contains recipient) inv.funded platformFee
    (proportional - tax)
  let afterFee := proportional - tax - fee
  let creatorFee ← checkedBpsOf afterFee inv.creatorFeeBps 10000
  .ok (afterFee - creatorFee, creatorFee)

/-- One step of the transfer pass. -/
def payRecipient (env : Env) (id : ℕ) (inv : Invoice) (paidSet : List Address) (platformFee : ℤ)
    (plan : Plan) (acc : Pass) (ri : Address × ℕ) : SplitM Pass := do
  let proportional ← ofResult (unwrap plan.payouts[ri.2]?)
  let e ← getEntry id
  if e.recipientLock ri.1 ∨ (proportional = 0 ∧ ri.1 ∈ paidSet) then pure acc
  else if env.accountExists (fundingTokenFor inv) ri.1 = false then do
    markMissing id ri.1
    pure acc
  else do
    let net ← ofResult (netPayout env inv platformFee ri.1 proportional)
    let success ← deliverPayout env id inv ri.2 ri.1 net.1
    onlyIf (success = false) (recordFailure env id ri.1 net.1)
    -- the whole tax goes out once for each recipient
    transferIfSet env (fundingTokenFor inv) inv.taxAuthority plan.totalTax ⟨id, .tax⟩
    pure { creatorFee := satAddI128 acc.creatorFee net.2, failed := acc.failed || !success }

/-- The transfer pass over all recipients, with the fees after it. -/
def payRecipients (env : Env) (id : ℕ) (inv : Invoice) (paidSet : List Address) (platformFee : ℤ)
    (plan : Plan) : SplitM Bool := do
  let pass ← inv.recipients.zipIdx.foldlM (payRecipient env id inv paidSet platformFee plan) {}
  payPlatformFee env id plan.totalFee (fundingTokenFor inv)
  transferPositive env (fundingTokenFor inv) inv.creator pass.creatorFee ⟨id, .creatorFee⟩
  pure pass.failed

/-- The payout of an invoice in a treasury group: everything net goes to the treasury. -/
def payTreasury (env : Env) (id : ℕ) (inv : Invoice) (plan : Plan) (treasury : Address) :
    SplitM Unit := do
  onlyIf (0 < plan.totalTax)
    (transferIfSet env (fundingTokenFor inv) inv.taxAuthority plan.totalTax ⟨id, .tax⟩)
  payPlatformFee env id plan.totalFee (fundingTokenFor inv)
  transferPositive env (fundingTokenFor inv) treasury
    (plan.distributed - plan.totalTax - plan.totalFee) ⟨id, .treasuryNet⟩

/-- Pay the plan out, to the treasury of the invoice's group or to the recipients. -/
def payPlan (env : Env) (id : ℕ) (inv : Invoice) (e : Entry) (platformFee : ℤ) (plan : Plan) :
    SplitM Bool :=
  match e.treasury with
  | some treasury => do
      payTreasury env id inv plan treasury
      pure false
  | none => payRecipients env id inv e.paidRecipients platformFee plan

/-! ## The other passes of a full release -/

/-- Park the shares of locked recipients and the surplus above the caps. -/
def parkShares (id : ℕ) (plan : Plan) : SplitM Unit :=
  modifyEntry id fun e => { e with
    unreleasedFunds :=
      if 0 < plan.unreleased then satAddI128 e.unreleasedFunds plan.unreleased
      else e.unreleasedFunds
    surplus := if 0 < plan.surplus then satAddI128 e.surplus plan.surplus else e.surplus }

/-- The protocol fee on the funded amount. -/
def payProtocolFee (env : Env) (id : ℕ) (inv : Invoice) : SplitM Unit :=
  match env.config.protocolFee with
  | none => pure ()
  | some cfg =>
      onlyIf (0 < cfg.rateBps) do
        let fee ← ofResult (checkedBpsOf inv.funded cfg.rateBps 10000)
        transferPositive env (fundingTokenFor inv) cfg.treasury fee ⟨id, .protocolFee⟩

/-- The first `max` distinct payers. -/
def uniquePayers (max : ℕ) : List Payment → List Address → List Address
  | [], acc => acc
  | p :: ps, acc =>
      if p.payer ∈ acc then uniquePayers max ps acc
      else if max ≤ acc.length + 1 then acc ++ [p.payer]
      else uniquePayers max ps (acc ++ [p.payer])

/-- Equal parts of the bonus pool, the last payer taking the rest. -/
def bonusShares (pool : ℤ) (payers : List Address) : List (Address × ℤ) :=
  payers.zipIdx.map fun pi =>
    if pi.2 + 1 = payers.length then
      (pi.1, pool - pool / payers.length * (payers.length - 1))
    else (pi.1, pool / payers.length)

def payBonus (env : Env) (id : ℕ) (inv : Invoice) : SplitM Unit :=
  onlyIf (0 < inv.bonusPool ∧ 0 < inv.bonusMaxPayers)
    (forM (bonusShares inv.bonusPool (uniquePayers inv.bonusMaxPayers inv.payments [])) fun p =>
      transfer env (fundingTokenFor inv) p.1 p.2 ⟨id, .bonus⟩)

/-- `calc_platform_fee(proportional, bps).expect(..)` -/
def calcPlatformFee (amount : ℤ) (bps : ℕ) : Result ℤ :=
  if bps = 0 ∨ amount = 0 then .ok 0
  else if amount < 0 ∨ i128Max < amount * bps then .error (.panic "ArithmeticOverflow")
  else .ok (amount * bps / 10000)

/-- The share of a group member's recipient; the last one gets what is left. -/
def memberShare (member : Invoice) (distributed amount : ℤ) (i : ℕ) : Result ℤ :=
  if i + 1 = member.recipients.length then .ok (member.funded - distributed)
  else plainMulDiv (asU128 amount) (asU128 member.funded) (asU128 member.total)

/-- Send a tax to an authority that has to be set. -/
def payTax (env : Env) (id : ℕ) (inv : Invoice) (token : Address) (tax : ℤ) : SplitM Unit :=
  onlyIf (0 < tax) do
    let taxAuthority ← ofResult (unwrap inv.taxAuthority)
    transfer env token taxAuthority tax ⟨id, .tax⟩

/-- One recipient of a group member; the accumulator is what was distributed and the fees. -/
def payMemberRecipient (env : Env) (id : ℕ) (member : Invoice) (token : Address) (acc : ℤ × ℤ)
    (rai : (Address × ℤ) × ℕ) : SplitM (ℤ × ℤ) := do
  let proportional ← ofResult (memberShare member acc.1 rai.1.2 rai.2)
  let fee ← ofResult (calcPlatformFee proportional env.config.platformFeeBps)
  let tax ← ofResult (plainMulDiv (asU128 proportional) member.taxBps 10000)
  payTax env id member token tax
  let routed ← executeSmartRoute env member rai.1.1
  onlyIf (routed = false) (transfer env token rai.1.1 (proportional - fee - tax) ⟨id, .payout⟩)
  pure (acc.1 + proportional, acc.2 + fee)

/-- The platform fees of a group member go to the treasury in one transfer. -/
def payMemberFee (env : Env) (id : ℕ) (token : Address) (fee : ℤ) : SplitM Unit :=
  onlyIf (0 < fee) do
    let treasury ← orPanic env.config.treasury "treasury not set"
    transfer env token treasury fee ⟨id, .platformFee⟩

/-- Release one pending member of the group. -/
def releaseMember (env : Env) (id : ℕ) : SplitM Unit := do
  let member ← loadInvoice id
  onlyIf (member.status = .pending) do
    let token ← orPanic member.tokens.head? "no token"
    let sums ← (member.recipients.zip member.amounts).zipIdx.foldlM
      (payMemberRecipient env id member token) (0, 0)
    payMemberFee env id token sums.2
    accrueCreatorRebate env member.creator member.funded sums.2
    saveInvoice env id (member.completed .released env.now)

def loadGroup (groupId : ℕ) : SplitM (List ℕ) := do
  let s ← get
  let g ← orPanic (s.groups groupId) "group not found"
  pure g.invoiceIds

/-- Release all other members of the invoice's group. -/
def releaseGroup (env : Env) (id : ℕ) : SplitM Unit := do
  let e ← getEntry id
  match e.group with
  | none => pure ()
  | some groupId => do
      let members ← loadGroup groupId
      forM (members.filter (· ≠ id)) (releaseMember env)

/-- The invoices released together with this one. -/
def groupMembers (s : Store) (id : ℕ) : List ℕ :=
  (((s.entries id).group.bind s.groups).map InvoiceGroup.invoiceIds).getD []

theorem groupMembers_none {s : Store} {id : ℕ} (h : (s.entries id).group = none) :
    groupMembers s id = [] := by
  rw [groupMembers, h]
  rfl

/-- A release of the group goes through the other members. -/
theorem releaseGroup_ok {env : Env} {id : ℕ} {s t : Store} {v : Unit}
    (hrun : releaseGroup env id s = .ok (v, t)) :
    forM ((groupMembers s id).filter (· ≠ id)) (releaseMember env) s = .ok (v, t) := by
  rw [releaseGroup, getEntry_bind] at hrun
  cases hgroup : (s.entries id).group with
  | none =>
      rw [hgroup] at hrun
      rw [groupMembers_none hgroup]
      exact hrun
  | some groupId =>
      rw [hgroup] at hrun
      obtain ⟨members, u, hload, hrun⟩ := bind_ok.1 hrun
      simp only [loadGroup, get_bind, orPanic_bind, pure_ok] at hload
      obtain ⟨g, hg, rfl, rfl⟩ := hload
      have hmembers : groupMembers s id = g.invoiceIds := by
        rw [groupMembers, hgroup, Option.bind_some, hg]
        rfl
      rwa [hmembers]

theorem releaseGroup_alone {env : Env} {id : ℕ} {s t : Store} {v : Unit}
    (hgroup : (s.entries id).group = none) (hrun : releaseGroup env id s = .ok (v, t)) : t = s := by
  have hmembers := releaseGroup_ok hrun
  rw [groupMembers_none hgroup] at hmembers
  exact (pure_ok.1 hmembers).2.symm

/-- Return the insurance fund to the creator. -/
def returnInsurance (env : Env) (id : ℕ) (inv : Invoice) : SplitM Unit :=
  transferPositive env (fundingTokenFor inv) inv.creator inv.insuranceFund ⟨id, .insurance⟩

/-- Nothing but funding decides about an unguarded invoice. -/
def isGuarded (e : Entry) (inv : Invoice) : Bool :=
  inv.prerequisiteId.isSome || !inv.tranches.isEmpty || !inv.releaseStages.isEmpty ||
    e.group.isSome || !inv.coSigners.isEmpty || e.cosigners.isSome

theorem isGuarded_tranches {e : Entry} {inv : Invoice} (h : isGuarded e inv = false) :
    inv.tranches = [] := by
  simp only [isGuarded, Bool.or_eq_false_iff, Bool.not_eq_false', List.isEmpty_iff] at h
  exact h.1.1.1.1.2

theorem isGuarded_group {e : Entry} {inv : Invoice} (h : isGuarded e inv = false) : e.group = none := by
  simp only [isGuarded, Bool.or_eq_false_iff] at h
  exact Option.not_isSome_iff_eq_none.1 (Bool.not_eq_true _ ▸ h.1.1.2)

/-- Credit the remainder to another invoice and release it when that funds it in full. -/
def forwardToInvoice (env : Env) (next : ℕ → Invoice → Address → SplitM Unit) (targetId : ℕ)
    (leftover : ℤ) : SplitM Unit := do
  let target ← loadInvoice targetId
  pushPayment targetId { payer := currentContract, amount := leftover }
  addCumulative targetId leftover
  let e ← getEntry targetId
  if target.total ≤ target.funded + leftover ∧ isGuarded e target = false then
    next targetId (target.withFunded (target.funded + leftover)) currentContract
  else saveInvoice env targetId (target.withFunded (target.funded + leftover))

/-- The target is paid, and released when that fills it and nothing guards it. -/
theorem forwardToInvoice_ok {env : Env} {next : ℕ → Invoice → Address → SplitM Unit} {targetId : ℕ}
    {leftover : ℤ} {s t : Store} {v : Unit}
    (hrun : forwardToInvoice env next targetId leftover s = .ok (v, t)) :
    ∃ target u₁ u₂, (s.entries targetId).load = some target ∧
      pushPayment targetId { payer := currentContract, amount := leftover } s = .ok ((), u₁) ∧
      addCumulative targetId leftover u₁ = .ok ((), u₂) ∧
      ((target.total ≤ target.funded + leftover ∧ isGuarded (u₂.entries targetId) target = false ∧
          next targetId (target.withFunded (target.funded + leftover)) currentContract u₂ = .ok (v, t)) ∨
        (¬(target.total ≤ target.funded + leftover ∧ isGuarded (u₂.entries targetId) target = false) ∧
          saveInvoice env targetId (target.withFunded (target.funded + leftover)) u₂ = .ok (v, t))) := by
  rw [forwardToInvoice, loadInvoice_bind] at hrun
  obtain ⟨target, hload, hrun⟩ := hrun
  obtain ⟨_, u₁, hpush, hrun⟩ := bind_ok.1 hrun
  obtain ⟨_, u₂, hcumulative, hrun⟩ := bind_ok.1 hrun
  refine ⟨target, u₁, u₂, hload, hpush, hcumulative, ?_⟩
  rw [getEntry_bind] at hrun
  split_ifs at hrun with hfull
  · exact .inl ⟨hfull.1, hfull.2, hrun⟩
  · exact .inr ⟨hfull, hrun⟩

/-- What the plan leaves of the funded amount. -/
def planLeftover (inv : Invoice) (plan : Plan) : ℤ :=
  (checkedSubI128 inv.funded (satAddI128 plan.distributed plan.surplus)).getD 0

def forwardLeftover (env : Env) (next : ℕ → Invoice → Address → SplitM Unit) (id : ℕ)
    (inv : Invoice) (leftover : ℤ) : SplitM Unit :=
  if 0 < leftover then
    match inv.forwardTo with
    | some addr => transfer env (fundingTokenFor inv) addr leftover ⟨id, .forward⟩
    | none =>
        match inv.forwardInvoiceId with
        | some targetId => forwardToInvoice env next targetId leftover
        | none => pure ()
  else pure ()

/-- What is left goes nowhere, to an address or to another invoice. -/
theorem forwardLeftover_cases {env : Env} {next : ℕ → Invoice → Address → SplitM Unit} {id : ℕ}
    {inv : Invoice} {leftover : ℤ} {s t : Store} {v : Unit}
    (hrun : forwardLeftover env next id inv leftover s = .ok (v, t)) :
    s = t ∨
      (∃ addr, inv.forwardTo = some addr ∧
        transfer env (fundingTokenFor inv) addr leftover ⟨id, .forward⟩ s = .ok (v, t)) ∨
      (0 < leftover ∧ inv.forwardTo = none ∧ ∃ targetId, inv.forwardInvoiceId = some targetId ∧
        forwardToInvoice env next targetId leftover s = .ok (v, t)) := by
  unfold forwardLeftover at hrun
  split_ifs at hrun with hpos
  · cases haddr : inv.forwardTo with
    | some addr =>
        rw [haddr] at hrun
        exact .inr (.inl ⟨addr, rfl, hrun⟩)
    | none =>
        rw [haddr] at hrun
        cases htarget : inv.forwardInvoiceId with
        | some targetId =>
            rw [htarget] at hrun
            exact .inr (.inr ⟨hpos, rfl, targetId, rfl, hrun⟩)
        | none =>
            rw [htarget] at hrun
            exact .inl (pure_ok.1 hrun).2
  · exact .inl (pure_ok.1 hrun).2

/-- The counters a full release adds the funded amount to. -/
def countRelease (env : Env) (creator : Address) (amount totalFee : ℤ) : SplitM Unit := do
  let s ← get
  let volume ← orPanic (checkedAddI128 s.stats.totalVolume amount) "total_volume overflow"
  let released ← orPanic (checkedAddI128 s.stats.totalReleased amount) "total_released overflow"
  let statsVolume ← orPanic (checkedAddU64 (s.stats.statsVolume creator) (asU64 amount))
    "creator_volume overflow"
  require (s.stats.statsReleased creator + asU64 amount ≤ u64Max) .overflow
  modifyStats fun st => { st with
    totalVolume := volume
    totalReleased := released
    statsVolume := update st.statsVolume creator statsVolume
    statsReleased := update st.statsReleased creator (st.statsReleased creator + asU64 amount) }
  accrueCreatorRebate env creator amount totalFee

/-- The status a full release leaves: released only when no payout is missing. -/
def releaseStatus (e : Entry) (inv : Invoice) (passFailed : Bool) : InvoiceStatus :=
  if e.failedPayouts = [] then .released
  else if passFailed then .partiallyReleased
  else inv.status

/-- Take one off the creator's open invoices. -/
def closeOpenInvoice (creator : Address) : SplitM Unit :=
  modifyStats fun st => { st with
    openInvoices := update st.openInvoices creator (st.openInvoices creator - 1) }

/-- Set the final status, save the invoice and count the release. -/
def finishRelease (env : Env) (id : ℕ) (inv : Invoice) (passFailed : Bool) (totalFee : ℤ) :
    SplitM Unit := do
  let e ← getEntry id
  onlyIf (e.failedPayouts = []) (closeOpenInvoice inv.creator)
  saveInvoice env id (inv.insurancePaid.completed (releaseStatus e inv passFailed) env.now)
  notifyInvoice env inv
  maybeRecordReleased env
  countRelease env inv.creator inv.funded totalFee

/-- The platform fee on the funded amount, less the early-bird discount. -/
def totalPlatformFee (env : Env) (inv : Invoice) (actor : Address) : Result ℤ :=
  if creatorHasActiveFeeWaiver env inv.creator ∨ actor ∈ env.config.trustedCallers then .ok 0
  else do
    let fee ← computeFee env.config inv.funded
    .ok (max (fee - inv.earlyBirdFeeCredit) 0)

def releaseFull (env : Env) (next : ℕ → Invoice → Address → SplitM Unit) (id : ℕ) (inv : Invoice)
    (actor : Address) : SplitM Unit := do
  let e ← getEntry id
  let platformFee ← ofResult (totalPlatformFee env inv actor)
  let plan ← ofResult (planPayouts env inv e.paidRecipients e.recipientLock platformFee)
  parkShares id plan
  payProtocolFee env id inv
  let passFailed ← payPlan env id inv e platformFee plan
  payBonus env id inv
  releaseGroup env id
  returnInsurance env id inv
  forwardLeftover env next id inv (planLeftover inv plan)
  finishRelease env id inv passFailed plan.totalFee

/-- The passes of a full release that pay for the invoice itself. -/
def payPasses (env : Env) (id : ℕ) (inv : Invoice) (e : Entry) (platformFee : ℤ) (plan : Plan) :
    SplitM Bool := do
  parkShares id plan
  payProtocolFee env id inv
  let passFailed ← payPlan env id inv e platformFee plan
  payBonus env id inv
  pure passFailed

section FullPasses

variable {env : Env} {s t : Store} {v : Unit} {id : ℕ} {inv : Invoice}

theorem payPasses_ok {e : Entry} {platformFee : ℤ} {plan : Plan} {failed : Bool} :
    payPasses env id inv e platformFee plan s = .ok (failed, t) ↔
      ∃ u₁ u₂ u₃, parkShares id plan s = .ok ((), u₁) ∧ payProtocolFee env id inv u₁ = .ok ((), u₂) ∧
        payPlan env id inv e platformFee plan u₂ = .ok (failed, u₃) ∧
        payBonus env id inv u₃ = .ok ((), t) := by
  simp only [payPasses, bind_ok, pure_ok]
  constructor
  · rintro ⟨_, u₁, hpark, _, u₂, hprotocol, _, u₃, hplan, _, _, hbonus, rfl, rfl⟩
    exact ⟨u₁, u₂, u₃, hpark, hprotocol, hplan, hbonus⟩
  · rintro ⟨u₁, u₂, u₃, hpark, hprotocol, hplan, hbonus⟩
    exact ⟨(), u₁, hpark, (), u₂, hprotocol, failed, u₃, hplan, (), t, hbonus, rfl, rfl⟩

/-- A full release pass by pass. -/
theorem releaseFull_passes {next : ℕ → Invoice → Address → SplitM Unit} {actor : Address}
    (hrun : releaseFull env next id inv actor s = .ok (v, t)) :
    ∃ platformFee plan failed u₁ u₂ u₃ u₄,
      totalPlatformFee env inv actor = .ok platformFee ∧
      planPayouts env inv (s.entries id).paidRecipients (s.entries id).recipientLock platformFee =
        .ok plan ∧
      payPasses env id inv (s.entries id) platformFee plan s = .ok (failed, u₁) ∧
      releaseGroup env id u₁ = .ok ((), u₂) ∧ returnInsurance env id inv u₂ = .ok ((), u₃) ∧
      forwardLeftover env next id inv (planLeftover inv plan) u₃ = .ok ((), u₄) ∧
      finishRelease env id inv failed plan.totalFee u₄ = .ok (v, t) := by
  rw [releaseFull, getEntry_bind] at hrun
  obtain ⟨platformFee, hfee, hrun⟩ := ofResult_bind.1 hrun
  obtain ⟨plan, hplan, hrun⟩ := ofResult_bind.1 hrun
  obtain ⟨_, w₁, hpark, hrun⟩ := bind_ok.1 hrun
  obtain ⟨_, w₂, hprotocol, hrun⟩ := bind_ok.1 hrun
  obtain ⟨failed, w₃, hpay, hrun⟩ := bind_ok.1 hrun
  obtain ⟨_, u₁, hbonus, hrun⟩ := bind_ok.1 hrun
  obtain ⟨_, u₂, hgroup, hrun⟩ := bind_ok.1 hrun
  obtain ⟨_, u₃, hinsurance, hrun⟩ := bind_ok.1 hrun
  obtain ⟨_, u₄, hforward, hfinish⟩ := bind_ok.1 hrun
  have hpasses := payPasses_ok.2 ⟨w₁, w₂, w₃, hpark, hprotocol, hpay, hbonus⟩
  exact ⟨platformFee, plan, failed, u₁, u₂, u₃, u₄, hfee, hplan, hpasses, hgroup, hinsurance, hforward,
    hfinish⟩

end FullPasses

/-! ## Tranches -/

/-- The basis points of the tranches whose time has come. -/
def unlockedBps (tranches : List Tranche) (now : ℕ) : ℕ :=
  ((tranches.filter fun t => t.timestamp ≤ now).map Tranche.basisPoints).sum

/-- The part of `funded` that `bps` stand for. -/
def tranchePart (funded : ℤ) (bps : ℕ) : ℤ := asI128 (satMulU128 (asU128 funded) bps / 10000)

/-- The share of a recipient with `amount` in `bps` of the funded amount. -/
def trancheShare (amount funded total : ℤ) (bps : ℕ) : Result ℤ :=
  match checkedMulU128 10000 (asU128 total) with
  | none => .error .overflow
  | some d =>
      if d = 0 then .error .overflow
      else .ok (asI128 (satMulU128 (satMulU128 (asU128 amount) bps) (asU128 funded) / d))

/-- The fees and taxes a tranche release adds up, and whether a transfer failed. -/
structure TranchePass where
  fee : ℤ := 0
  tax : ℤ := 0
  failed : Bool := false

/-- The platform fee on a recipient's share of a tranche. -/
def trancheFeeOn (env : Env) (recipient : Address) (raw amountReleased trancheFee : ℤ) : Result ℤ :=
  if env.config.recipientFeeWaivers.contains recipient ∨ amountReleased = 0 then .ok 0
  else plainMulDiv (asU128 raw) (asU128 trancheFee) (asU128 amountReleased)

/-- What a recipient gets of a tranche share, with its fee and tax. -/
def trancheNet (env : Env) (inv : Invoice) (recipient : Address) (raw amountReleased trancheFee : ℤ) :
    Result (ℤ × ℤ × ℤ) := do
  let fee ← trancheFeeOn env recipient raw amountReleased trancheFee
  let tax ← plainMulDiv (asU128 raw) inv.taxBps 10000
  .ok (raw - fee - tax, fee, tax)

/-- Move a tranche payout to its recipient unless the router does. -/
def deliverTranche (env : Env) (id : ℕ) (inv : Invoice) (recipient : Address) (payout : ℤ) :
    SplitM Bool := do
  let routed ← executeSmartRoute env inv recipient
  if routed then pure true
  else tryTransfer env (fundingTokenFor inv) recipient payout ⟨id, .payout⟩

/-- Pay one recipient's share of the newly unlocked tranches. -/
def payTranche (env : Env) (id : ℕ) (inv : Invoice) (bps : ℕ) (amountReleased trancheFee : ℤ)
    (acc : TranchePass) (ri : Address × ℕ) : SplitM TranchePass := do
  let amount ← ofResult (unwrap inv.amounts[ri.2]?)
  let raw ← ofResult (trancheShare amount inv.funded inv.total bps)
  if 0 < raw then do
    let net ← ofResult (trancheNet env inv ri.1 raw amountReleased trancheFee)
    let success ← deliverTranche env id inv ri.1 net.1
    onlyIf (success = false) (recordFailure env id ri.1 net.1)
    pure { fee := acc.fee + net.2.1, tax := acc.tax + net.2.2, failed := acc.failed || !success }
  else pure acc

/-- The counters a tranche release adds the released part to. -/
def countTranche (amount : ℤ) : SplitM Unit := do
  let s ← get
  let volume ← orPanic (checkedAddI128 s.stats.totalVolume amount) "total_volume overflow"
  let released ← orPanic (checkedAddI128 s.stats.totalReleased amount) "total_released overflow"
  modifyStats fun st => { st with totalVolume := volume, totalReleased := released }

/-- What the last tranche adds: the insurance fund goes back and the release is announced. -/
def closeTranches (env : Env) (id : ℕ) (inv : Invoice) (amount : ℤ) : SplitM Unit := do
  returnInsurance env id inv
  notifyInvoice env inv
  maybeRecordReleased env
  let s ← get
  require (s.stats.statsReleased inv.creator + asU64 amount ≤ u64Max) .overflow
  modifyStats fun st => { st with
    statsReleased := update st.statsReleased inv.creator (st.statsReleased inv.creator + asU64 amount) }

/-- The platform fee on a tranche release. -/
def trancheFeeOf (env : Env) (inv : Invoice) (amountReleased : ℤ) : Result ℤ :=
  if creatorHasActiveFeeWaiver env inv.creator then .ok 0
  else computeFee env.config amountReleased

/-- Send on the fees and taxes of a tranche release; the tax goes out twice. -/
def payTrancheFees (env : Env) (id : ℕ) (inv : Invoice) (pass : TranchePass) : SplitM Unit := do
  onlyIf (0 < pass.tax)
    (transferIfSet env (fundingTokenFor inv) inv.taxAuthority pass.tax ⟨id, .tax⟩)
  payPlatformFee env id pass.fee (fundingTokenFor inv)
  payTax env id inv (fundingTokenFor inv) pass.tax

/-- The invoice after a tranche release that is not the last one. -/
def trancheStatus (inv : Invoice) (failed : Bool) : InvoiceStatus :=
  if failed then .partiallyReleased else inv.status

/-- Save the invoice after a tranche release; the last tranche closes it. -/
def finishTranches (env : Env) (id : ℕ) (inv : Invoice) (releasedBps : ℕ) (failed : Bool)
    (amount : ℤ) : SplitM Unit :=
  if 10000 ≤ releasedBps then do
    closeTranches env id inv amount
    saveInvoice env id
      ((inv.insurancePaid.withReleasedBps releasedBps).completed .released env.now)
  else saveInvoice env id ((inv.withReleasedBps releasedBps).withStatus (trancheStatus inv failed))

/-- The basis points a tranche release unlocks now. -/
def newlyUnlocked (env : Env) (inv : Invoice) : ℕ :=
  unlockedBps inv.tranches env.now - inv.releasedBps

def releaseTranches (env : Env) (id : ℕ) (inv : Invoice) : SplitM Unit := do
  require (0 < newlyUnlocked env inv) (.panic "no tranches unlocked")
  let trancheFee ← ofResult (trancheFeeOf env inv (tranchePart inv.funded (newlyUnlocked env inv)))
  let pass ← inv.recipients.zipIdx.foldlM
    (payTranche env id inv (newlyUnlocked env inv)
      (tranchePart inv.funded (newlyUnlocked env inv)) trancheFee) {}
  payTrancheFees env id inv pass
  accrueCreatorRebate env inv.creator (tranchePart inv.funded (newlyUnlocked env inv)) pass.fee
  countTranche (tranchePart inv.funded (newlyUnlocked env inv))
  finishTranches env id inv (inv.releasedBps + newlyUnlocked env inv) pass.failed
    (tranchePart inv.funded (newlyUnlocked env inv))

/-! ## Release -/

def recipientsVerified (e : Entry) (inv : Invoice) : Bool :=
  !e.authRequired || inv.recipients.all e.recipientVerified

/-- `_release`, nested at most `depth` deep. -/
def releaseWithin (env : Env) : ℕ → ℕ → Invoice → Address → SplitM Unit
  | 0, _, _, _ => throw (.panic "call depth exceeded")
  | depth + 1, id, inv, actor => do
      require (inv.status ≠ .disputed) (.error .invoiceDisputed)
      let e ← getEntry id
      require (recipientsVerified e inv = true) (.panic "recipient not verified")
      if inv.tranches.isEmpty then releaseFull env (releaseWithin env depth) id inv actor
      else releaseTranches env id inv

/-- A release checks the invoice and its recipients, and pays in full or in tranches. -/
theorem releaseWithin_succ_ok {env : Env} {depth id : ℕ} {inv : Invoice} {actor : Address} {s t : Store}
    {v : Unit} :
    releaseWithin env (depth + 1) id inv actor s = .ok (v, t) ↔
      inv.status ≠ .disputed ∧ recipientsVerified (s.entries id) inv = true ∧
        ((inv.tranches = [] ∧ releaseFull env (releaseWithin env depth) id inv actor s = .ok (v, t)) ∨
          (inv.tranches ≠ [] ∧ releaseTranches env id inv s = .ok (v, t))) := by
  rw [releaseWithin, require_bind, getEntry_bind, require_bind]
  refine and_congr_right fun _ => and_congr_right fun _ => ?_
  by_cases hempty : inv.tranches = [] <;> simp [hempty]

/-- Without tranches a release pays in full. -/
theorem releaseWithin_full {env : Env} {depth id : ℕ} {inv : Invoice} {actor : Address} {s t : Store}
    {v : Unit} (htranches : inv.tranches = [])
    (hrun : releaseWithin env (depth + 1) id inv actor s = .ok (v, t)) :
    releaseFull env (releaseWithin env depth) id inv actor s = .ok (v, t) := by
  obtain ⟨-, -, ⟨-, hfull⟩ | ⟨hsome, -⟩⟩ := releaseWithin_succ_ok.1 hrun
  · exact hfull
  · exact absurd htranches hsome

/-- `_release` -/
def releaseAs (env : Env) (id : ℕ) (inv : Invoice) (actor : Address) : SplitM Unit :=
  releaseWithin env env.depth id inv actor

/-! ## Entry points -/

/-- The amounts of the recipients that were paid individually. -/
def alreadyPaidAmount (inv : Invoice) (paidSet : List Address) : Result ℤ :=
  inv.recipients.zipIdx.foldlM (fun (paid : ℤ) ri => do
    if ri.1 ∈ paidSet then
      let amount ← unwrap inv.amounts[ri.2]?
      .ok (paid + amount)
    else .ok paid) 0

/-- The funding below which no release is possible. -/
def minRequired (inv : Invoice) : Result ℤ :=
  if 0 < inv.minFundingBps then plainMulDiv (asU128 inv.total) inv.minFundingBps 10000
  else .ok inv.total

/-- A scheduled release has a minimum only when the invoice sets one. -/
def scheduledRequired (inv : Invoice) : Result ℤ :=
  if 0 < inv.minFundingBps then minRequired inv else .ok inv.funded

def checkPreimage (env : Env) (inv : Invoice) (preimage : Option (List ℕ)) : SplitM Unit :=
  match inv.releaseConditionHash with
  | none => pure ()
  | some expected => do
      let bytes ← orPanic preimage "ConditionNotMet"
      require (env.sha256 bytes = expected) (.panic "ConditionNotMet")

/-- The dispute gate of `release_invoice`. -/
def checkDispute (id : ℕ) (inv : Invoice) : SplitM Unit :=
  if inv.disputed then do
    let e ← getEntry id
    let status ← orPanic e.disputeRecord "invoice is disputed"
    require (status ≠ .active) (.panic "invoice is under active dispute")
  else pure ()

/-- The time lock set by the creator has run out. -/
def delayElapsed (env : Env) (e : Entry) : Bool :=
  match e.releaseDelay, e.fundedAtLedger with
  | some delay, some fundedAt => satAddU32 fundedAt delay ≤ env.sequence
  | _, _ => true

def checkReleaseDelay (env : Env) (id : ℕ) : SplitM Unit := do
  let e ← getEntry id
  require (delayElapsed env e = true) (.panic "FundsLockedUntil")

def checkApproval (inv : Invoice) : SplitM Unit :=
  require (inv.approver.isNone = true ∨ inv.approved = true) (.panic "awaiting approval")

def checkPrerequisite (inv : Invoice) : SplitM Unit :=
  match inv.prerequisiteId with
  | none => pure ()
  | some prereqId => do
      let prereq ← loadInvoice prereqId
      require (prereq.status = .released) (.panic "prerequisite not released")

/-- Whether a group member has reached its total. -/
def memberFunded (id : ℕ) : SplitM Bool := do
  let inv ← loadInvoice id
  pure (inv.total ≤ inv.funded)

/-- The mode of a group; a missing record counts as all-or-nothing. -/
def groupMode (s : Store) (groupId : ℕ) : GroupMode :=
  ((s.groups groupId).map InvoiceGroup.mode).getD .allOrNothing

/-- All members are funded, or more than half of them. -/
def groupFunded (mode : GroupMode) (funded : List Bool) : Bool :=
  match mode with
  | .allOrNothing => funded.all (· = true)
  | .majority => funded.length < (funded.filter (· = true)).length * 2

def groupMessage : GroupMode → String
  | .allOrNothing => "group members not fully funded"
  | .majority => "group majority not funded"

/-- The group gate of an invoice in a group. -/
def checkGroupFunded (groupId : ℕ) : SplitM Unit := do
  let s ← get
  let members ← loadGroup groupId
  let funded ← members.mapM memberFunded
  require (groupFunded (groupMode s groupId) funded = true)
    (.panic (groupMessage (groupMode s groupId)))

def checkGroup (id : ℕ) : SplitM Unit := do
  let e ← getEntry id
  forM e.group.toList checkGroupFunded

/-- `require_cosigner_threshold_met` -/
def thresholdMet (e : Entry) : Prop := ∀ n ∈ e.cosignerThreshold, n ≤ e.cosigned.length

instance (e : Entry) : Decidable (thresholdMet e) :=
  match h : e.cosignerThreshold with
  | none => isTrue (by simp [thresholdMet, h])
  | some n => decidable_of_iff (n ≤ e.cosigned.length) (by simp [thresholdMet, h])

def checkCosigners (id : ℕ) (inv : Invoice) : SplitM Unit := do
  require (inv.coSigners = [] ∨ inv.requiredSignatures ≤ inv.signatures.length)
    (.panic "not enough co-signer approvals")
  let e ← getEntry id
  require (thresholdMet e) (.panic "cosigner approval threshold not met")

def releaseInvoiceInner (env : Env) (id : ℕ) (preimage : Option (List ℕ)) : SplitM Unit := do
  requireFnNotPaused env "release"
  requireNotFrozen env
  let inv ← loadInvoice id
  checkPreimage env inv preimage
  require (inv.frozen = false) (.panic "invoice is frozen")
  require (inv.adminFrozen = false) (.panic "invoice frozen by admin")
  require (inv.status ≠ .deleted) (.panic "InvoiceDeleted")
  require (inv.status = .pending ∨ inv.status = .partiallyReleased)
    (.panic "invoice is not pending or partially released")
  require (inv.heldUntil.getD 0 ≤ env.sequence) (.panic "EscrowHoldActive")
  checkDispute id inv
  let required ← ofResult (minRequired inv)
  let e ← getEntry id
  let paid ← ofResult (alreadyPaidAmount inv e.paidRecipients)
  require (satSubI128 required paid ≤ inv.funded) (.panic "minimum funding not reached")
  checkReleaseDelay env id
  checkApproval inv
  checkPrerequisite inv
  checkGroup id
  checkCosigners id inv
  releaseAs env id inv currentContract

def triggerScheduledRelease (env : Env) (id : ℕ) : SplitM Unit := do
  requireNotPaused env
  let inv ← loadInvoice id
  require (inv.frozen = false) (.panic "invoice is frozen")
  require (inv.adminFrozen = false) (.panic "invoice frozen by admin")
  require (inv.status = .pending) (.panic "invoice is not pending")
  let scheduledAt ← orPanic inv.scheduledReleaseAt "no scheduled release time"
  require (scheduledAt ≤ env.now) (.panic "scheduled release time not reached")
  let required ← ofResult (scheduledRequired inv)
  require (required ≤ inv.funded) (.panic "minimum funding not reached")
  checkApproval inv
  checkPrerequisite inv
  checkCosigners id inv
  releaseAs env id inv currentContract

end StellarSplit.Split
