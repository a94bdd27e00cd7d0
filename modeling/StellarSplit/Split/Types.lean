import Mathlib.Logic.Function.Basic
import StellarSplit.Host
import StellarSplit.Lib.KeyMap

/-!
# Data of the split contract

The invoice record with the fields the payment and release paths read, the
storage entries of an invoice, and the environment of a call. The environment
holds the settings that only administrators change and the answers of other
contracts, so both may differ from call to call.
-/

namespace StellarSplit.Split

inductive InvoiceStatus where
  | pending | released | refunded | expired | cancelled | disputed | partiallyReleased
  | finalised | deleted | payoutInProgress
deriving DecidableEq, Repr

inductive SplitRule where
  | fixed (amount : ℤ)
  | percentage (bps : ℕ)
  | tiered (threshold : ℤ) (bps : ℕ)
deriving DecidableEq, Repr

inductive ResolveAction where
  | release | refund
deriving DecidableEq, Repr

structure ResolveRule where
  minFundedBps : ℕ
  action : ResolveAction
deriving DecidableEq, Repr

structure Tranche where
  timestamp : ℕ
  basisPoints : ℕ
deriving DecidableEq, Repr

structure Bid where
  bidder : Address
  amount : ℤ
deriving DecidableEq, Repr

structure Payment where
  payer : Address
  amount : ℤ
  tip : ℤ := 0
  donateOnFailure : Bool := false
deriving DecidableEq, Repr

structure PenaltyTier where
  secondsAfterDeadline : ℕ
  bps : ℕ
deriving DecidableEq, Repr

inductive OverflowBehavior where
  | reject | refund | donate
deriving DecidableEq, Repr

inductive OverfundingPolicy where
  | cap | acceptAll | returnSurplus
deriving DecidableEq, Repr

inductive DisputeStatus where
  | active | resolved | expired
deriving DecidableEq, Repr

inductive GroupMode where
  | allOrNothing | majority
deriving DecidableEq, Repr

structure InvoiceGroup where
  invoiceIds : List ℕ
  mode : GroupMode
deriving DecidableEq, Repr

structure FeeBracket where
  maxAmount : ℤ
  rateBps : ℕ
deriving DecidableEq, Repr

structure FeeTier where
  volumeThreshold : ℕ
  feeBps : ℕ
deriving DecidableEq, Repr

structure FeeSplit where
  address : Address
  basisPoints : ℕ
deriving DecidableEq, Repr

structure RebateTier where
  minVolume : ℤ
  rebateBps : ℕ
deriving DecidableEq, Repr

structure ProtocolFeeConfig where
  rateBps : ℕ
  treasury : Address
deriving DecidableEq, Repr

structure InvoicePayment where
  invoiceId : ℕ
  amount : ℤ
deriving DecidableEq, Repr

inductive PaymentBatchStatus where
  | open | executed | cancelled
deriving DecidableEq, Repr

/-- Payments collected for one payer. -/
structure PaymentBatch where
  payer : Address
  token : Address
  items : List InvoicePayment
  total : ℤ
  status : PaymentBatchStatus
deriving DecidableEq, Repr

/-- What a payment channel holds: the balance that is left and the deposit it started with. -/
structure Channel where
  balance : ℤ
  deposited : ℤ
deriving DecidableEq, Repr

/-- A 32-byte hash. -/
abbrev Hash := ℕ

/-- The invoice as the contract functions pass it around. `payments` is filled from the
shards when an invoice is loaded and is empty in storage. -/
structure Invoice where
  creator : Address
  coCreators : List Address := []
  recipients : List Address
  baseAmounts : List ℤ := []
  amounts : List ℤ
  tokens : List Address
  fundingToken : Address
  deadline : ℕ
  funded : ℤ := 0
  status : InvoiceStatus := .pending
  payments : List Payment := []
  dripDuration : Option ℕ := none
  claimed : List ℤ := []
  frozen : Bool := false
  completionTime : Option ℕ := none
  allowEarlyWithdrawal : Bool := false
  bonusPool : ℤ := 0
  bonusMaxPayers : ℕ := 0
  prerequisiteId : Option ℕ := none
  tranches : List Tranche := []
  releasedBps : ℕ := 0
  coSigners : List Address := []
  requiredSignatures : ℕ := 0
  signatures : List Address := []
  approver : Option Address := none
  approved : Bool := false
  conditionOracle : Option Address := none
  conditionMet : Bool := false
  penaltyBps : ℕ := 0
  penaltyDeadline : ℕ := 0
  minFundingBps : ℕ := 0
  releaseStages : List ℕ := []
  releasedStages : ℕ := 0
  allowedPayers : Option (List Address) := none
  priceOracle : Option Address := none
  swapTokens : List (Option Address) := []
  taxBps : ℕ := 0
  taxAuthority : Option Address := none
  insurancePremiumBps : ℕ := 0
  insuranceFund : ℤ := 0
  smartRoute : Bool := false
  convertToStream : Bool := false
  acceptedTokens : List Address := []
  forwardTo : Option Address := none
  forwardInvoiceId : Option ℕ := none
  splitRules : List SplitRule := []
  autoResolveRules : List ResolveRule := []
  creatorCosigner : Option Address := none
  velocityLimit : ℤ := 0
  velocityWindow : ℕ := 0
  parentInvoiceId : Option ℕ := none
  autoResumeAt : Option ℕ := none
  paymentCooldownSecs : Option ℕ := none
  maxPaymentsPerWindow : Option ℕ := none
  paymentWindowSecs : Option ℕ := none
  scheduledReleaseAt : Option ℕ := none
  refundGraceSecs : Option ℕ := none
  penaltyTiers : List PenaltyTier := []
  allowedCallers : Option (List Address) := none
  notificationContract : Option Address := none
  overflowBehavior : OverflowBehavior := .reject
  requireKyc : Bool := false
  arbiter : Option Address := none
  disputed : Bool := false
  adminFrozen : Bool := false
  auctionOnExpiry : Bool := false
  auctionEnd : ℕ := 0
  bids : List Bid := []
  minPayment : ℤ := 0
  minFundingAmount : ℤ := 0
  priorities : List ℕ := []
  cloneDepth : ℕ := 0
  targetUsdCents : Option ℕ := none
  refundedAddresses : List Address := []
  oracle : Option Address := none
  oracleAssetPairBase : Option String := none
  oracleAssetPairQuote : Option String := none
  minPayerRep : Option ℕ := none
  escrowHoldPeriod : Option ℕ := none
  heldUntil : Option ℕ := none
  milestones : List ℕ := []
  milestonesReleased : ℕ := 0
  recipientMaxPayouts : List (Option ℤ) := []
  releaseConditionHash : Option Hash := none
  overfundingPolicy : OverfundingPolicy := .cap
  predecessorId : Option ℕ := none
  contributorAllowlist : Option (List Address) := none
  earlyBirdWindowLedgers : ℕ := 0
  earlyBirdFeeBps : ℕ := 0
  earlyBirdFeeCredit : ℤ := 0
  creatorFeeBps : ℕ := 0
  ratioDenominator : ℕ := 1
  ratios : List ℕ := []

namespace Invoice

/-- The sum of the recipients' amounts. -/
def total (inv : Invoice) : ℤ := inv.amounts.sum

/-! The updates the contract makes to a loaded invoice. -/

def withPayments (inv : Invoice) (payments : List Payment) : Invoice :=
  { inv with payments := payments }

def withStatus (inv : Invoice) (status : InvoiceStatus) : Invoice := { inv with status := status }

/-- A new status together with the time it was reached. -/
def completed (inv : Invoice) (status : InvoiceStatus) (now : ℕ) : Invoice :=
  { inv with status := status, completionTime := some now }

def withFunded (inv : Invoice) (funded : ℤ) : Invoice := { inv with funded := funded }

def withReleasedBps (inv : Invoice) (bps : ℕ) : Invoice := { inv with releasedBps := bps }

def withMilestones (inv : Invoice) (released : ℕ) : Invoice :=
  { inv with milestonesReleased := released }

def withAuctionEnd (inv : Invoice) (auctionEnd : ℕ) : Invoice := { inv with auctionEnd := auctionEnd }

def withBid (inv : Invoice) (bid : Bid) : Invoice := { inv with bids := inv.bids ++ [bid] }

def withDisputed (inv : Invoice) (disputed : Bool) : Invoice := { inv with disputed := disputed }

/-- The insurance fund has been paid out. -/
def insurancePaid (inv : Invoice) : Invoice :=
  { inv with insuranceFund := if 0 < inv.insuranceFund then 0 else inv.insuranceFund }

/-- A payer is marked as refunded. -/
def markRefunded (inv : Invoice) (payer : Address) : Invoice :=
  { inv with refundedAddresses := inv.refundedAddresses ++ [payer] }

end Invoice

def fundingTokenFor (inv : Invoice) : Address := inv.fundingToken

def recipientTokenFor (inv : Invoice) (i : ℕ) : Address := inv.tokens.getD i inv.fundingToken

/-! ## Token movements -/

/-- What a movement was for. -/
inductive Purpose where
  | payment | penalty | payout | tax | platformFee | protocolFee | creatorFee
  | treasuryNet | stream | bonus | insurance | forward | refund | donation | surplus | bid | bidReturn
  | auctionPayout | retry | fallback | sweep | single | creationFee | bonusPool
  | deposit | channelReturn
deriving DecidableEq, Repr

/-- A movement belongs to an invoice and has a purpose. -/
structure Memo where
  invoice : ℕ
  purpose : Purpose
deriving DecidableEq, Repr

/-! ## Storage -/

/-- Running totals and counters of the contract and its creators. -/
structure Stats where
  totalVolume : ℤ := 0
  totalReleased : ℤ := 0
  totalRefunded : ℤ := 0
  statsVolume : Address → ℕ := fun _ => 0
  statsReleased : Address → ℕ := fun _ => 0
  statsRefunded : Address → ℕ := fun _ => 0
  creatorVolume : Address → ℤ := fun _ => 0
  rebateBalance : Address → ℤ := fun _ => 0
  openInvoices : Address → ℕ := fun _ => 0
  invoiceCount : Address → ℕ := fun _ => 0
  cancelCount : Address → ℕ := fun _ => 0
  cooldownUntil : Address → ℕ := fun _ => 0
  volumeUsed : Address → ℤ := fun _ => 0
  rateUsage : Address → ℕ × ℕ := fun _ => (0, 0)

/-- The storage entries of one invoice. -/
structure Entry where
  invoice : Option Invoice := none
  shards : ℕ → List Payment := fun _ => []
  failedPayouts : List Address := []
  failedRecord : Address → ℤ := fun _ => 0
  fallbackEscrow : Address → ℤ := fun _ => 0
  lastFailedLedger : Option ℕ := none
  paidRecipients : List Address := []
  recipientLock : Address → Bool := fun _ => false
  unreleasedFunds : ℤ := 0
  surplus : ℤ := 0
  contribution : Address → ℤ := fun _ => 0
  cumulative : ℤ := 0
  accumulator : Address → ℤ := fun _ => 0
  nonce : Address → ℕ := fun _ => 0
  velocity : Address → ℕ × ℤ := fun _ => (0, 0)
  paymentOpenAt : Option ℕ := none
  paymentCloseAt : Option ℕ := none
  createdLedger : Option ℕ := none
  disputeRecord : Option DisputeStatus := none
  disputeRaisedAt : ℕ := 0
  releaseDelay : Option ℕ := none
  fundedAtLedger : Option ℕ := none
  group : Option ℕ := none
  treasury : Option Address := none
  cosigners : Option (List Address) := none
  cosignerThreshold : Option ℕ := none
  cosigned : List Address := []
  authRequired : Bool := false
  recipientVerified : Address → Bool := fun _ => false
  renewedTo : Option ℕ := none
  extVotes : List Address := []
  releasedTrancheIdx : ℕ := 0
  channel : Address → Option Channel := fun _ => none
  pedersenCommitment : Address → Option Hash := fun _ => none
  delegation : Address → Option Address := fun _ => none

/-- The storage of the contract, with the log of accepted token movements. `reLock` is the
reentrancy lock in temporary storage. -/
structure Store where
  entries : ℕ → Entry := fun _ => {}
  groups : ℕ → Option InvoiceGroup := fun _ => none
  counter : ℕ := 0
  reLock : Bool := false
  delegates : Address → List Address := fun _ => []
  globalNonce : Address → ℕ := fun _ => 0
  batches : ℕ → Option PaymentBatch := fun _ => none
  stats : Stats := {}
  log : List (Transfer Memo) := []

/-! ## Environment -/

/-- Settings only administrators change. -/
structure Config where
  schemaCurrent : Bool := true
  paused : Bool := false
  breaker : Bool := false
  breakerExempt : List String := []
  pausedFns : List String := []
  upgradeFrozen : Bool := false
  platformFeeBps : ℕ := 0
  feeTiers : List FeeTier := []
  feeBrackets : Option (List FeeBracket) := none
  feeRecipients : Option (List FeeSplit) := none
  rebateTiers : List RebateTier := []
  treasury : Option Address := none
  protocolFee : Option ProtocolFeeConfig := none
  trustedCallers : List Address := []
  feeWaiverList : List Address := []
  feeWaiverExpiry : Address → Option ℕ := fun _ => none
  recipientFeeWaivers : List Address := []
  streamContract : Option Address := none
  dexRouter : Option Address := none
  dashboard : Option Address := none
  kycContract : Option Address := none
  receiptFactory : Option Address := none
  allowedTokens : List Address := []
  admin : Option Address := none
  superAdmins : List Address := []
  operators : List Address := []
  dexContract : Option Address := none
  sweepTimeout : ℕ := 120960
  maxCancelBps : ℕ := 0
  cancellationCooldown : ℕ := 17280
  minRecipients : ℕ := 1
  maxOpenInvoices : ℕ := 100
  creationFee : ℤ := 0
  usdcToken : Option Address := none
  complianceGate : Option Address := none
  complianceContract : Option Address := none
  governanceContract : Option Address := none
  nftGate : Option Address := none
  creatorWhitelist : List Address := []
  pauseExempt : List Address := []
  rateLimit : ℕ := 0
  rateWindow : ℕ := 0
  creatorVolumeCap : Address → ℤ := fun _ => 0
  recipientWhitelist : ℕ → List Address := fun _ => []

/-- The environment of one call: ledger, settings, and what other contracts answer.
`calls` says whether a call of a function of another contract returns, `price` what an
oracle reports, `isVerified` what the KYC contract says, `accountExists` whether a token
knows an account, `hasPath` whether the router finds a path, `attests` whether another
contract vouches for an account, `swapped` what the exchange answers for an amount of a token.
`pedersenDigest` is the digest of a commitment, once its generators are set. `admits` says whether the
rate limiters and the payer's reputation let a payment of a payer pass. The host bounds how
deep one call may nest (`depth`) and how large a stored invoice may be. -/
structure Env extends Ledger Memo where
  config : Config := {}
  calls : Address → String → Bool
  price : Address → Option ℤ
  isVerified : Address → Bool
  accountExists : Address → Address → Bool
  hasPath : Address → Address → Bool
  attests : Address → String → Address → Bool := fun _ _ _ => true
  sha256 : List ℕ → Hash
  swapped : Address → Address → ℤ → ℤ := fun _ _ amount => amount
  pedersenDigest : ℤ → Hash → Option Hash := fun _ _ => none
  admits : ℕ → Address → ℤ → Bool
  fitsQuota : Invoice → Bool
  depth : ℕ

/-- The codes of `ContractError` the modelled functions raise. -/
inductive ContractError where
  | reentrantCall | invoiceDisputed | arithmeticOverflow | invalidStatus | zeroAmountNotAllowed
  | recipientAccountMissing | unauthorisedToken | tooFewRecipients | invalidAmount
  | feeSumExceedsCap | invalidRatio | invalidRatioSum | invalidRecipients | emptyRecipientList
  | creatorInvoiceLimitReached | invalidRecipientAddress | rateLimitExceeded | batchLimitExceeded
  | recoveryIncomplete | invalidArgument | missingStorageEntry | invoiceNotFound
deriving DecidableEq, Repr

abbrev SplitFault := Fault ContractError

abbrev SplitM (α : Type) := Exec.Call Store SplitFault α

end StellarSplit.Split
