import StellarSplit.Lib.Bytes
import StellarSplit.Split.Storage

/-!
# The stored records of an invoice

An invoice is split over three records when it is saved and assembled from them
when it is loaded. Its status, funding and deadline are also packed into a byte
record of their own, which is laid over the assembled invoice. The invoice of
the payment and release paths is a view of the whole record.
-/

namespace StellarSplit.Split.Schema

open Machine

/-- A payment with the fields no path of the model reads. -/
structure Payment extends Split.Payment where
  attestationHash : Option Hash
  ledger : ℕ
  timestamp : ℕ

structure InvoiceCore where
  version : ℕ
  creator : Address
  coCreators : List Address
  recipients : List Address
  amounts : List ℤ
  tokens : List Address
  fundingToken : Address
  deadline : U64
  funded : I128
  status : InvoiceStatus
  payments : List Payment
  dripDuration : Option ℕ
  releaseTimestamp : Option ℕ
  claimed : List ℤ
  frozen : Bool
  completionTime : Option ℕ
  allowEarlyWithdrawal : Bool
  bonusPool : ℤ
  bonusMaxPayers : ℕ
  prerequisiteId : Option ℕ
  tranches : List Tranche
  releasedBps : ℕ
  cloneDepth : ℕ
  predecessorId : Option ℕ
  metadataHash : Option Hash

/-- The defaults are those of `InvoiceExt::default`. -/
structure InvoiceExt where
  coSigners : List Address := []
  requiredSignatures : ℕ := 0
  signatures : List Address := []
  approver : Option Address := none
  approved : Bool := false
  conditionOracle : Option Address := none
  conditionMet : Bool := false
  penaltyBps : ℕ := 0
  penaltyDeadline : ℕ := 0
  minFundingBps : ℕ := 0
  releaseStages : List ℕ := []
  releasedStages : ℕ := 0
  allowedPayers : Option (List Address) := none
  priceOracle : Option Address := none
  baseAmounts : List ℤ := []
  swapTokens : List (Option Address) := []
  taxBps : ℕ := 0
  taxAuthority : Option Address := none
  insurancePremiumBps : ℕ := 0
  insuranceFund : ℤ := 0
  smartRoute : Bool := false
  convertToStream : Bool := false
  acceptedTokens : List Address := []
  forwardTo : Option Address := none
  forwardInvoiceId : Option ℕ := none
  splitRules : List SplitRule := []
  autoResolveRules : List ResolveRule := []
  creatorCosigner : Option Address := none
  velocityLimit : ℤ := 0
  velocityWindow : ℕ := 0
  parentInvoiceId : Option ℕ := none
  pauseReason : Option String := none
  autoResumeAt : Option ℕ := none
  paymentCooldownSecs : Option ℕ := none
  maxPaymentsPerWindow : Option ℕ := none
  paymentWindowSecs : Option ℕ := none
  scheduledReleaseAt : Option ℕ := none
  penaltyTiers : List PenaltyTier := []
  allowedCallers : Option (List Address) := none
  refundGraceSecs : Option ℕ := none

/-- The defaults are those of `InvoiceExt2::default`. -/
structure InvoiceExt2 where
  notificationContract : Option Address := none
  overflowBehavior : OverflowBehavior := .reject
  crossChainRef : Option String := none
  requireKyc : Bool := false
  arbiter : Option Address := none
  disputed : Bool := false
  adminFrozen : Bool := false
  auctionOnExpiry : Bool := false
  auctionEnd : ℕ := 0
  bids : List Bid := []
  minPayment : ℤ := 0
  minFundingAmount : ℤ := 0
  priorities : List ℕ := []
  targetUsdCents : Option ℕ := none
  refundedAddresses : List Address := []
  oracle : Option Address := none
  oracleAssetPairBase : Option String := none
  oracleAssetPairQuote : Option String := none
  minPayerRep : Option ℕ := none
  escrowHoldPeriod : Option ℕ := none
  heldUntil : Option ℕ := none
  milestones : List ℕ := []
  milestonesReleased : ℕ := 0
  recipientMaxPayouts : List (Option ℤ) := []
  twafrNumerator : ℤ := 0
  twafrLastLedger : ℕ := 0
  releaseConditionHash : Option Hash := none
  recipientWhitelistEnabled : Bool := false
  overfundingPolicy : OverfundingPolicy := .cap
  contributorAllowlist : Option (List Address) := none
  earlyBirdWindowLedgers : ℕ := 0
  earlyBirdFeeBps : ℕ := 0
  earlyBirdFeeCredit : ℤ := 0
  creatorFeeBps : ℕ := 0
  ratioDenominator : ℕ := 10000
  ratios : List ℕ := []

/-- The whole invoice, as it is passed around between a load and a save. -/
structure Invoice where
  version : ℕ
  creator : Address
  coCreators : List Address
  recipients : List Address
  amounts : List ℤ
  tokens : List Address
  fundingToken : Address
  deadline : U64
  funded : I128
  status : InvoiceStatus
  payments : List Payment
  dripDuration : Option ℕ
  releaseTimestamp : Option ℕ
  claimed : List ℤ
  frozen : Bool
  completionTime : Option ℕ
  allowEarlyWithdrawal : Bool
  bonusPool : ℤ
  bonusMaxPayers : ℕ
  prerequisiteId : Option ℕ
  tranches : List Tranche
  releasedBps : ℕ
  coSigners : List Address
  requiredSignatures : ℕ
  signatures : List Address
  approver : Option Address
  approved : Bool
  conditionOracle : Option Address
  conditionMet : Bool
  penaltyBps : ℕ
  penaltyDeadline : ℕ
  minFundingBps : ℕ
  releaseStages : List ℕ
  releasedStages : ℕ
  allowedPayers : Option (List Address)
  priceOracle : Option Address
  baseAmounts : List ℤ
  swapTokens : List (Option Address)
  taxBps : ℕ
  taxAuthority : Option Address
  insurancePremiumBps : ℕ
  insuranceFund : ℤ
  smartRoute : Bool
  convertToStream : Bool
  acceptedTokens : List Address
  forwardTo : Option Address
  forwardInvoiceId : Option ℕ
  splitRules : List SplitRule
  autoResolveRules : List ResolveRule
  creatorCosigner : Option Address
  velocityLimit : ℤ
  velocityWindow : ℕ
  parentInvoiceId : Option ℕ
  pauseReason : Option String
  autoResumeAt : Option ℕ
  paymentCooldownSecs : Option ℕ
  maxPaymentsPerWindow : Option ℕ
  paymentWindowSecs : Option ℕ
  scheduledReleaseAt : Option ℕ
  refundGraceSecs : Option ℕ
  penaltyTiers : List PenaltyTier
  allowedCallers : Option (List Address)
  notificationContract : Option Address
  overflowBehavior : OverflowBehavior
  crossChainRef : Option String
  requireKyc : Bool
  arbiter : Option Address
  disputed : Bool
  adminFrozen : Bool
  auctionOnExpiry : Bool
  auctionEnd : ℕ
  bids : List Bid
  minPayment : ℤ
  minFundingAmount : ℤ
  priorities : List ℕ
  cloneDepth : ℕ
  targetUsdCents : Option ℕ
  refundedAddresses : List Address
  oracle : Option Address
  oracleAssetPairBase : Option String
  oracleAssetPairQuote : Option String
  minPayerRep : Option ℕ
  escrowHoldPeriod : Option ℕ
  heldUntil : Option ℕ
  milestones : List ℕ
  milestonesReleased : ℕ
  recipientMaxPayouts : List (Option ℤ)
  twafrNumerator : ℤ
  twafrLastLedger : ℕ
  releaseConditionHash : Option Hash
  recipientWhitelistEnabled : Bool
  overfundingPolicy : OverfundingPolicy
  predecessorId : Option ℕ
  metadataHash : Option Hash
  contributorAllowlist : Option (List Address)
  earlyBirdWindowLedgers : ℕ
  earlyBirdFeeBps : ℕ
  earlyBirdFeeCredit : ℤ
  creatorFeeBps : ℕ
  ratioDenominator : ℕ
  ratios : List ℕ

namespace Invoice

/-! ## Three records -/

/-- Each record takes the fields of its name. -/
def split (inv : Invoice) : InvoiceCore × InvoiceExt × InvoiceExt2 :=
  ({ inv with }, { inv with }, { inv with })

/-- Each field comes from the record that has it. -/
def assemble (core : InvoiceCore) (ext : InvoiceExt) (ext2 : InvoiceExt2) : Invoice :=
  { core, ext, ext2 with }

@[simp] theorem assemble_split (inv : Invoice) :
    assemble inv.split.1 inv.split.2.1 inv.split.2.2 = inv := rfl

@[simp] theorem split_assemble (core : InvoiceCore) (ext : InvoiceExt) (ext2 : InvoiceExt2) :
    (assemble core ext ext2).split = (core, ext, ext2) := rfl

end Invoice

/-! ## The byte record -/

/-- One byte of status, sixteen of funding and eight of deadline. -/
structure CompactInvoice where
  data : List UInt8
deriving DecidableEq

/-- The status byte that `to_compact` writes. -/
def statusByte : InvoiceStatus → UInt8
  | .pending => 0
  | .released => 1
  | .refunded => 2
  | .cancelled => 3
  | .expired => 4
  | .disputed => 5
  | .partiallyReleased => 6
  | .finalised => 7
  | .deleted => 8
  | .payoutInProgress => 9

/-- The status that `from_compact` reads: the byte 9 has no case of its own. -/
def statusOfByte (byte : UInt8) : InvoiceStatus :=
  match byte.toNat with
  | 0 => .pending
  | 1 => .released
  | 2 => .refunded
  | 3 => .cancelled
  | 4 => .expired
  | 5 => .disputed
  | 6 => .partiallyReleased
  | 7 => .finalised
  | 8 => .deleted
  | _ => .pending

theorem statusOfByte_statusByte (status : InvoiceStatus) :
    statusOfByte (statusByte status) = if status = .payoutInProgress then .pending else status := by
  cases status <;> rfl

namespace Invoice

def toCompact (inv : Invoice) : CompactInvoice :=
  ⟨[statusByte inv.status] ++ I128.toBytes inv.funded ++ U64.toBytes inv.deadline⟩

def fromCompact (compact : CompactInvoice) (core : InvoiceCore) (ext : InvoiceExt) (ext2 : InvoiceExt2) :
    Result Invoice :=
  if compact.data.length < 25 then .error (.panic "from_compact: data too short")
  else .ok { assemble core ext ext2 with
    status := statusOfByte (compact.data.getD 0 0)
    funded := I128.ofBytes ((compact.data.drop 1).take 16)
    deadline := U64.ofBytes ((compact.data.drop 17).take 8) }

/-- Reading the byte record of an invoice over any three records. -/
theorem fromCompact_toCompact (inv : Invoice) (core : InvoiceCore) (ext : InvoiceExt)
    (ext2 : InvoiceExt2) :
    fromCompact inv.toCompact core ext ext2 = .ok { assemble core ext ext2 with
      status := if inv.status = .payoutInProgress then .pending else inv.status
      funded := inv.funded
      deadline := inv.deadline } := by
  have hlength : ¬inv.toCompact.data.length < 25 := by simp [toCompact]
  have hfunded : (inv.toCompact.data.drop 1).take 16 = I128.toBytes inv.funded := by
    simp [toCompact, List.take_left']
  have hdeadline : (inv.toCompact.data.drop 17).take 8 = U64.toBytes inv.deadline := by
    have hhead : ([statusByte inv.status] ++ I128.toBytes inv.funded).length = 17 := by simp
    unfold toCompact
    rw [List.drop_left' hhead, List.take_of_length_le (by simp)]
  unfold fromCompact
  rw [if_neg hlength, hfunded, hdeadline, I128.ofBytes_toBytes, U64.ofBytes_toBytes,
    ← statusOfByte_statusByte]
  rfl

/-! ## The view of the payment and release paths -/

def view (inv : Invoice) : Split.Invoice :=
  { inv with
    deadline := inv.deadline.1
    funded := inv.funded.1
    payments := inv.payments.map Payment.toPayment }

end Invoice

end StellarSplit.Split.Schema
