import StellarSplit.Host
import StellarSplit.Lib.KeyMap

/-!
# Data of the invoice escrow

The records of the escrow contract and its storage. Persistent entries are
maps from invoice ids; the deposits of an invoice are a finite map from
payers to amounts.
-/

namespace StellarSplit.Escrow

inductive Error where
  | notAdmin | noPendingAdmin | unauthorized | alreadyInitialized | notInitialized
  | invoiceNotFound | deadlinePassed | invalidStatus | invalidAmount | invalidTotalAmount
  | overFunded | insufficientFunding | deadlineNotPassed | invalidRecipients
  | payerBlacklisted | appealWindowExpired | notBlacklisted | alreadyFinalised
  | notBlacklistedPayer | invalidCosignerConfig | notCosigner | alreadyVoted
  | approvalRequired | approvalRejected | notVoted | cosignersLocked | noCosigners
  | invalidOracleConfig | oracleUnavailable | oracleStalePrice | oracleInvalidPrice
  | oracleConditionNotMet | noOracleCondition | invalidSchedule | releaseNotYetDue
  | scheduleLedgerNotReached | scheduleNotFound | refundGraceActive | invalidGracePeriod
  | refundGraceElapsed | deadlineOutOfRange
deriving DecidableEq, Repr

inductive RefundReason where
  | deadlineExpired | adminCancelled | overfunded | payerRequested | errorRecovery
deriving DecidableEq, Repr

inductive EscrowStatus where
  | pending | active | released | refunded | cancelled
deriving DecidableEq, Repr

structure EscrowInvoice where
  creator : Address
  token : Address
  totalAmount : ℤ
  fundedAmount : ℤ
  deadline : ℕ
  status : EscrowStatus
  refundReason : Option RefundReason
deriving DecidableEq, Repr

/-- A 32-byte hash. -/
abbrev Hash := BitVec 256

structure BlacklistEntry where
  bannedAt : ℕ
  appealHash : Option Hash
  finalised : Bool
  upheld : Bool
  reasonHash : Hash
deriving DecidableEq

inductive ApprovalStatus where
  | pending | approved | rejected
deriving DecidableEq, Repr

structure CosignerApproval where
  signers : List Address
  threshold : ℕ
  approvals : List Address
  rejections : List Address
  status : ApprovalStatus
  updatedLedger : ℕ
deriving DecidableEq, Repr

structure PriceData where
  price : ℤ
  timestamp : ℕ
deriving DecidableEq, Repr

inductive PriceComparator where
  | greaterOrEqual | lessOrEqual
deriving DecidableEq, Repr

inductive OracleSource where
  | primary | fallback
deriving DecidableEq, Repr

structure OracleCondition where
  oracle : Address
  fallbackOracle : Option Address
  asset : Address
  comparator : PriceComparator
  thresholdPrice : ℤ
  maxStalenessSecs : ℕ
deriving DecidableEq, Repr

structure OracleReading where
  price : ℤ
  priceTimestamp : ℕ
  source : OracleSource
  conditionMet : Bool
  checkedAt : ℕ
deriving DecidableEq, Repr

inductive ScheduleStatus where
  | scheduled | executed | cancelled
deriving DecidableEq, Repr

structure ReleaseSchedule where
  releaseAt : ℕ
  unlockLedger : ℕ
  scheduledAt : ℕ
  scheduledLedger : ℕ
  status : ScheduleStatus
deriving DecidableEq, Repr

structure RefundGrace where
  graceSecs : ℕ
  extensionSecs : ℕ
  waived : Bool
deriving DecidableEq, Repr

inductive RefundGraceStatus where
  | noGrace | notStarted | active | elapsed | waived
deriving DecidableEq, Repr

/-! ## Storage -/

/-- What a token movement of the escrow was for. -/
inductive Memo where
  | deposit (id : ℕ)
  | release (id : ℕ)
  | refund (id : ℕ)
deriving DecidableEq, Repr

/-- The invoice a movement belongs to. -/
def Memo.invoice : Memo → ℕ
  | .deposit id => id
  | .release id => id
  | .refund id => id

/-- The contract's storage, with the log of accepted token movements. -/
structure Store where
  admin : Option Address
  pendingAdmin : Option Address
  counter : Option ℕ
  defaultGrace : Option ℕ
  invoices : ℕ → Option EscrowInvoice
  deposits : ℕ → KeyMap ℤ
  blacklist : Address → Option BlacklistEntry
  approvals : ℕ → Option CosignerApproval
  oracleConds : ℕ → Option OracleCondition
  oracleReads : ℕ → Option OracleReading
  schedules : ℕ → Option ReleaseSchedule
  graces : ℕ → Option RefundGrace
  log : List (Transfer Memo)

/-- The storage of a contract that was just deployed. -/
def Store.fresh : Store where
  admin := none
  pendingAdmin := none
  counter := none
  defaultGrace := none
  invoices _ := none
  deposits _ := .empty
  blacklist _ := none
  approvals _ := none
  oracleConds _ := none
  oracleReads _ := none
  schedules _ := none
  graces _ := none
  log := []

/-- The environment of one call; `lastprice` is an oracle contract's answer for an
asset, `none` when the oracle is missing, fails or has no price. -/
structure Env extends Ledger Memo where
  lastprice : Address → Address → Option PriceData

abbrev EscrowM (α : Type) := Exec.Call Store (Fault Error) α

end StellarSplit.Escrow
