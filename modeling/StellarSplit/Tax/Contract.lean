import Mathlib.Logic.Function.Basic
import StellarSplit.Lib.Runs
import StellarSplit.Host

/-!
# Tax strategies

Creators say how incoming payments are split: a deduction before tax, a reserve by a flat rate or by
marginal brackets on the income of the period, and the rest. The entry points in the order of their
checks, and for each what it does when it returns.
-/

namespace StellarSplit.Tax

open Exec Function Machine

/-! ## Data -/

inductive Error where
  | alreadyInitialized | notInitialized | notAdmin | invalidRate | invalidBrackets | invalidDeduction
  | invalidPeriod | templateNotFound | missingTemplate | strategyNotFound | invalidAmount | overflow
deriving DecidableEq, Repr

inductive StrategyKind where
  | flat | progressive | template
deriving DecidableEq, Repr

structure TaxBracket where
  threshold : ℤ
  rateBps : ℕ
deriving DecidableEq, Repr

structure StrategyConfig where
  kind : StrategyKind
  flatBps : ℕ
  brackets : List TaxBracket
  template : Option Symbol
  reserveWallet : Address
  deductionBps : ℕ
  deductionWallet : Option Address
  periodLedgers : ℕ
deriving DecidableEq, Repr

structure TaxStrategy where
  creator : Address
  config : StrategyConfig
  updatedAt : ℕ
deriving DecidableEq, Repr

structure PeriodSummary where
  startLedger : ℕ := 0
  grossIncome : ℤ := 0
  taxableIncome : ℤ := 0
  deducted : ℤ := 0
  reserved : ℤ := 0
  netPaid : ℤ := 0
deriving DecidableEq, Repr

structure IncomeBreakdown where
  gross : ℤ
  deducted : ℤ
  taxable : ℤ
  reserved : ℤ
  net : ℤ
  effectiveRateBps : ℕ
deriving DecidableEq, Repr

inductive TaxEvent where
  | templateSet (name : Symbol) (brackets : ℕ)
  | templateRemoved (name : Symbol)
  | strategySet (creator : Address) (kind : StrategyKind) (deductionBps periodLedgers : ℕ)
  | strategyRemoved (creator : Address)
  | income (creator token : Address) (gross deducted reserved net : ℤ)
  | periodClosed (creator : Address) (startLedger : ℕ) (grossIncome deducted reserved netPaid : ℤ)
deriving DecidableEq, Repr

/-- The contract's storage, with the published events and the accepted token movements, newest first. -/
structure Store where
  admin : Option Address := none
  templates : Symbol → Option (List TaxBracket) := fun _ => none
  strategies : Address → Option TaxStrategy := fun _ => none
  periods : Address → Option PeriodSummary := fun _ => none
  lastPeriods : Address → Option PeriodSummary := fun _ => none
  events : List TaxEvent := []
  log : List (Transfer Unit) := []

abbrev TaxM (α : Type) := Call Store (Fault Error) α

def maxRateBps : ℕ := 6000

def maxDeductionBps : ℕ := 3000

def maxBrackets : ℕ := 10

def minPeriodLedgers : ℕ := 120960

def maxPeriodLedgers : ℕ := 12614400

/-! ## Internal helpers -/

/-- A checked operation in a computation without state. -/
def checked (x : Option ℤ) : Except (Fault Error) ℤ :=
  match x with
  | some a => .ok a
  | none => .error (.error .overflow)

/-- A subtraction that traps on overflow. -/
def subtract (a b : ℤ) : Except (Fault Error) ℤ :=
  if InI128 (a - b) then .ok (a - b) else .error .overflow

def requireAdmin (env : Ledger Unit) (admin : Address) : TaxM Unit := do
  let s ← get
  let stored ← orError s.admin .notInitialized
  require (stored = admin) (.error .notAdmin)
  requireAuth env admin

def emit (e : TaxEvent) : TaxM Unit :=
  modify fun s => { s with events := e :: s.events }

/-- A token transfer; it traps when the token contract refuses. -/
def transfer (env : Ledger Unit) (token src dst : Address) (amount : ℤ) : TaxM Unit := do
  let s ← get
  require (env.accepts s.log ⟨token, src, dst, amount, ()⟩ = true) .tokenRefused
  set { s with log := ⟨token, src, dst, amount, ()⟩ :: s.log }

/-- The loop over the brackets; `prev` is the threshold of the bracket before. -/
def checkBrackets (prev : Option ℤ) : List TaxBracket → Except (Fault Error) Unit
  | [] => .ok ()
  | b :: rest =>
      if maxRateBps < b.rateBps then .error (.error .invalidRate)
      else
        match prev with
        | none =>
            if b.threshold ≠ 0 then .error (.error .invalidBrackets) else checkBrackets (some b.threshold) rest
        | some p =>
            if b.threshold ≤ p then .error (.error .invalidBrackets) else checkBrackets (some b.threshold) rest

def validateBrackets (brackets : List TaxBracket) : Except (Fault Error) Unit :=
  if brackets.isEmpty ∨ maxBrackets < brackets.length then .error (.error .invalidBrackets)
  else checkBrackets none brackets

def validateConfig (config : StrategyConfig) : TaxM Unit := do
  (match config.kind with
    | .flat => require (config.flatBps ≤ maxRateBps) (.error .invalidRate)
    | .progressive => ofResult (validateBrackets config.brackets)
    | .template => do
        let name ← orError config.template .missingTemplate
        let s ← get
        require ((s.templates name).isSome = true) (.error .templateNotFound) : TaxM Unit)
  require (config.deductionBps ≤ maxDeductionBps ∧ ¬(0 < config.deductionBps ∧ config.deductionWallet = none))
    (.error .invalidDeduction)
  require (minPeriodLedgers ≤ config.periodLedgers ∧ config.periodLedgers ≤ maxPeriodLedgers)
    (.error .invalidPeriod)

/-- The loop over the brackets: the part of the income from `start` to `finish` that falls into each is
taxed at its rate. -/
def taxSlices (start finish : ℤ) : List TaxBracket → ℤ → Except (Fault Error) ℤ
  | [], tax => .ok tax
  | b :: rest, tax =>
      let upper := (rest.head?.map TaxBracket.threshold).getD i128Max
      let lo := max start b.threshold
      let hi := min finish upper
      if lo < hi then do
        let slice ← subtract hi lo
        let scaled ← checked (checkedMulI128 slice b.rateBps)
        let next ← checked (checkedAddI128 tax (scaled.tdiv 10000))
        taxSlices start finish rest next
      else taxSlices start finish rest tax

def marginalTax (brackets : List TaxBracket) (prior amount : ℤ) : Except (Fault Error) ℤ := do
  let finish ← checked (checkedAddI128 prior amount)
  taxSlices prior finish brackets 0

def loadTemplate (templates : Symbol → Option (List TaxBracket)) (name : Symbol) :
    Except (Fault Error) (List TaxBracket) :=
  match templates name with
  | some brackets => .ok brackets
  | none => .error (.error .templateNotFound)

/-- The reserve on `taxable` income after `priorTaxable` in the same period. -/
def reserveOf (templates : Symbol → Option (List TaxBracket)) (config : StrategyConfig)
    (priorTaxable taxable : ℤ) : Except (Fault Error) ℤ :=
  match config.kind with
  | .flat => do
      let scaled ← checked (checkedMulI128 taxable config.flatBps)
      pure (scaled.tdiv 10000)
  | .progressive => marginalTax config.brackets priorTaxable taxable
  | .template =>
      match config.template with
      | none => .error (.error .missingTemplate)
      | some name => do
          let brackets ← loadTemplate templates name
          marginalTax brackets priorTaxable taxable

def computeBreakdown (templates : Symbol → Option (List TaxBracket)) (config : StrategyConfig)
    (priorTaxable gross : ℤ) : Except (Fault Error) IncomeBreakdown := do
  if gross ≤ 0 then .error (.error .invalidAmount)
  else
    let scaled ← checked (checkedMulI128 gross config.deductionBps)
    let deducted := scaled.tdiv 10000
    let taxable ← subtract gross deducted
    let reserved ← reserveOf templates config priorTaxable taxable
    let net ← subtract taxable reserved
    let rate ← checked (checkedMulI128 reserved 10000)
    pure
      { gross := gross, deducted := deducted, taxable := taxable, reserved := reserved, net := net,
        effectiveRateBps := asU32 (rate.tdiv gross) }

def newPeriod (startLedger : ℕ) : PeriodSummary := { startLedger := startLedger }

def PeriodSummary.closedEvent (creator : Address) (p : PeriodSummary) : TaxEvent :=
  .periodClosed creator p.startLedger p.grossIncome p.deducted p.reserved p.netPaid

/-- The period of the creator, rolled over (and archived if `roll`) when its ledgers have elapsed. -/
def currentPeriod (env : Ledger Unit) (creator : Address) (periodLedgers : ℕ) (roll : Bool) :
    TaxM PeriodSummary := do
  let now := env.sequence
  let s ← get
  match s.periods creator with
  | some p =>
      if now < satAddU32 p.startLedger periodLedgers then pure p
      else do
        onlyIf (roll = true) do
          modify fun s => { s with lastPeriods := update s.lastPeriods creator (some p) }
          emit (p.closedEvent creator)
        pure (newPeriod now)
  | none => pure (newPeriod now)

def loadStrategy (creator : Address) : TaxM TaxStrategy := do
  let s ← get
  orError (s.strategies creator) .strategyNotFound

/-! ## Entry points -/

def initializeContract (admin : Address) : TaxM Unit := do
  let s ← get
  require (s.admin.isNone = true) (.error .alreadyInitialized)
  set { s with admin := some admin }

def setTemplate (env : Ledger Unit) (admin : Address) (name : Symbol) (brackets : List TaxBracket) :
    TaxM Unit := do
  requireAdmin env admin
  ofResult (validateBrackets brackets)
  modify fun s => { s with templates := update s.templates name (some brackets) }
  emit (.templateSet name brackets.length)

def removeTemplate (env : Ledger Unit) (admin : Address) (name : Symbol) : TaxM Unit := do
  requireAdmin env admin
  let s ← get
  require ((s.templates name).isSome = true) (.error .templateNotFound)
  set { s with templates := update s.templates name none }
  emit (.templateRemoved name)

def setStrategy (env : Ledger Unit) (creator : Address) (config : StrategyConfig) : TaxM Unit := do
  requireAuth env creator
  let s ← get
  require (s.admin.isSome = true) (.error .notInitialized)
  validateConfig config
  modify fun s => { s with
    strategies := update s.strategies creator
      (some { creator := creator, config := config, updatedAt := env.now }) }
  emit (.strategySet creator config.kind config.deductionBps config.periodLedgers)

def removeStrategy (env : Ledger Unit) (creator : Address) : TaxM Unit := do
  requireAuth env creator
  let s ← get
  require ((s.strategies creator).isSome = true) (.error .strategyNotFound)
  set { s with strategies := update s.strategies creator none }
  emit (.strategyRemoved creator)

/-- The three transfers of a payment, each made only when it is of something. -/
def payOut (env : Ledger Unit) (config : StrategyConfig) (payer creator token : Address)
    (b : IncomeBreakdown) : TaxM Unit := do
  onlyIf (0 < b.deducted) do
    match config.deductionWallet with
    | some wallet => transfer env token payer wallet b.deducted
    | none => pure ()
  onlyIf (0 < b.reserved) (transfer env token payer config.reserveWallet b.reserved)
  onlyIf (0 < b.net) (transfer env token payer creator b.net)

/-- The period with one more payment. -/
def addTo (period : PeriodSummary) (b : IncomeBreakdown) : Except (Fault Error) PeriodSummary := do
  let grossIncome ← checked (checkedAddI128 period.grossIncome b.gross)
  let taxableIncome ← checked (checkedAddI128 period.taxableIncome b.taxable)
  let deducted ← checked (checkedAddI128 period.deducted b.deducted)
  let reserved ← checked (checkedAddI128 period.reserved b.reserved)
  let netPaid ← checked (checkedAddI128 period.netPaid b.net)
  pure
    { period with
      grossIncome := grossIncome, taxableIncome := taxableIncome, deducted := deducted
      reserved := reserved, netPaid := netPaid }

def processIncome (env : Ledger Unit) (payer creator token : Address) (gross : ℤ) :
    TaxM IncomeBreakdown := do
  requireAuth env payer
  let strategy ← loadStrategy creator
  let config := strategy.config
  let period ← currentPeriod env creator config.periodLedgers true
  let s ← get
  let b ← ofResult (computeBreakdown s.templates config period.taxableIncome gross)
  payOut env config payer creator token b
  let period ← ofResult (addTo period b)
  modify fun s => { s with periods := update s.periods creator (some period) }
  emit (.income creator token b.gross b.deducted b.reserved b.net)
  pure b

/-! ## Views -/

def estimate (env : Ledger Unit) (creator : Address) (gross : ℤ) : TaxM IncomeBreakdown := do
  let strategy ← loadStrategy creator
  let period ← currentPeriod env creator strategy.config.periodLedgers false
  let s ← get
  ofResult (computeBreakdown s.templates strategy.config period.taxableIncome gross)

end StellarSplit.Tax
