import StellarSplit.Split.Types

/-!
# Storage access, guards and fees

The helpers the entry points share: loading and saving invoices, the pause
guards, token movements out of and into the contract, and the platform fee.
A failed `tryTransfer` is a value; a refused `transfer` is a trap.
-/

namespace StellarSplit.Split

open Exec Function Machine

/-! ## Invoices -/

/-- The number of payment shards of an invoice. -/
def shardCount : ℕ := 8

/-- The shard of a payer: the last byte of the address, modulo the number of shards. -/
def computeShardId (payer : Address) : ℕ := payer % 256 % shardCount

/-- All recorded payments of an invoice, shard by shard. -/
def Entry.payments (e : Entry) : List Payment := (List.range shardCount).flatMap e.shards

/-- The stored record with the payments of the shards. -/
def Entry.load (e : Entry) : Option Invoice :=
  e.invoice.map fun inv => inv.withPayments e.payments

/-- The entries of an invoice. -/
def getEntry (id : ℕ) : SplitM Entry := do
  let s ← get
  pure (s.entries id)

/-- Replace the entries of one invoice. -/
def Store.setEntry (s : Store) (id : ℕ) (e : Entry) : Store :=
  { s with entries := update s.entries id e }

@[simp] theorem Store.setEntry_self (s : Store) (id : ℕ) (e : Entry) :
    (s.setEntry id e).entries id = e := update_self ..

theorem Store.setEntry_ne (s : Store) {id k : ℕ} (h : k ≠ id) (e : Entry) :
    (s.setEntry id e).entries k = s.entries k := update_of_ne h ..

@[simp] theorem Store.setEntry_log (s : Store) (id : ℕ) (e : Entry) :
    (s.setEntry id e).log = s.log := rfl

/-- Change the entries of one invoice. -/
def modifyEntry (id : ℕ) (f : Entry → Entry) : SplitM Unit :=
  modify fun s => s.setEntry id (f (s.entries id))

def loadInvoice (id : ℕ) : SplitM Invoice := do
  let e ← getEntry id
  orPanic e.load "invoice not found"

def saveInvoice (env : Env) (id : ℕ) (inv : Invoice) : SplitM Unit := do
  require (env.fitsQuota inv = true) (.panic "StorageQuotaExceeded")
  modifyEntry id fun e => { e with invoice := some (inv.withPayments []) }

/-- Append a payment to the payer's shard. -/
def pushPayment (id : ℕ) (p : Payment) : SplitM Unit :=
  modifyEntry id fun e => { e with
    shards := update e.shards (computeShardId p.payer) (e.shards (computeShardId p.payer) ++ [p]) }

/-- Add to the lifetime contributions of an invoice. -/
def addCumulative (id : ℕ) (amount : ℤ) : SplitM Unit :=
  modifyEntry id fun e => { e with cumulative := e.cumulative + amount }

/-! ## Guards -/

def isPaused (env : Env) : Bool := env.config.paused

/-- `circuit_breaker_blocks`: the breaker is open and the function is not exempt. -/
def circuitBreakerBlocks (env : Env) (function : Option String) : Bool :=
  env.config.breaker &&
    match function with
    | some f => !env.config.breakerExempt.contains f
    | none => true

def requireAdmin {σ : Type} (env : Env) : Call σ SplitFault Address := do
  require (env.config.schemaCurrent = true) (.panic "MigrationRequired")
  let admin ← orPanic env.config.admin "admin not set"
  requireAuth env.toLedger admin
  pure admin

def requireNotPaused (env : Env) : SplitM Unit := do
  require (env.config.schemaCurrent = true) (.panic "MigrationRequired")
  require (isPaused env = false ∧ circuitBreakerBlocks env none = false)
    (.panic "contract is paused")

def requireFnNotPaused (env : Env) (name : String) : SplitM Unit := do
  require (env.config.schemaCurrent = true) (.panic "MigrationRequired")
  require (isPaused env = false ∧ circuitBreakerBlocks env (some name) = false)
    (.panic "contract is paused")
  require (name ∉ env.config.pausedFns) (.panic "function paused")

def requireNotFrozen (env : Env) : SplitM Unit := do
  require (env.config.schemaCurrent = true) (.panic "MigrationRequired")
  require (env.config.upgradeFrozen = false) (.panic "contract is frozen for upgrade")

section Guards

variable {env : Env} {s t : Store} {v : Unit}

/-- Nothing pauses the contract as a whole. -/
def Running (env : Env) : Prop :=
  env.config.schemaCurrent = true ∧ isPaused env = false ∧ circuitBreakerBlocks env none = false

/-- Nothing pauses the function. -/
def FnRunning (env : Env) (name : String) : Prop :=
  env.config.schemaCurrent = true ∧
    (isPaused env = false ∧ circuitBreakerBlocks env (some name) = false) ∧
    name ∉ env.config.pausedFns

@[simp] theorem requireNotPaused_ok :
    requireNotPaused env s = .ok (v, t) ↔ Running env ∧ s = t := by
  simp only [requireNotPaused, Running, bind_ok, require_ok]
  constructor
  · rintro ⟨_, _, ⟨h₁, rfl⟩, h₂, rfl⟩
    exact ⟨⟨h₁, h₂⟩, rfl⟩
  · rintro ⟨⟨h₁, h₂⟩, rfl⟩
    exact ⟨(), s, ⟨h₁, rfl⟩, h₂, rfl⟩

@[simp] theorem requireFnNotPaused_ok {name : String} :
    requireFnNotPaused env name s = .ok (v, t) ↔ FnRunning env name ∧ s = t := by
  simp only [requireFnNotPaused, FnRunning, bind_ok, require_ok]
  constructor
  · rintro ⟨_, _, ⟨h₁, rfl⟩, _, _, ⟨h₂, rfl⟩, h₃, rfl⟩
    exact ⟨⟨h₁, h₂, h₃⟩, rfl⟩
  · rintro ⟨⟨h₁, h₂, h₃⟩, rfl⟩
    exact ⟨(), s, ⟨h₁, rfl⟩, (), s, ⟨h₂, rfl⟩, h₃, rfl⟩

@[simp] theorem requireNotFrozen_ok :
    requireNotFrozen env s = .ok (v, t) ↔
      (env.config.schemaCurrent = true ∧ env.config.upgradeFrozen = false) ∧ s = t := by
  simp only [requireNotFrozen, bind_ok, require_ok]
  constructor
  · rintro ⟨_, _, ⟨h₁, rfl⟩, h₂, rfl⟩
    exact ⟨⟨h₁, h₂⟩, rfl⟩
  · rintro ⟨⟨h₁, h₂⟩, rfl⟩
    exact ⟨(), s, ⟨h₁, rfl⟩, h₂, rfl⟩

@[simp] theorem getEntry_ok {id : ℕ} {e : Entry} :
    getEntry id s = .ok (e, t) ↔ s.entries id = e ∧ s = t := by
  simp [getEntry, and_comm]

@[simp] theorem modifyEntry_ok {id : ℕ} {f : Entry → Entry} :
    modifyEntry id f s = .ok (v, t) ↔ s.setEntry id (f (s.entries id)) = t := modify_ok

@[simp] theorem loadInvoice_ok {id : ℕ} {inv : Invoice} :
    loadInvoice id s = .ok (inv, t) ↔ (s.entries id).load = some inv ∧ s = t := by
  simp [loadInvoice, and_comm]

@[simp] theorem saveInvoice_ok {id : ℕ} {inv : Invoice} :
    saveInvoice env id inv s = .ok (v, t) ↔ env.fitsQuota inv = true ∧
      s.setEntry id { s.entries id with invoice := some (inv.withPayments []) } = t := by
  simp [saveInvoice]

section Steps

variable {β : Type} {r : β × Store}

theorem requireNotPaused_bind {k : Unit → SplitM β} :
    (requireNotPaused env >>= k) s = .ok r ↔ Running env ∧ k () s = .ok r := by
  simp only [bind_ok, requireNotPaused_ok]
  constructor
  · rintro ⟨_, _, ⟨hrun, rfl⟩, h⟩
    exact ⟨hrun, h⟩
  · rintro ⟨hrun, h⟩
    exact ⟨(), s, ⟨hrun, rfl⟩, h⟩

theorem requireFnNotPaused_bind {name : String} {k : Unit → SplitM β} :
    (requireFnNotPaused env name >>= k) s = .ok r ↔ FnRunning env name ∧ k () s = .ok r := by
  simp only [bind_ok, requireFnNotPaused_ok]
  constructor
  · rintro ⟨_, _, ⟨hrun, rfl⟩, h⟩
    exact ⟨hrun, h⟩
  · rintro ⟨hrun, h⟩
    exact ⟨(), s, ⟨hrun, rfl⟩, h⟩

theorem requireNotFrozen_bind {k : Unit → SplitM β} :
    (requireNotFrozen env >>= k) s = .ok r ↔
      (env.config.schemaCurrent = true ∧ env.config.upgradeFrozen = false) ∧ k () s = .ok r := by
  simp only [bind_ok, requireNotFrozen_ok]
  constructor
  · rintro ⟨_, _, ⟨hrun, rfl⟩, h⟩
    exact ⟨hrun, h⟩
  · rintro ⟨hrun, h⟩
    exact ⟨(), s, ⟨hrun, rfl⟩, h⟩

theorem getEntry_bind {id : ℕ} {k : Entry → SplitM β} :
    (getEntry id >>= k) s = .ok r ↔ k (s.entries id) s = .ok r := by
  simp only [bind_ok, getEntry_ok]
  constructor
  · rintro ⟨_, _, ⟨rfl, rfl⟩, h⟩
    exact h
  · exact fun h => ⟨_, s, ⟨rfl, rfl⟩, h⟩

theorem loadInvoice_bind {id : ℕ} {k : Invoice → SplitM β} :
    (loadInvoice id >>= k) s = .ok r ↔
      ∃ inv, (s.entries id).load = some inv ∧ k inv s = .ok r := by
  simp only [bind_ok, loadInvoice_ok]
  constructor
  · rintro ⟨inv, _, ⟨hload, rfl⟩, h⟩
    exact ⟨inv, hload, h⟩
  · rintro ⟨inv, hload, h⟩
    exact ⟨inv, s, ⟨hload, rfl⟩, h⟩

end Steps

theorem saveInvoice_stored {id : ℕ} {inv : Invoice} (hrun : saveInvoice env id inv s = .ok (v, t)) :
    (t.entries id).invoice = some (inv.withPayments []) := by
  obtain ⟨-, rfl⟩ := saveInvoice_ok.1 hrun
  rw [Store.setEntry_self]

end Guards

/-- A call of another contract whose failure traps. -/
def invoke (env : Env) (contract : Address) (function : String) : SplitM Unit :=
  require (env.calls contract function = true) (.callFailed contract)

/-- A callback to an optional contract. -/
def invokeIfSet (env : Env) (contract : Option Address) (function : String) : SplitM Unit :=
  match contract with
  | some c => invoke env c function
  | none => pure ()

def notifyInvoice (env : Env) (inv : Invoice) : SplitM Unit :=
  invokeIfSet env inv.notificationContract "notify"

def maybeRecordReleased (env : Env) : SplitM Unit :=
  invokeIfSet env env.config.dashboard "record_released"

def maybeRecordRefunded (env : Env) : SplitM Unit :=
  invokeIfSet env env.config.dashboard "record_refunded"

def modifyStats (f : Stats → Stats) : SplitM Unit :=
  modify fun s => { s with stats := f s.stats }

/-! ## Token movements -/

/-- Move tokens into or out of the contract; trap when the token refuses. -/
def move (env : Env) (t : Transfer Memo) : SplitM Unit := do
  let s ← get
  require (env.accepts s.log t = true) .tokenRefused
  set { s with log := t :: s.log }

/-- `token_client.transfer` from the contract. -/
def transfer (env : Env) (token dst : Address) (amount : ℤ) (memo : Memo) : SplitM Unit :=
  move env ⟨token, currentContract, dst, amount, memo⟩

/-- `token_client.transfer` to the contract. -/
def collect (env : Env) (token src : Address) (amount : ℤ) (memo : Memo) : SplitM Unit :=
  move env ⟨token, src, currentContract, amount, memo⟩

/-- `try_transfer`: report a refusal instead of trapping. -/
def tryTransfer (env : Env) (token dst : Address) (amount : ℤ) (memo : Memo) : SplitM Bool := do
  let s ← get
  if env.accepts s.log ⟨token, currentContract, dst, amount, memo⟩ = true then do
    set { s with log := ⟨token, currentContract, dst, amount, memo⟩ :: s.log }
    pure true
  else pure false

/-- A transfer to an address that may be missing. -/
def transferIfSet (env : Env) (token : Address) (dst : Option Address) (amount : ℤ) (memo : Memo) :
    SplitM Unit :=
  match dst with
  | some a => transfer env token a amount memo
  | none => pure ()

/-- A transfer that is skipped unless the amount is positive. -/
def transferPositive (env : Env) (token dst : Address) (amount : ℤ) (memo : Memo) : SplitM Unit :=
  onlyIf (0 < amount) (transfer env token dst amount memo)

section Movements

variable {env : Env} {s t : Store} {token dst : Address} {amount : ℤ} {memo : Memo} {v : Unit}

/-- The storage with another log. -/
def Store.withLog (s : Store) (log : List (Transfer Memo)) : Store := { s with log := log }

@[simp] theorem Store.withLog_log (s : Store) (log : List (Transfer Memo)) :
    (s.withLog log).log = log := rfl

@[simp] theorem Store.withLog_entries (s : Store) (log : List (Transfer Memo)) :
    (s.withLog log).entries = s.entries := rfl

@[simp] theorem Store.withLog_stats (s : Store) (log : List (Transfer Memo)) :
    (s.withLog log).stats = s.stats := rfl

@[simp] theorem move_ok {m : Transfer Memo} :
    move env m s = .ok (v, t) ↔ env.accepts s.log m = true ∧ s.withLog (m :: s.log) = t := by
  simp only [move, bind_ok, get_ok, require_ok, set_ok]
  constructor
  · rintro ⟨_, _, ⟨rfl, rfl⟩, _, _, ⟨h, rfl⟩, rfl⟩
    exact ⟨h, rfl⟩
  · rintro ⟨h, rfl⟩
    exact ⟨s, s, ⟨rfl, rfl⟩, (), s, ⟨h, rfl⟩, rfl⟩

@[simp] theorem transfer_ok : transfer env token dst amount memo s = .ok (v, t) ↔
    env.accepts s.log ⟨token, currentContract, dst, amount, memo⟩ = true ∧
      s.withLog (⟨token, currentContract, dst, amount, memo⟩ :: s.log) = t := move_ok

@[simp] theorem collect_ok : collect env token dst amount memo s = .ok (v, t) ↔
    env.accepts s.log ⟨token, dst, currentContract, amount, memo⟩ = true ∧
      s.withLog (⟨token, dst, currentContract, amount, memo⟩ :: s.log) = t := move_ok

/-- A transfer that reports a refusal: it was made, or nothing happened. -/
@[simp] theorem tryTransfer_ok {sent : Bool} :
    tryTransfer env token dst amount memo s = .ok (sent, t) ↔
      env.accepts s.log ⟨token, currentContract, dst, amount, memo⟩ = sent ∧
        (if sent then s.withLog (⟨token, currentContract, dst, amount, memo⟩ :: s.log) else s) = t := by
  simp only [tryTransfer, bind_ok, get_ok]
  constructor
  · rintro ⟨_, _, ⟨rfl, rfl⟩, hrun⟩
    split at hrun
    · rename_i haccepts
      simp only [bind_ok, set_ok, pure_ok] at hrun
      obtain ⟨_, _, rfl, rfl, rfl⟩ := hrun
      exact ⟨haccepts, rfl⟩
    · rename_i hrefused
      obtain ⟨rfl, rfl⟩ := pure_ok.1 hrun
      exact ⟨by simpa using hrefused, rfl⟩
  · rintro ⟨haccepts, rfl⟩
    refine ⟨s, s, ⟨rfl, rfl⟩, ?_⟩
    cases sent with
    | true =>
      rw [if_pos haccepts]
      rfl
    | false =>
      rw [if_neg (by simp [haccepts])]
      rfl

theorem transferPositive_ok : transferPositive env token dst amount memo s = .ok (v, t) ↔
    (0 < amount ∧ env.accepts s.log ⟨token, currentContract, dst, amount, memo⟩ = true ∧
      s.withLog (⟨token, currentContract, dst, amount, memo⟩ :: s.log) = t) ∨ (¬0 < amount ∧ s = t) := by
  simp only [transferPositive, onlyIf_ok, transfer_ok]

/-- Only the log changed, by movements with `P`. -/
def Sends (P : Transfer Memo → Prop) (s t : Store) : Prop :=
  ∃ new, t = s.withLog (new ++ s.log) ∧ ∀ m ∈ new, P m

variable {P : Transfer Memo → Prop}

instance sends_refl : Std.Refl (Sends P) := ⟨fun _ => ⟨[], rfl, by simp⟩⟩

instance sends_trans : IsTrans Store (Sends P) := by
  refine ⟨?_⟩
  rintro s _ _ ⟨new₁, rfl, h₁⟩ ⟨new₂, rfl, h₂⟩
  refine ⟨new₂ ++ new₁, ?_, ?_⟩
  · simp [Store.withLog]
  · intro m hm
    exact (List.mem_append.1 hm).elim (h₂ m) (h₁ m)

end Movements

/-! ## Arithmetic -/

/-- The result of a computation that does not touch the storage. -/
abbrev Result (α : Type) := Except SplitFault α

def unwrap {α : Type} (x : Option α) : Result α :=
  match x with
  | some a => .ok a
  | none => .error (.panic "called unwrap on none")

@[simp] theorem unwrap_ok {α : Type} {x : Option α} {a : α} : unwrap x = .ok a ↔ x = some a := by
  cases x <;> simp [unwrap]

/-- `checked_bps_of(amount, bps, divisor).expect(..)` -/
def checkedBpsOf (amount : ℤ) (bps divisor : ℕ) : Result ℤ :=
  match checkedMulDiv (asU128 amount) bps divisor with
  | some r => .ok r
  | none => .error (.panic "ArithmeticOverflow")

/-- `checked_proportion(a, b, divisor).expect(..)` on `i128` arguments cast to `u128`. -/
def checkedProportion (a b divisor : ℤ) : Result ℤ :=
  match checkedMulDiv (asU128 a) (asU128 b) (asU128 divisor) with
  | some r => .ok r
  | none => .error (.panic "ArithmeticOverflow")

/-- `(a as u128 * b / divisor) as i128` with the plain operators. -/
def plainMulDiv (a b divisor : ℕ) : Result ℤ :=
  match checkedMulDiv a b divisor with
  | some r => .ok r
  | none => .error .overflow

/-! ## Platform fee -/

/-- The loop of `compute_fee` over the brackets. -/
def feeLoop : List FeeBracket → ℤ → ℤ → ℤ → Result ℤ
  | [], _, _, fee => .ok fee
  | b :: bs, remaining, prevMax, fee => do
      let sliceLimit := satSubI128 b.maxAmount prevMax
      let slice := if sliceLimit < remaining then sliceLimit else remaining
      if 0 < slice then do
        let part ← plainMulDiv (asU128 slice) b.rateBps 10000
        if remaining - slice ≤ 0 then .ok (fee + part)
        else feeLoop bs (remaining - slice) b.maxAmount (fee + part)
      else if remaining ≤ 0 then .ok fee
      else feeLoop bs remaining b.maxAmount fee

def computeFee (config : Config) (amount : ℤ) : Result ℤ :=
  if amount ≤ 0 then .ok 0
  else
    feeLoop (config.feeBrackets.getD [⟨i128Max, config.platformFeeBps⟩]) amount 0 0

/-- The shares of `distribute_fee`; the last fee recipient gets what is left. -/
def feeShares (totalFee : ℤ) : List FeeSplit → ℤ → Result (List (Address × ℤ))
  | [], _ => .ok []
  | [r], distributed => .ok [(r.address, totalFee - distributed)]
  | r :: rs, distributed => do
      let share ← plainMulDiv (asU128 totalFee) r.basisPoints 10000
      let rest ← feeShares totalFee rs (distributed + share)
      .ok ((r.address, share) :: rest)

def distributeFee (env : Env) (id : ℕ) (totalFee : ℤ) (token treasury : Address) : SplitM Unit :=
  onlyIf (0 < totalFee) do
    let shares ← ofResult (feeShares totalFee (env.config.feeRecipients.getD [⟨treasury, 10000⟩]) 0)
    forM shares fun p => transferPositive env token p.1 p.2 ⟨id, .platformFee⟩

/-- Send the platform fee on when there is one. -/
def payPlatformFee (env : Env) (id : ℕ) (totalFee : ℤ) (token : Address) : SplitM Unit :=
  onlyIf (0 < totalFee) do
    let treasury ← orPanic env.config.treasury "treasury not set"
    distributeFee env id totalFee token treasury

def creatorHasActiveFeeWaiver (env : Env) (creator : Address) : Bool :=
  env.config.feeWaiverList.contains creator &&
    match env.config.feeWaiverExpiry creator with
    | some expiresAt => !(expiresAt ≠ 0 ∧ expiresAt ≤ env.now)
    | none => true

/-- The rebate tier that applies to a volume: the last one reached. -/
def applicableTier (tiers : List RebateTier) (volume : ℤ) : Option RebateTier :=
  (tiers.filter fun t => t.minVolume ≤ volume).getLast?

/-- The part of a fee a tier gives back to the creator. -/
def rebateOf (totalFee : ℤ) : Option RebateTier → Result ℤ
  | some tier => checkedBpsOf totalFee tier.rebateBps 10000
  | none => .ok 0

def accrueCreatorRebate (env : Env) (creator : Address) (releaseAmount totalFee : ℤ) :
    SplitM Unit := do
  let s ← get
  let newVolume ← orPanic (checkedAddI128 (s.stats.creatorVolume creator) releaseAmount)
    "creator volume overflow"
  modifyStats fun st => { st with creatorVolume := update st.creatorVolume creator newVolume }
  onlyIf (0 < totalFee) do
    let rebate ← ofResult (rebateOf totalFee (applicableTier env.config.rebateTiers newVolume))
    onlyIf (0 < rebate) do
      let newBalance ← orPanic (checkedAddI128 (s.stats.rebateBalance creator) rebate)
        "rebate balance overflow"
      modifyStats fun st => { st with rebateBalance := update st.rebateBalance creator newBalance }

end StellarSplit.Split
