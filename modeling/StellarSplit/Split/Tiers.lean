import StellarSplit.Lib.Cell
import StellarSplit.Split.Lock
import StellarSplit.Split.Schema

/-!
# Saving and loading over two storage tiers

The records of an invoice lie in the persistent tier, or in the instance tier
once it is archived. A load archives an old completed invoice on the way, looks
for each record in both tiers and lays the byte record and the hot fields over
the result. It gives back what was saved in either tier. The byte record alone
does not: it reads a payout in progress as pending.
-/

namespace StellarSplit.Split.Schema

open Exec Function Machine

/-! ## Entries -/

/-- The fields of an invoice that are also kept in the instance tier. -/
structure InvoiceHot where
  status : InvoiceStatus
  funded : I128
  total : ℤ
  recipients : List Address

structure AuditEntry where
  action : String
  actor : Address
  timestamp : ℕ
deriving DecidableEq

inductive ArchivalStatus where
  | active | archived | restored | purged
deriving DecidableEq

structure ArchivalRecord where
  status : ArchivalStatus
  archivedAtLedger : ℕ
  archivedBy : Option Address
  restoredAtLedger : Option ℕ
  restoredBy : Option Address
  purgedAtLedger : Option ℕ

/-- The entries of one invoice. -/
structure Slots where
  core : Cell InvoiceCore := {}
  ext : Cell InvoiceExt := {}
  ext2 : Cell InvoiceExt2 := {}
  compact : Cell CompactInvoice := {}
  shards : Fin shardCount → Cell (List Payment) := fun _ => {}
  auditLog : Cell (List AuditEntry) := {}
  createdLedger : Cell ℕ := {}
  archiveMarker : Cell Unit := {}
  hot : Option InvoiceHot := none
  metadataHash : Option Hash := none
  record : Option ArchivalRecord := none

structure TierStore where
  slots : ℕ → Slots := fun _ => {}
  counter : ℕ := 0
  lastSweepLedger : ℕ := 0
  sweepCursor : ℕ := 0

structure ArchivalPolicy where
  enabled : Bool := false
  sweepIntervalLedgers : ℕ := 17280
  maxBatch : ℕ := 20
  retentionLedgers : ℕ := 0
  autoPurge : Bool := false
  restoreHoldLedgers : ℕ := 100000

/-- The environment of a call with the archival settings and the size of a stored invoice. -/
structure TierEnv extends Env where
  measureInvoiceBytes : Invoice → ℕ
  storageQuota : ℕ
  archiveAfter : ℕ := 100000
  policy : ArchivalPolicy := {}

abbrev TierM (α : Type) := Call TierStore SplitFault α

def getSlots (id : ℕ) : TierM Slots := do
  let st ← get
  pure (st.slots id)

def TierStore.put (st : TierStore) (id : ℕ) (sl : Slots) : TierStore :=
  { st with slots := update st.slots id sl }

@[simp] theorem TierStore.put_self (st : TierStore) (id : ℕ) (sl : Slots) :
    (st.put id sl).slots id = sl := update_self _ _ _

@[simp] theorem TierStore.put_of_ne {id other : ℕ} (st : TierStore) (sl : Slots) (h : other ≠ id) :
    (st.put id sl).slots other = st.slots other := update_of_ne h _ _

def setSlots (id : ℕ) (sl : Slots) : TierM Unit := modify fun st => st.put id sl

/-! ## Reading -/

namespace Slots

/-- The marker is set in one of the tiers. -/
def isMarked (sl : Slots) : Bool := sl.archiveMarker.inst.isSome || sl.archiveMarker.persistent.isSome

def payments (sl : Slots) : List Payment :=
  (List.finRange shardCount).flatMap fun i => (sl.shards i).read.getD []

def withHot (hot : Option InvoiceHot) (inv : Invoice) : Invoice :=
  match hot with
  | some hot => { inv with status := hot.status, funded := hot.funded, recipients := hot.recipients }
  | none => inv

/-- What `load_invoice` reads. The second record that it falls back to has another ratio
denominator than the default. -/
def load (sl : Slots) : Result Invoice := do
  let core ← match sl.core.read with
    | some core => .ok core
    | none => .error (.panic "invoice not found")
  let core := { core with payments := sl.payments }
  let ext := sl.ext.read.getD {}
  let ext2 := sl.ext2.read.getD { ratioDenominator := 1 }
  let inv ← match sl.compact.persistent with
    | some compact => Invoice.fromCompact compact core ext ext2
    | none => .ok (Invoice.assemble core ext ext2)
  .ok { withHot sl.hot inv with metadataHash := sl.metadataHash }

/-! ## Archiving -/

def inRestoreHold (env : TierEnv) (sl : Slots) : Bool :=
  match sl.record with
  | some record =>
      record.status = .restored ∧
        env.sequence - record.restoredAtLedger.getD 0 < env.policy.restoreHoldLedgers
  | none => false

def appendAuditEntry (env : TierEnv) (action : String) (actor : Address) (sl : Slots) : Slots :=
  if sl.isMarked then
    { sl with
      auditLog := .inInstance (some (sl.auditLog.inst.getD [] ++ [⟨action, actor, env.now⟩])) }
  else
    { sl with
      auditLog := { sl.auditLog with
        persistent := some (sl.auditLog.persistent.getD [] ++ [⟨action, actor, env.now⟩]) } }

def recordArchived (env : TierEnv) (actor : Option Address) (sl : Slots) : Slots :=
  let record : ArchivalRecord :=
    { status := .archived
      archivedAtLedger := env.sequence
      archivedBy := actor
      restoredAtLedger := none
      restoredBy := none
      purgedAtLedger := none }
  appendAuditEntry env "archived" (actor.getD currentContract) { sl with record := some record }

def archiveInvoiceStorage (env : TierEnv) (core : InvoiceCore) (sl : Slots) : Slots :=
  let ext := sl.ext.read.getD {}
  let ext2 := sl.ext2.read.getD { ratioDenominator := 1 }
  { sl with
    core := .inInstance (some core)
    ext := .inInstance (some ext)
    ext2 := .inInstance (some ext2)
    archiveMarker := { sl.archiveMarker with inst := some () }
    compact := .inInstance (some (sl.compact.read.getD (Invoice.assemble core ext ext2).toCompact))
    shards := fun i => .inInstance (sl.shards i).read
    auditLog := .inInstance sl.auditLog.read
    createdLedger := { sl.createdLedger with
      inst := some (sl.createdLedger.persistent.getD env.sequence) } }

/-- `core.status == Released || core.status == Refunded` -/
def isCompleted (core : InvoiceCore) : Bool := core.status = .released ∨ core.status = .refunded

def isOldEnough (env : TierEnv) (sl : Slots) : Bool :=
  env.archiveAfter ≤ env.sequence - sl.createdLedger.read.getD env.sequence

end Slots

def maybeArchiveInvoice (env : TierEnv) (id : ℕ) : TierM Unit := do
  let sl ← getSlots id
  onlyIf (sl.isMarked = false) do
    let core ← orPanic sl.core.read "invoice not found"
    onlyIf (Slots.isCompleted core = true ∧ sl.isOldEnough env = true ∧ sl.inRestoreHold env = false) do
      setSlots id ((sl.archiveInvoiceStorage env core).recordArchived env none)

def loadInvoice (env : TierEnv) (id : ℕ) : TierM Invoice := do
  maybeArchiveInvoice env id
  let sl ← getSlots id
  ofResult sl.load

/-! ## Saving -/

/-- `invoice.amounts.iter().sum()`, which traps on overflow. -/
def sumAmounts (amounts : List ℤ) : Result ℤ :=
  match amounts.foldlM checkedAddI128 0 with
  | some total => .ok total
  | none => .error .overflow

def Invoice.clean (inv : Invoice) : Invoice := { inv with payments := [] }

namespace Slots

def save (inv : Invoice) (total : ℤ) (sl : Slots) : Slots :=
  let (core, ext, ext2) := inv.clean.split
  let hot : InvoiceHot :=
    { status := inv.status, funded := inv.funded, total, recipients := inv.recipients }
  if sl.isMarked then
    { sl with
      core := .inInstance (some core)
      ext := .inInstance (some ext)
      ext2 := .inInstance (some ext2)
      compact := .inInstance (some inv.toCompact)
      hot := some hot }
  else
    { sl with
      core := { sl.core with persistent := some core }
      ext := { sl.ext with persistent := some ext }
      ext2 := { sl.ext2 with persistent := some ext2 }
      compact := { sl.compact with persistent := some inv.toCompact }
      hot := some hot }

end Slots

def saveInvoice (env : TierEnv) (id : ℕ) (inv : Invoice) : TierM Unit := do
  require (env.measureInvoiceBytes inv ≤ env.storageQuota) (.panic "StorageQuotaExceeded")
  let total ← ofResult (sumAmounts inv.amounts)
  let sl ← getSlots id
  setSlots id (sl.save inv total)

/-! ## What was saved is loaded -/

variable {env env' : TierEnv} {st st' : TierStore} {id : ℕ} {sl : Slots} {inv : Invoice} {v : Unit}

/-- An invoice with the payments of the shards and the hash that is kept beside it. -/
def Invoice.filled (inv : Invoice) (sl : Slots) : Invoice :=
  { inv with payments := sl.payments, metadataHash := sl.metadataHash }

/-- A saved invoice as its entries show it: each record in the tier that is read, the byte
record that of the invoice wherever it is read, and the hot fields. -/
structure Shows (inv : Invoice) (sl : Slots) : Prop where
  core : sl.core.read = some inv.clean.split.1
  ext : sl.ext.read = some inv.clean.split.2.1
  ext2 : sl.ext2.read = some inv.clean.split.2.2
  compact : sl.compact.persistent = none ∨ sl.compact.persistent = some inv.toCompact
  hot : ∃ total, sl.hot = some ⟨inv.status, inv.funded, total, inv.recipients⟩

/-- The hot fields cover what the byte record gets wrong. -/
theorem Shows.load (h : Shows inv sl) :
    sl.load = .ok (inv.filled sl) := by
  obtain ⟨total, hhot⟩ := h.hot
  unfold Slots.load
  rw [h.core, h.ext, h.ext2, hhot]
  rcases h.compact with hcompact | hcompact
  · rw [hcompact]
    cases inv
    rfl
  · rw [hcompact]
    dsimp only [Option.getD_some]
    have hbytes := Invoice.fromCompact_toCompact inv
      { inv.clean.split.1 with payments := sl.payments } inv.clean.split.2.1 inv.clean.split.2.2
    simp only [bind, Except.bind]
    rw [hbytes]
    cases inv
    rfl

/-- Archival moves what is shown. -/
theorem Shows.archiveInvoiceStorage (env : TierEnv) (h : Shows inv sl) :
    Shows inv (sl.archiveInvoiceStorage env inv.clean.split.1) := by
  refine ⟨rfl, ?_, ?_, .inl rfl, h.hot⟩
  · exact congrArg (fun x => some (x.getD {})) h.ext
  · exact congrArg (fun x => some (x.getD { ratioDenominator := 1 })) h.ext2

/-- The records are not touched by the audit trail. -/
theorem recordArchived_frame (env : TierEnv) (sl : Slots) (actor : Option Address) :
    ∃ log record, sl.recordArchived env actor = { sl with auditLog := log, record := record } := by
  unfold Slots.recordArchived Slots.appendAuditEntry
  dsimp only
  split
  · exact ⟨_, _, rfl⟩
  · exact ⟨_, _, rfl⟩

theorem Shows.trail (h : Shows inv sl) (log : Cell (List AuditEntry)) (record : Option ArchivalRecord) :
    Shows inv { sl with auditLog := log, record := record } :=
  ⟨h.core, h.ext, h.ext2, h.compact, h.hot⟩

theorem shows_save (inv : Invoice) (total : ℤ) (sl : Slots) : Shows inv (sl.save inv total) := by
  unfold Slots.save
  dsimp only
  split
  · exact ⟨rfl, rfl, rfl, .inl rfl, _, rfl⟩
  · exact ⟨rfl, rfl, rfl, .inr rfl, _, rfl⟩

theorem filled_save (inv : Invoice) (total : ℤ) (sl : Slots) :
    inv.filled (sl.save inv total) = inv.filled sl := by
  unfold Slots.save
  dsimp only
  split <;> rfl

theorem setSlots_ok {st st' : TierStore} :
    setSlots id sl st = .ok (v, st') ↔ st' = st.put id sl := by
  constructor
  · intro h
    cases h
    rfl
  · rintro rfl
    rfl

theorem getSlots_bind {α : Type} {k : Slots → TierM α} {r : α × TierStore} :
    (getSlots id >>= k) st = .ok r ↔ k (st.slots id) st = .ok r := Iff.rfl

theorem saveInvoice_ok (h : saveInvoice env id inv st = .ok (v, st')) :
    ∃ total, st' = st.put id ((st.slots id).save inv total) := by
  unfold saveInvoice at h
  obtain ⟨-, h⟩ := require_bind.1 h
  obtain ⟨total, -, h⟩ := ofResult_bind.1 h
  exact ⟨total, setSlots_ok.1 (getSlots_bind.1 h)⟩

/-- A load of an invoice whose core is there: either nothing is archived, or the entries
are and the trail says so. -/
theorem maybeArchiveInvoice_run (env : TierEnv) {core : InvoiceCore} (hcore : (st.slots id).core.read = some core) :
    maybeArchiveInvoice env id st = .ok ((), st) ∨
      (st.slots id).isMarked = false ∧ Slots.isCompleted core = true ∧
      maybeArchiveInvoice env id st =
        .ok ((), st.put id (((st.slots id).archiveInvoiceStorage env core).recordArchived env none)) := by
  by_cases hmarked : (st.slots id).isMarked = false
  · by_cases hdue : Slots.isCompleted core = true ∧ (st.slots id).isOldEnough env = true ∧
        (st.slots id).inRestoreHold env = false
    · refine .inr ⟨hmarked, hdue.1, ?_⟩
      unfold maybeArchiveInvoice
      apply getSlots_bind.2
      rw [onlyIf, if_pos hmarked]
      apply orPanic_bind.2
      refine ⟨core, hcore, ?_⟩
      rw [onlyIf, if_pos hdue]
      rfl
    · left
      unfold maybeArchiveInvoice
      apply getSlots_bind.2
      rw [onlyIf, if_pos hmarked]
      apply orPanic_bind.2
      refine ⟨core, hcore, ?_⟩
      rw [onlyIf, if_neg hdue]
      rfl
  · left
    unfold maybeArchiveInvoice
    apply getSlots_bind.2
    rw [onlyIf, if_neg hmarked]
    rfl

theorem loadInvoice_of_shows (env : TierEnv) (h : Shows inv (st.slots id)) :
    loadInvoice env id st = .ok (inv.filled (st.slots id), st) ∨
      (st.slots id).isMarked = false ∧ Slots.isCompleted inv.clean.split.1 = true ∧
      loadInvoice env id st = .ok (inv.filled (st.slots id), st.put id
        (((st.slots id).archiveInvoiceStorage env inv.clean.split.1).recordArchived env none)) := by
  rcases maybeArchiveInvoice_run env h.core with hrun | ⟨hmarked, hdone, hrun⟩
  · left
    unfold loadInvoice
    rw [bind_run hrun]
    apply getSlots_bind.2
    exact ofResult_ok.2 ⟨h.load, rfl⟩
  · refine .inr ⟨hmarked, hdone, ?_⟩
    unfold loadInvoice
    rw [bind_run hrun]
    apply getSlots_bind.2
    obtain ⟨log, record, hframe⟩ :=
      recordArchived_frame env ((st.slots id).archiveInvoiceStorage env inv.clean.split.1) none
    have hshows := (h.archiveInvoiceStorage env).trail log record
    refine ofResult_ok.2 ⟨?_, rfl⟩
    rw [TierStore.put_self, hframe]
    exact hshows.load

theorem Shows.loads (h : Shows inv (st.slots id)) (env : TierEnv) :
    ∃ st', loadInvoice env id st = .ok (inv.filled (st.slots id), st') := by
  rcases loadInvoice_of_shows env h with hrun | ⟨-, -, hrun⟩
  · exact ⟨_, hrun⟩
  · exact ⟨_, hrun⟩

/-! ## The storage of the payment and release paths -/

/-- The entries show the invoice and the payments of an entry of the contract's storage. -/
structure Refines (sl : Slots) (e : Entry) : Prop where
  invoice : ∃ inv, Shows inv sl ∧ e.invoice = some inv.clean.view
  shards : ∀ i : Fin shardCount, e.shards i = ((sl.shards i).read.getD []).map Payment.toPayment

theorem Refines.payments {e : Entry} (h : Refines sl e) :
    e.payments = sl.payments.map Payment.toPayment := by
  unfold Entry.payments Slots.payments
  rw [List.map_flatMap, ← List.map_coe_finRange_eq_range, List.flatMap_map]
  congr 1
  funext i
  exact h.shards i

/-- A load reads the invoice that the other paths work on. -/
theorem Refines.load {e : Entry} (h : Refines sl e) :
    ∃ inv, sl.load = .ok inv ∧ e.load = some inv.view := by
  obtain ⟨inv, hshows, hinvoice⟩ := h.invoice
  refine ⟨_, hshows.load, ?_⟩
  unfold Entry.load
  rw [hinvoice, h.payments]
  rfl

theorem Refines.save {e : Entry} (h : Refines sl e) (inv : Invoice) (total : ℤ) :
    Refines (sl.save inv total) { e with invoice := some (inv.view.withPayments []) } := by
  refine ⟨⟨inv, shows_save inv total sl, rfl⟩, fun i => ?_⟩
  have hshards : (sl.save inv total).shards = sl.shards := by
    unfold Slots.save
    dsimp only
    split <;> rfl
  rw [hshards]
  exact h.shards i

/-! ## The law -/

/-- Loading after saving, in either tier and at any ledger, and reading the byte record back. -/
def Lossless (env env' : TierEnv) (id : ℕ) (inv : Invoice) (st : TierStore) : Prop :=
  (∀ v st', saveInvoice env id inv st = .ok (v, st') →
    ∃ st'', loadInvoice env' id st' = .ok (inv.filled (st.slots id), st'')) ∧
  Invoice.fromCompact inv.toCompact inv.split.1 inv.split.2.1 inv.split.2.2 = .ok inv

theorem lossless_iff (env env' : TierEnv) (id : ℕ) (inv : Invoice) (st : TierStore) :
    Lossless env env' id inv st ↔ inv.status ≠ .payoutInProgress := by
  rw [Lossless, Invoice.fromCompact_toCompact, Invoice.assemble_split]
  constructor
  · rintro ⟨-, hbytes⟩ hstatus
    rw [if_pos hstatus] at hbytes
    have hpending := congrArg Invoice.status (Except.ok.inj hbytes)
    rw [hstatus] at hpending
    cases hpending
  · intro hstatus
    refine ⟨fun v st' hsave => ?_, ?_⟩
    · obtain ⟨total, rfl⟩ := saveInvoice_ok hsave
      have hshows := shows_save inv total (st.slots id)
      rw [← st.put_self id ((st.slots id).save inv total)] at hshows
      have hload := hshows.loads env'
      rwa [TierStore.put_self, filled_save] at hload
    · rw [if_neg hstatus]

/-- An invoice of creator 2 over 100 of token 9, paid in full, with a tax of five percent. -/
def sampleInvoice (status : InvoiceStatus) : Invoice :=
  let core : InvoiceCore :=
    { version := 2, creator := 2, coCreators := [], recipients := [10, 11], amounts := [50, 50]
      tokens := [9, 9], fundingToken := 9, deadline := ⟨1000, by decide⟩, funded := ⟨100, by decide⟩
      status, payments := [], dripDuration := none, releaseTimestamp := none, claimed := []
      frozen := false, completionTime := none, allowEarlyWithdrawal := false, bonusPool := 0
      bonusMaxPayers := 0, prerequisiteId := none, tranches := [], releasedBps := 0, cloneDepth := 0
      predecessorId := none, metadataHash := none }
  Invoice.assemble core { taxBps := 500, taxAuthority := some 12 } {}

def sampleTierEnv (sequence : ℕ) : TierEnv :=
  { sampleEnv sequence 0 with measureInvoiceBytes := fun _ => 600, storageQuota := 65536 }

/-- A payout in progress is read back as pending from its byte record. -/
theorem not_lossless_payoutInProgress :
    ¬Lossless (sampleTierEnv 20) (sampleTierEnv 30) 1 (sampleInvoice .payoutInProgress) {} := by
  rintro ⟨-, hbytes⟩
  rw [Invoice.fromCompact_toCompact] at hbytes
  have hstatus := congrArg Invoice.status (Except.ok.inj hbytes)
  cases hstatus

end StellarSplit.Split.Schema
