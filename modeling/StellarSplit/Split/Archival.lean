import StellarSplit.Split.Tiers

/-!
# Archival and recovery

Completed invoices are moved to the instance tier by four routines: on request,
in batches, by a scheduled sweep and on the way of a load. A reader sees the
same invoice through every sequence of them and a recovery puts the persistent
entries back, unless an invoice is archived on request after its records have
been moved without the marker: the second time the extension records are taken
from the persistent tier alone and replaced by their defaults.
-/

namespace StellarSplit.Split.Schema

open Exec Function Machine

/-! ## The routines -/

def requireNotPaused (env : TierEnv) : TierM Unit := do
  require (env.config.schemaCurrent = true) (.panic "MigrationRequired")
  require (isPaused env.toEnv = false ∧ circuitBreakerBlocks env.toEnv none = false)
    (.panic "contract is paused")

/-- `require_admin_role` for an operator or higher. -/
def requireOperator (env : TierEnv) (admin : Address) : TierM Unit := do
  require (env.config.schemaCurrent = true) (.panic "MigrationRequired")
  requireAuth env.toLedger admin
  require (admin ∈ env.config.superAdmins ∨ admin ∈ env.config.operators)
    (.panic "caller is not an admin")

namespace Slots

/-- The three records go to the instance tier; the extensions are looked for in the
persistent tier only. -/
def moveRecords (core : InvoiceCore) (sl : Slots) : Slots :=
  { sl with
    core := .inInstance (some core)
    ext := .inInstance (some (sl.ext.persistent.getD {}))
    ext2 := .inInstance (some (sl.ext2.persistent.getD { ratioDenominator := 1 })) }

def isInvoiceArchived (sl : Slots) : Bool :=
  sl.isMarked ||
    match sl.record with
    | some record => record.status = .archived ∨ record.status = .purged
    | none => false

def isArchivalEligible (env : TierEnv) (sl : Slots) : Bool :=
  !sl.isInvoiceArchived && !sl.inRestoreHold env &&
    match sl.core.persistent with
    | some core => isCompleted core && sl.isOldEnough env
    | none => false

def isPurgeEligible (env : TierEnv) (sl : Slots) : Bool :=
  env.policy.retentionLedgers ≠ 0 &&
    match sl.record with
    | some record =>
        record.status = .archived ∧
          env.policy.retentionLedgers ≤ env.sequence - record.archivedAtLedger
    | none => false

def purge (env : TierEnv) (record : ArchivalRecord) (actor : Address) (sl : Slots) : Slots :=
  appendAuditEntry env "purged" actor
    { sl with
      shards := fun _ => {}
      record := some { record with status := .purged, purgedAtLedger := some env.sequence } }

/-- The record that a recovery starts from when there is none. -/
def unrecorded : ArchivalRecord where
  status := .archived
  archivedAtLedger := 0
  archivedBy := none
  restoredAtLedger := none
  restoredBy := none
  purgedAtLedger := none

def restore (env : TierEnv) (caller : Address) (core : InvoiceCore) (sl : Slots) : Slots :=
  let record : ArchivalRecord :=
    { sl.record.getD unrecorded with
      status := .restored
      restoredAtLedger := some env.sequence
      restoredBy := some caller }
  appendAuditEntry env "restored" caller
    { sl with
      core := .inPersistent (some core)
      ext := sl.ext.back
      ext2 := sl.ext2.back
      compact := sl.compact.back
      shards := fun i => (sl.shards i).back
      auditLog := sl.auditLog.back
      createdLedger := sl.createdLedger.back
      archiveMarker := {}
      record := some record }

end Slots

def archiveInvoice (env : TierEnv) (id : ℕ) : TierM Unit := do
  let sl ← getSlots id
  onlyIf (sl.archiveMarker.inst = none) do
    let core ← orPanic sl.core.read "invoice not found"
    require (Slots.isCompleted core = true) (.panic "invoice not completed")
    setSlots id ((sl.moveRecords core).recordArchived env none)

/-- One invoice of a batch; the accumulator lists those that were archived. -/
def archiveInBatch (env : TierEnv) (archived : List ℕ) (id : ℕ) : TierM (List ℕ) := do
  let sl ← getSlots id
  match sl.core.persistent with
  | none => pure archived
  | some core =>
      if Slots.isCompleted core then do
        setSlots id ((sl.moveRecords core).recordArchived env none)
        pure (archived ++ [id])
      else pure archived

def archiveInvoicesBatch (env : TierEnv) (ids : List ℕ) : TierM (List ℕ) := do
  require (ids.length ≤ 20) (.panic "batch limit exceeded")
  ids.foldlM (archiveInBatch env) []

/-- One invoice of a sweep. -/
def sweepOne (env : TierEnv) (id : ℕ) (archived : List ℕ) : TierM (List ℕ) := do
  let sl ← getSlots id
  if sl.isArchivalEligible env then do
    let core ← ofResult (unwrap sl.core.persistent)
    setSlots id ((sl.archiveInvoiceStorage env core).recordArchived env (some currentContract))
    pure (archived ++ [id])
  else if env.policy.autoPurge && sl.isPurgeEligible env then do
    let record ← orPanic sl.record "archival record not found"
    setSlots id (sl.purge env record currentContract)
    pure archived
  else pure archived

/-- The loop of a sweep: the first argument is how many invoices may still be scanned. -/
def sweepFrom (env : TierEnv) (lastId : ℕ) : ℕ → ℕ → List ℕ → TierM (ℕ × List ℕ)
  | 0, cursor, archived => pure (cursor, archived)
  | n + 1, cursor, archived =>
      if lastId ≤ cursor then pure (0, archived)
      else do
        let archived ← sweepOne env (cursor + 1) archived
        sweepFrom env lastId n (cursor + 1) archived

def runArchivalSweep (env : TierEnv) : TierM (List ℕ) := do
  requireNotPaused env
  require (env.policy.enabled = true) (.panic "archival sweep disabled")
  let st ← get
  require (st.lastSweepLedger = 0 ∨
      env.policy.sweepIntervalLedgers ≤ env.sequence - st.lastSweepLedger)
    (.panic "archival sweep not due")
  let (cursor, archived) ← sweepFrom env st.counter env.policy.maxBatch st.sweepCursor []
  modify fun st => { st with sweepCursor := cursor, lastSweepLedger := env.sequence }
  pure archived

def restoreArchivedInvoice (env : TierEnv) (caller : Address) (id : ℕ) : TierM Unit := do
  requireNotPaused env
  let sl ← getSlots id
  require (sl.isInvoiceArchived = true) (.panic "invoice not archived")
  require (∀ record ∈ sl.record, record.status ≠ .purged) (.panic "purged invoice cannot be restored")
  let core ← orPanic (sl.core.inst.or sl.core.persistent) "invoice not found"
  if caller = core.creator then requireAuth env.toLedger caller else requireOperator env caller
  setSlots id (sl.restore env caller core)

inductive ArchiveCall where
  | archiveInvoice (id : ℕ)
  | archiveInvoicesBatch (ids : List ℕ)
  | runArchivalSweep
  | loadInvoice (id : ℕ)
  | restoreArchivedInvoice (caller : Address) (id : ℕ)

def ArchiveCall.exec (env : TierEnv) : ArchiveCall → TierM Unit
  | archiveInvoice id => Schema.archiveInvoice env id
  | archiveInvoicesBatch ids => ignore (Schema.archiveInvoicesBatch env ids)
  | runArchivalSweep => ignore (Schema.runArchivalSweep env)
  | loadInvoice id => ignore (Schema.loadInvoice env id)
  | restoreArchivedInvoice caller id => Schema.restoreArchivedInvoice env caller id

def archiveStep (c : TierEnv × ArchiveCall) : TierM Unit := c.2.exec c.1

/-! ## Where the entries are -/

/-- What an invoice has in storage before it is first archived. -/
structure Home where
  inv : Invoice
  shards : Fin shardCount → Option (List Payment)
  created : ℕ
  log : List AuditEntry
  metadata : Option Hash

/-- The invoice that a reader sees. -/
def Home.invoice (h : Home) : Invoice :=
  { h.inv with
    payments := (List.finRange shardCount).flatMap fun i => (h.shards i).getD []
    metadataHash := h.metadata }

/-- Every entry is in one of the tiers, and no other version of it in the other. The three
records move together, and the audit trail is in the tier that the marker names. -/
structure Placed (h : Home) (sl : Slots) : Prop where
  core : sl.core.Holds (some h.inv.clean.split.1)
  ext : sl.ext.Holds (some h.inv.clean.split.2.1)
  ext2 : sl.ext2.Holds (some h.inv.clean.split.2.2)
  compact : sl.compact.Holds (some h.inv.toCompact)
  shards : ∀ i, (sl.shards i).Holds (h.shards i)
  created : sl.createdLedger.persistent = some h.created
  createdInst : sl.createdLedger.inst = none ∨ sl.createdLedger.inst = some h.created
  hot : ∃ total, sl.hot = some ⟨h.inv.status, h.inv.funded, total, h.inv.recipients⟩
  metadata : sl.metadataHash = h.metadata
  together : sl.core.persistent ≠ none → sl.ext.persistent ≠ none ∧ sl.ext2.persistent ≠ none
  log : h.log <+: sl.auditLog.read.getD []
  trail : if sl.isMarked then sl.auditLog.persistent = none else sl.auditLog.inst = none

/-- Every entry is in the persistent tier. -/
structure AtHome (h : Home) (sl : Slots) : Prop where
  core : sl.core = .inPersistent (some h.inv.clean.split.1)
  ext : sl.ext = .inPersistent (some h.inv.clean.split.2.1)
  ext2 : sl.ext2 = .inPersistent (some h.inv.clean.split.2.2)
  compact : sl.compact = .inPersistent (some h.inv.toCompact)
  shards : ∀ i, sl.shards i = .inPersistent (h.shards i)
  created : sl.createdLedger = .inPersistent (some h.created)
  marker : sl.archiveMarker = {}
  log : ∃ log, sl.auditLog = .inPersistent log ∧ h.log <+: log.getD []
  hot : ∃ total, sl.hot = some ⟨h.inv.status, h.inv.funded, total, h.inv.recipients⟩
  metadata : sl.metadataHash = h.metadata

/-- The entries at home. -/
def Home.slots (h : Home) : Slots where
  core := .inPersistent (some h.inv.clean.split.1)
  ext := .inPersistent (some h.inv.clean.split.2.1)
  ext2 := .inPersistent (some h.inv.clean.split.2.2)
  compact := .inPersistent (some h.inv.toCompact)
  shards := fun i => .inPersistent (h.shards i)
  auditLog := .inPersistent (some h.log)
  createdLedger := .inPersistent (some h.created)
  hot := some ⟨h.inv.status, h.inv.funded, h.inv.amounts.sum, h.inv.recipients⟩
  metadataHash := h.metadata

theorem atHome_slots (h : Home) : AtHome h h.slots :=
  ⟨rfl, rfl, rfl, rfl, fun _ => rfl, rfl, rfl, ⟨_, rfl, List.prefix_rfl⟩, ⟨_, rfl⟩, rfl⟩

variable {h : Home} {sl : Slots} {env : TierEnv} {st st' : TierStore} {id k : ℕ} {v : Unit}

theorem AtHome.placed (hsl : AtHome h sl) : Placed h sl := by
  obtain ⟨log, hlog, hgrown⟩ := hsl.log
  have hmarked : sl.isMarked = false := by simp [Slots.isMarked, hsl.marker]
  refine ⟨?_, ?_, ?_, ?_, fun i => ?_, ?_, ?_, hsl.hot, hsl.metadata, fun _ => ⟨?_, ?_⟩, ?_, ?_⟩
  · rw [hsl.core]
    exact Cell.holds_inPersistent _
  · rw [hsl.ext]
    exact Cell.holds_inPersistent _
  · rw [hsl.ext2]
    exact Cell.holds_inPersistent _
  · rw [hsl.compact]
    exact Cell.holds_inPersistent _
  · rw [hsl.shards i]
    exact Cell.holds_inPersistent _
  · rw [hsl.created]
    rfl
  · rw [hsl.created]
    exact .inl rfl
  · rw [hsl.ext]
    exact Option.some_ne_none _
  · rw [hsl.ext2]
    exact Option.some_ne_none _
  · rwa [hlog, Cell.read_inPersistent]
  · rw [hmarked, hlog]
    rfl

theorem Placed.shows (hsl : Placed h sl) : Shows h.inv sl :=
  ⟨hsl.core.read, hsl.ext.read, hsl.ext2.read, hsl.compact.persistent, hsl.hot⟩

theorem Placed.filled (hsl : Placed h sl) : h.inv.filled sl = h.invoice := by
  have hpayments : sl.payments = (List.finRange shardCount).flatMap fun i => (h.shards i).getD [] := by
    unfold Slots.payments
    congr 1
    funext i
    rw [(hsl.shards i).read]
  unfold Invoice.filled Home.invoice
  rw [hpayments, hsl.metadata]

/-! ## One entry of the trail -/

/-- The trail grows in the tier it is in. -/
theorem Placed.appendAuditEntry (hsl : Placed h sl) (env : TierEnv) (action : String) (actor : Address) :
    Placed h (sl.appendAuditEntry env action actor) := by
  have htrail := hsl.trail
  have hlog := hsl.log
  unfold Slots.appendAuditEntry
  split
  · rename_i hmarked
    rw [if_pos hmarked] at htrail
    refine ⟨hsl.core, hsl.ext, hsl.ext2, hsl.compact, hsl.shards, hsl.created, hsl.createdInst, hsl.hot,
      hsl.metadata, hsl.together, ?_, ?_⟩
    · rw [Cell.read, htrail, Option.none_or] at hlog
      exact hlog.trans (List.prefix_append _ _)
    · rw [Slots.isMarked] at hmarked ⊢
      rw [if_pos hmarked]
      rfl
  · rename_i hmarked
    rw [if_neg hmarked] at htrail
    refine ⟨hsl.core, hsl.ext, hsl.ext2, hsl.compact, hsl.shards, hsl.created, hsl.createdInst, hsl.hot,
      hsl.metadata, hsl.together, ?_, ?_⟩
    · rw [Cell.read, htrail, Option.or_none] at hlog
      exact hlog.trans (List.prefix_append _ _)
    · rw [Slots.isMarked] at hmarked ⊢
      rw [if_neg hmarked]
      exact htrail

theorem Placed.withRecord (hsl : Placed h sl) (record : Option ArchivalRecord) :
    Placed h { sl with record := record } :=
  ⟨hsl.core, hsl.ext, hsl.ext2, hsl.compact, hsl.shards, hsl.created, hsl.createdInst, hsl.hot,
    hsl.metadata, hsl.together, hsl.log, hsl.trail⟩

theorem Placed.recordArchived (hsl : Placed h sl) (env : TierEnv) (actor : Option Address) :
    Placed h (sl.recordArchived env actor) :=
  (hsl.withRecord _).appendAuditEntry env _ _

/-! ## The moves -/

theorem Placed.archiveInvoiceStorage (hsl : Placed h sl) (env : TierEnv) :
    Placed h (sl.archiveInvoiceStorage env h.inv.clean.split.1) := by
  unfold Slots.archiveInvoiceStorage
  rw [hsl.ext.read, hsl.ext2.read, hsl.compact.read, hsl.created]
  refine ⟨Cell.holds_inInstance _, Cell.holds_inInstance _, Cell.holds_inInstance _,
    Cell.holds_inInstance _, fun i => ?_, hsl.created, .inr rfl, hsl.hot, hsl.metadata, ?_, hsl.log, rfl⟩
  · dsimp only
    rw [(hsl.shards i).read]
    exact Cell.holds_inInstance _
  · intro hne
    exact (hne rfl).elim

theorem Placed.moveRecords (hsl : Placed h sl) (hcore : sl.core.persistent ≠ none) :
    Placed h (sl.moveRecords h.inv.clean.split.1) := by
  obtain ⟨hext, hext2⟩ := hsl.together hcore
  have hext' := hsl.ext.persistent.resolve_left hext
  have hext2' := hsl.ext2.persistent.resolve_left hext2
  unfold Slots.moveRecords
  rw [hext', hext2']
  refine ⟨Cell.holds_inInstance _, Cell.holds_inInstance _, Cell.holds_inInstance _, hsl.compact,
    hsl.shards, hsl.created, hsl.createdInst, hsl.hot, hsl.metadata, fun hne => (hne rfl).elim, hsl.log,
    hsl.trail⟩

theorem Placed.restore (hsl : Placed h sl) (env : TierEnv) (caller : Address) {core : InvoiceCore}
    (hcore : sl.core.inst.or sl.core.persistent = some core) : AtHome h (sl.restore env caller core) := by
  have hback : sl.core.back = .inPersistent (some core) := by
    unfold Cell.back
    rw [hcore]
  have hsame : Cell.inPersistent (some core) = .inPersistent (some h.inv.clean.split.1) := by
    rw [← hback, hsl.core.back]
  have hcreated : sl.createdLedger.back = .inPersistent (some h.created) := by
    unfold Cell.back
    rcases hsl.createdInst with hnone | hsome
    · rw [hnone, hsl.created]
      rfl
    · rw [hsome]
      rfl
  have hlog : sl.auditLog.back = .inPersistent sl.auditLog.read := by
    have htrail := hsl.trail
    unfold Cell.back Cell.read
    split at htrail
    · rw [htrail, Option.none_or, Option.or_none]
    · rw [htrail, Option.none_or, Option.or_none]
  unfold Slots.restore Slots.appendAuditEntry
  dsimp only
  rw [if_neg (by simp [Slots.isMarked]), hsame, hsl.ext.back, hsl.ext2.back, hsl.compact.back, hcreated, hlog]
  refine ⟨rfl, rfl, rfl, rfl, fun i => (hsl.shards i).back, rfl, rfl, ⟨_, rfl, ?_⟩, hsl.hot, hsl.metadata⟩
  exact hsl.log.trans (List.prefix_append _ _)

/-! ## The calls -/

/-- The entries of one invoice, in the whole store. -/
def PlacedAt (h : Home) (id : ℕ) (st : TierStore) : Prop := Placed h (st.slots id)

theorem PlacedAt.put (hst : PlacedAt h id st) (hsl : k = id → Placed h sl) : PlacedAt h id (st.put k sl) := by
  unfold PlacedAt
  by_cases hk : k = id
  · subst hk
    rw [TierStore.put_self]
    exact hsl rfl
  · rw [TierStore.put_of_ne st sl (Ne.symm hk)]
    exact hst

/-- The core that is read, or that the persistent tier has, is the one at home. -/
theorem Placed.core_eq {core : InvoiceCore} (hsl : Placed h sl) (hcore : sl.core.persistent = some core) :
    core = h.inv.clean.split.1 := by
  rcases hsl.core.persistent with hnone | hsome
  · rw [hnone] at hcore
    cases hcore
  · rw [hsome] at hcore
    exact (Option.some.inj hcore).symm

theorem placedAt_archiveInvoice (hst : PlacedAt h id st)
    (hkept : k = id → (st.slots id).archiveMarker.inst = none → (st.slots id).core.persistent ≠ none)
    (hrun : archiveInvoice env k st = .ok (v, st')) : PlacedAt h id st' := by
  unfold archiveInvoice at hrun
  rw [getSlots_bind] at hrun
  rcases onlyIf_ok.1 hrun with ⟨hmarker, hrun⟩ | ⟨-, hsame⟩
  · simp only [orPanic_bind, require_bind] at hrun
    obtain ⟨core, hcore, -, hrun⟩ := hrun
    rw [setSlots_ok.1 hrun]
    apply hst.put
    rintro rfl
    have hsl : Placed h (st.slots k) := hst
    rw [hsl.core.read] at hcore
    rw [← Option.some.inj hcore]
    exact (hsl.moveRecords (hkept rfl hmarker)).recordArchived env none
  · rwa [← hsame]

theorem placedAt_archiveInBatch {archived archived' : List ℕ} (hst : PlacedAt h id st)
    (hrun : archiveInBatch env archived k st = .ok (archived', st')) : PlacedAt h id st' := by
  unfold archiveInBatch at hrun
  rw [getSlots_bind] at hrun
  cases hcore : (st.slots k).core.persistent with
  | none =>
      rw [hcore] at hrun
      obtain ⟨-, rfl⟩ := pure_ok.1 hrun
      exact hst
  | some core =>
      rw [hcore] at hrun
      dsimp only at hrun
      split at hrun
      · obtain ⟨w, u, hset, hrun⟩ := bind_ok.1 hrun
        obtain ⟨-, rfl⟩ := pure_ok.1 hrun
        rw [setSlots_ok.1 hset]
        apply hst.put
        rintro rfl
        have hsl : Placed h (st.slots k) := hst
        rw [hsl.core_eq hcore]
        exact (hsl.moveRecords (by rw [hcore]; exact Option.some_ne_none _)).recordArchived env none
      · obtain ⟨-, rfl⟩ := pure_ok.1 hrun
        exact hst

theorem placedAt_batch {ids archived archived' : List ℕ} (hst : PlacedAt h id st)
    (hrun : ids.foldlM (archiveInBatch env) archived st = .ok (archived', st')) : PlacedAt h id st' := by
  induction ids generalizing archived st with
  | nil =>
      obtain ⟨-, rfl⟩ := pure_ok.1 hrun
      exact hst
  | cons k ids ih =>
      rw [List.foldlM_cons] at hrun
      obtain ⟨mid, u, hfirst, hrest⟩ := bind_ok.1 hrun
      exact ih (placedAt_archiveInBatch hst hfirst) hrest

theorem placedAt_sweepOne {archived archived' : List ℕ} (hst : PlacedAt h id st)
    (hpurge : env.policy.autoPurge = false)
    (hrun : sweepOne env k archived st = .ok (archived', st')) : PlacedAt h id st' := by
  unfold sweepOne at hrun
  rw [getSlots_bind] at hrun
  split at hrun
  · obtain ⟨core, hcore, hrun⟩ := ofResult_bind.1 hrun
    obtain ⟨w, u, hset, hrun⟩ := bind_ok.1 hrun
    obtain ⟨-, rfl⟩ := pure_ok.1 hrun
    rw [setSlots_ok.1 hset]
    apply hst.put
    rintro rfl
    have hsl : Placed h (st.slots k) := hst
    rw [hsl.core_eq (unwrap_ok.1 hcore)]
    exact (hsl.archiveInvoiceStorage env).recordArchived env _
  · rw [hpurge, Bool.false_and] at hrun
    obtain ⟨-, rfl⟩ := pure_ok.1 hrun
    exact hst

theorem placedAt_sweepFrom {lastId n cursor cursor' : ℕ} {archived archived' : List ℕ}
    (hst : PlacedAt h id st) (hpurge : env.policy.autoPurge = false)
    (hrun : sweepFrom env lastId n cursor archived st = .ok ((cursor', archived'), st')) :
    PlacedAt h id st' := by
  induction n generalizing cursor archived st with
  | zero =>
      obtain ⟨-, rfl⟩ := pure_ok.1 hrun
      exact hst
  | succ n ih =>
      unfold sweepFrom at hrun
      split at hrun
      · obtain ⟨-, rfl⟩ := pure_ok.1 hrun
        exact hst
      · obtain ⟨mid, u, hone, hrest⟩ := bind_ok.1 hrun
        exact ih (placedAt_sweepOne hst hpurge hone) hrest

theorem requireNotPaused_bind {α : Type} {f : Unit → TierM α} {r : α × TierStore}
    (h : (requireNotPaused env >>= f) st = .ok r) : f () st = .ok r := by
  unfold requireNotPaused at h
  rw [bind_assoc, require_bind, require_bind] at h
  exact h.2.2

theorem requireOperator_bind {α : Type} {f : Unit → TierM α} {r : α × TierStore} {admin : Address}
    (h : (requireOperator env admin >>= f) st = .ok r) : f () st = .ok r := by
  unfold requireOperator at h
  rw [bind_assoc, require_bind, bind_assoc, requireAuth_bind, require_bind] at h
  exact h.2.2.2

theorem placedAt_sweep {archived : List ℕ} (hst : PlacedAt h id st) (hpurge : env.policy.autoPurge = false)
    (hrun : runArchivalSweep env st = .ok (archived, st')) : PlacedAt h id st' := by
  unfold runArchivalSweep at hrun
  obtain ⟨-, hrun⟩ := require_bind.1 (requireNotPaused_bind hrun)
  rw [get_bind] at hrun
  obtain ⟨-, hrun⟩ := require_bind.1 hrun
  obtain ⟨⟨cursor, done⟩, u', hsweep, hrun⟩ := bind_ok.1 hrun
  obtain ⟨w', u'', hset, hrun⟩ := bind_ok.1 hrun
  obtain ⟨-, rfl⟩ := pure_ok.1 hrun
  have hplaced := placedAt_sweepFrom hst hpurge hsweep
  cases hset
  exact hplaced

/-- A recovery that returns is behind every guard and puts the entries back. -/
theorem restoreArchivedInvoice_ok {caller : Address}
    (hrun : restoreArchivedInvoice env caller k st = .ok (v, st')) :
    ∃ core, (st.slots k).core.inst.or (st.slots k).core.persistent = some core ∧
      st' = st.put k ((st.slots k).restore env caller core) := by
  unfold restoreArchivedInvoice at hrun
  replace hrun := getSlots_bind.1 (requireNotPaused_bind hrun)
  simp only [require_bind, orPanic_bind] at hrun
  obtain ⟨-, -, core, hcore, hrun⟩ := hrun
  refine ⟨core, hcore, ?_⟩
  split at hrun
  · obtain ⟨-, hrun⟩ := requireAuth_bind.1 hrun
    exact setSlots_ok.1 hrun
  · exact setSlots_ok.1 (requireOperator_bind hrun)

theorem PlacedAt.restored {caller : Address} (hst : PlacedAt h id st)
    (hrun : restoreArchivedInvoice env caller id st = .ok (v, st')) : AtHome h (st'.slots id) := by
  obtain ⟨core, hcore, rfl⟩ := restoreArchivedInvoice_ok hrun
  rw [TierStore.put_self]
  exact Placed.restore hst env caller hcore

theorem placedAt_restore {caller : Address} (hst : PlacedAt h id st)
    (hrun : restoreArchivedInvoice env caller k st = .ok (v, st')) : PlacedAt h id st' := by
  obtain ⟨core, hcore, rfl⟩ := restoreArchivedInvoice_ok hrun
  apply hst.put
  rintro rfl
  exact (Placed.restore hst env caller hcore).placed

/-- Any load, of this invoice or another. -/
theorem placedAt_load {inv : Invoice} (hst : PlacedAt h id st)
    (hrun : loadInvoice env k st = .ok (inv, st')) : PlacedAt h id st' := by
  unfold loadInvoice at hrun
  obtain ⟨w, u, harchive, hrun⟩ := bind_ok.1 hrun
  rw [getSlots_bind] at hrun
  obtain ⟨-, rfl⟩ := ofResult_ok.1 hrun
  unfold maybeArchiveInvoice at harchive
  rw [getSlots_bind] at harchive
  rcases onlyIf_ok.1 harchive with ⟨-, harchive⟩ | ⟨-, hsame⟩
  · obtain ⟨core, hcore, harchive⟩ := orPanic_bind.1 harchive
    rcases onlyIf_ok.1 harchive with ⟨-, hset⟩ | ⟨-, hsame⟩
    · rw [setSlots_ok.1 hset]
      apply hst.put
      rintro rfl
      have hsl : Placed h (st.slots k) := hst
      rw [hsl.core.read] at hcore
      rw [← Option.some.inj hcore]
      exact (hsl.archiveInvoiceStorage env).recordArchived env none
    · rwa [← hsame]
  · rwa [← hsame]

/-! ## Every run -/

/-- A call that may be made: no sweep purges, and no invoice is archived on request once its
records have left the persistent tier without the marker. -/
def Allowed (id : ℕ) (st : TierStore) (c : TierEnv × ArchiveCall) : Prop :=
  match c.2 with
  | .archiveInvoice k =>
      k = id → (st.slots id).archiveMarker.inst = none → (st.slots id).core.persistent ≠ none
  | .runArchivalSweep => c.1.policy.autoPurge = false
  | _ => True

theorem placedAt_call {c : TierEnv × ArchiveCall} (hst : PlacedAt h id st) (hok : Allowed id st c)
    (hrun : archiveStep c st = .ok (v, st')) : PlacedAt h id st' := by
  obtain ⟨env, call⟩ := c
  cases call with
  | archiveInvoice k => exact placedAt_archiveInvoice hst hok hrun
  | archiveInvoicesBatch ids =>
      obtain ⟨archived, hrun⟩ := ignore_ok.1 hrun
      exact placedAt_batch hst (require_bind.1 hrun).2
  | runArchivalSweep =>
      obtain ⟨archived, hrun⟩ := ignore_ok.1 hrun
      exact placedAt_sweep hst hok hrun
  | loadInvoice k =>
      obtain ⟨inv, hrun⟩ := ignore_ok.1 hrun
      exact placedAt_load hst hrun
  | restoreArchivedInvoice caller k => exact placedAt_restore hst hrun

theorem placedAt_run {calls : List (TierEnv × ArchiveCall)} (hst : AtHome h (st.slots id))
    (hok : Along (Allowed id) archiveStep st calls) :
    PlacedAt h id (runAll archiveStep st calls) :=
  runAll_induction (fun _ _ _ _ hst hok hrun => placedAt_call hst hok hrun) hst.placed hok

/-- Readers see one invoice, and a recovery puts back every persistent entry. -/
theorem archival_invisible (h : Home) (id : ℕ) (st : TierStore) (hst : AtHome h (st.slots id))
    (calls : List (TierEnv × ArchiveCall))
    (hok : Along (Allowed id) archiveStep st calls) :
    (∀ env, ∃ st', loadInvoice env id (runAll archiveStep st calls) =
      .ok (h.invoice, st')) ∧
    ∀ env caller st', restoreArchivedInvoice env caller id
        (runAll archiveStep st calls) = .ok ((), st') → AtHome h (st'.slots id) := by
  have hplaced := placedAt_run hst hok
  refine ⟨fun env => ?_, fun env caller st' hrun => hplaced.restored hrun⟩
  have hloads := hplaced.shows.loads env
  rwa [hplaced.filled] at hloads

/-- A released invoice with one payment, created at ledger 10. -/
def sampleHome : Home where
  inv := sampleInvoice .released
  shards := fun i => if (i : ℕ) = 4 then
    some [{ payer := 20, amount := 100, attestationHash := none, ledger := 12, timestamp := 12 }] else none
  created := 10
  log := [⟨"created", 2, 10⟩]
  metadata := none

def sampleTierStore : TierStore := { slots := update (fun _ => {}) 1 sampleHome.slots, counter := 1 }

/-- Requested, swept by a load and recovered. -/
theorem archival_invisible_sample :
    ∃ st', loadInvoice (sampleTierEnv 300000) 1 (runAll archiveStep sampleTierStore
      [(sampleTierEnv 20, .archiveInvoice 1), (sampleTierEnv 200000, .loadInvoice 1),
        (sampleTierEnv 200001, .restoreArchivedInvoice 2 1)]) = .ok (sampleHome.invoice, st') := by
  have hhome : AtHome sampleHome (sampleTierStore.slots 1) := atHome_slots sampleHome
  have hok : Along (Allowed 1) archiveStep sampleTierStore
      [(sampleTierEnv 20, .archiveInvoice 1), (sampleTierEnv 200000, .loadInvoice 1),
        (sampleTierEnv 200001, .restoreArchivedInvoice 2 1)] :=
    ⟨fun _ _ _ => Option.some_ne_none _, fun _ => trivial, fun _ => trivial, trivial⟩
  exact (archival_invisible sampleHome 1 sampleTierStore hhome _ hok).1 _

/-- Archived on request twice: the tax and its receiver are gone. -/
theorem archived_twice_loses_extensions :
    AtHome sampleHome (sampleTierStore.slots 1) ∧
    ∃ inv st', loadInvoice (sampleTierEnv 30) 1 (runAll archiveStep sampleTierStore
        [(sampleTierEnv 20, .archiveInvoice 1), (sampleTierEnv 21, .archiveInvoice 1)]) = .ok (inv, st') ∧
      sampleHome.invoice.taxBps = 500 ∧ inv.taxBps = 0 ∧ inv ≠ sampleHome.invoice := by
  refine ⟨atHome_slots sampleHome, _, _, rfl, rfl, rfl, fun heq => ?_⟩
  have htax : (0 : ℕ) = 500 := congrArg Invoice.taxBps heq
  cases htax

end StellarSplit.Split.Schema
