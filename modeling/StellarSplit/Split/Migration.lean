import StellarSplit.Split.Archival

/-!
# Storage migrations

A contract whose code was replaced is brought to the current schema version by
two loops over the ids of its invoices: one gives each invoice a note, the other
moves the notes to their new key. The first loop looks for an invoice in the
persistent tier only, so an archived invoice is left without a note.
-/

namespace StellarSplit.Split.Migration

open Exec Function Schema

/-! ## The migrations -/

def currentSchemaVersion : ℕ := 3

structure InvoiceMeta where
  note : String
  priority : ℕ
deriving DecidableEq

def defaultMeta : InvoiceMeta := ⟨"", 0⟩

/-- The entries of one id under the keys `inv_meta` and `inv_note`. -/
structure NoteEntries where
  v2 : Option InvoiceMeta := none
  v3 : Option InvoiceMeta := none
deriving DecidableEq

/-- The storage tiers with the schema version and the notes. -/
structure MigrationStore extends TierStore where
  version : Option ℕ := none
  notes : ℕ → NoteEntries := fun _ => {}

abbrev MigrateM (α : Type) := Call MigrationStore SplitFault α

def schemaVersion (s : MigrationStore) : ℕ := s.version.getD 1

def setSchemaVersion (version : ℕ) : MigrateM Unit := modify fun s => { s with version := some version }

def MigrationStore.withNotes (s : MigrationStore) (notes : ℕ → NoteEntries) : MigrationStore :=
  { s with notes := notes }

/-- The entries of an id after the first loop; `stored` says that its invoice is in the persistent
tier. -/
def NoteEntries.backfilled (stored : Bool) (n : NoteEntries) : NoteEntries :=
  if stored = true ∧ n.v2 = none then { n with v2 := some defaultMeta } else n

/-- The entries of an id after the second loop. -/
def NoteEntries.renamed (n : NoteEntries) : NoteEntries :=
  match n.v2 with
  | some note => { v2 := none, v3 := some note }
  | none => n

/-- Rewrite the entries of the ids from 1 to the last one. -/
def forEachId (f : TierStore → ℕ → NoteEntries → NoteEntries) : MigrateM Unit := do
  let s ← get
  forM (List.range' 1 s.counter) fun id =>
    modify fun s => s.withNotes (update s.notes id (f s.toTierStore id (s.notes id)))

def migrationV2 : MigrateM Unit :=
  forEachId fun tiers id n => n.backfilled (tiers.slots id).core.persistent.isSome

def migrationV3 : MigrateM Unit := forEachId fun _ _ n => n.renamed

def getInvoiceMeta (s : MigrationStore) (id : ℕ) : Option InvoiceMeta := (s.notes id).v3

/-- Run one migration and stamp its version, unless the version is there already. -/
def migrateTo (target : ℕ) (migration : MigrateM Unit) (version : ℕ) : MigrateM ℕ :=
  if version < target then do
    migration
    setSchemaVersion target
    pure target
  else pure version

def runPendingMigrations : MigrateM ℕ := do
  let s ← get
  let version ← migrateTo 2 migrationV2 (schemaVersion s)
  migrateTo 3 migrationV3 version

def migrate (env : Env) (admin : Address) : MigrateM ℕ := do
  requireAuth env.toLedger admin
  require (admin ∈ env.config.superAdmins) (.panic "requires SuperAdmin role")
  runPendingMigrations

/-! ## What the loops do -/

variable {s t : MigrationStore} {id : ℕ}

/-- A loop over distinct ids rewrites the entries of each of them once. -/
theorem forM_rewrite (f : TierStore → ℕ → NoteEntries → NoteEntries) {ids : List ℕ} (hids : ids.Nodup)
    (s : MigrationStore) :
    (forM ids fun id => modify fun s => s.withNotes (update s.notes id (f s.toTierStore id (s.notes id))) :
      MigrateM Unit) s =
      .ok ((), s.withNotes fun j => if j ∈ ids then f s.toTierStore j (s.notes j) else s.notes j) := by
  induction ids generalizing s with
  | nil => rfl
  | cons i ids ih =>
      obtain ⟨hi, hrest⟩ := List.nodup_cons.1 hids
      rw [List.forM_cons, bind_run (a := ()) (modify_ok.2 rfl), ih hrest]
      refine congrArg (fun notes => Except.ok ((), s.withNotes notes)) (funext fun j => ?_)
      rcases eq_or_ne j i with rfl | hj
      · simp [MigrationStore.withNotes, hi]
      · simp [MigrationStore.withNotes, hj]

/-- The ids the loops go over. -/
def MigrationStore.Numbers (s : MigrationStore) (id : ℕ) : Prop := 1 ≤ id ∧ id ≤ s.counter

instance : Decidable (s.Numbers id) := inferInstanceAs (Decidable (_ ∧ _))

theorem forEachId_ok (f : TierStore → ℕ → NoteEntries → NoteEntries) (s : MigrationStore) :
    forEachId f s = .ok ((), s.withNotes fun j =>
      if s.Numbers j then f s.toTierStore j (s.notes j) else s.notes j) := by
  have hmem : ∀ j, j ∈ List.range' 1 s.counter ↔ s.Numbers j := by
    intro j
    rw [List.mem_range'_1]
    unfold MigrationStore.Numbers
    omega
  rw [forEachId, bind_run (get_ok.2 ⟨rfl, rfl⟩), forM_rewrite f List.nodup_range']
  simp only [hmem]

/-- The storage after a migration that rewrites each entry by `f`. -/
def MigrationStore.rewritten (s : MigrationStore) (version : ℕ) (f : TierStore → ℕ → NoteEntries → NoteEntries) :
    MigrationStore :=
  { s with
    version := some version
    notes := fun j => if s.Numbers j then f s.toTierStore j (s.notes j) else s.notes j }

theorem migrateTo_ok {target version : ℕ} (f : TierStore → ℕ → NoteEntries → NoteEntries) (h : version < target)
    (s : MigrationStore) : migrateTo target (forEachId f) version s = .ok (target, s.rewritten target f) := by
  unfold migrateTo
  rw [if_pos h, bind_run (forEachId_ok f s)]
  rfl

theorem migrateTo_skip {target version : ℕ} {migration : MigrateM Unit} (h : ¬version < target)
    (s : MigrationStore) : migrateTo target migration version s = .ok (version, s) := by
  unfold migrateTo
  rw [if_neg h]
  rfl

/-- Two migrations rewrite each entry by the one and then by the other. -/
theorem rewritten_rewritten (v w : ℕ) (f g : TierStore → ℕ → NoteEntries → NoteEntries) (s : MigrationStore) :
    (s.rewritten v f).rewritten w g = s.rewritten w fun tiers id n => g tiers id (f tiers id n) := by
  refine congrArg (fun notes => { s with version := some w, notes := notes }) (funext fun j => ?_)
  change (if s.Numbers j then g _ j (if s.Numbers j then _ else _) else if s.Numbers j then _ else _) = _
  split_ifs <;> rfl

/-- The entries of an id after the pending migrations. -/
def MigrationStore.migratedEntries (s : MigrationStore) (tiers : TierStore) (id : ℕ) (n : NoteEntries) :
    NoteEntries :=
  if schemaVersion s < 2 then (n.backfilled (tiers.slots id).core.persistent.isSome).renamed else n.renamed

theorem runPendingMigrations_ok (h : schemaVersion s ≤ 2) :
    runPendingMigrations s = .ok (3, s.rewritten 3 s.migratedEntries) := by
  rw [runPendingMigrations, bind_run (get_ok.2 ⟨rfl, rfl⟩)]
  unfold MigrationStore.migratedEntries
  by_cases hfirst : schemaVersion s < 2
  · simp only [if_pos hfirst]
    rw [migrationV2, bind_run (migrateTo_ok _ hfirst s), migrationV3, migrateTo_ok _ (by decide), rewritten_rewritten]
  · simp only [if_neg hfirst]
    rw [bind_run (migrateTo_skip hfirst s), migrationV3, migrateTo_ok _ (by omega)]

/-- A contract at the current version is left alone. -/
theorem runPendingMigrations_current (h : schemaVersion s = 3) : runPendingMigrations s = .ok (3, s) := by
  rw [runPendingMigrations, bind_run (get_ok.2 ⟨rfl, rfl⟩), h, bind_run (migrateTo_skip (by decide) s),
    migrateTo_skip (by decide)]

/-! ## The law -/

/-- The invoice is stored in one of the tiers. -/
def MigrationStore.HasInvoice (s : MigrationStore) (id : ℕ) : Prop := (s.slots id).core.read.isSome = true

/-- What a migration is for: each invoice gets a note under the current key, each old note is found
there and nowhere else, nothing else changes, and there is nothing left to do. -/
structure Migrated (s t : MigrationStore) : Prop where
  version : schemaVersion t = currentSchemaVersion
  noted : ∀ id, s.HasInvoice id → (getInvoiceMeta t id).isSome = true
  carried : ∀ id note, (s.notes id).v2 = some note → t.notes id = { v2 := none, v3 := some note }
  others : ∀ id, (s.notes id).v2 = none → (t.notes id).v2 = none ∧
    ((s.notes id).v3.isSome = true ∨ ¬s.HasInvoice id → (t.notes id).v3 = (s.notes id).v3)
  rest : t.toTierStore = s.toTierStore
  again : runPendingMigrations t = .ok (currentSchemaVersion, t)

/-- The first loop comes to the invoice. -/
def MigrationStore.Backfills (s : MigrationStore) (id : ℕ) : Prop :=
  schemaVersion s = 1 ∧ s.Numbers id ∧ (s.slots id).core.persistent.isSome = true

instance : Decidable (s.Backfills id) := inferInstanceAs (Decidable (_ ∧ _))

/-- When the pending migrations do what they are for. -/
structure Migratable (s : MigrationStore) : Prop where
  numbered : ∀ id, (s.notes id).v2.isSome = true → s.Numbers id
  noted : ∀ id, s.HasInvoice id → (s.notes id).v2.isSome = true ∨ (s.notes id).v3.isSome = true ∨ s.Backfills id
  unrenamed : ∀ id, s.Backfills id → (s.notes id).v2 = none → ∀ note ∈ (s.notes id).v3, note = defaultMeta

/-- The entries that each id has after the migrations. -/
theorem migrated_notes (h : schemaVersion s = 1 ∨ schemaVersion s = 2) (id : ℕ) :
    (s.rewritten 3 s.migratedEntries).notes id =
      if s.Numbers id ∧ (s.notes id).v2.isSome = true then { v2 := none, v3 := (s.notes id).v2 }
      else if s.Backfills id ∧ (s.notes id).v2 = none then { v2 := none, v3 := some defaultMeta }
      else s.notes id := by
  have hfirst : schemaVersion s < 2 ↔ schemaVersion s = 1 := by omega
  change (if s.Numbers id then s.migratedEntries s.toTierStore id (s.notes id) else s.notes id) = _
  unfold MigrationStore.migratedEntries MigrationStore.Backfills
  simp only [hfirst]
  by_cases hid : s.Numbers id
  · cases hnote : (s.notes id).v2 with
    | some note =>
        have hback : ∀ stored, (s.notes id).backfilled stored = s.notes id := by
          intro stored
          unfold NoteEntries.backfilled
          rw [if_neg (by simp [hnote])]
        have hrename : (s.notes id).renamed = { v2 := none, v3 := some note } := by
          unfold NoteEntries.renamed
          rw [hnote]
        simp [hid, hback, hrename]
    | none =>
        have hrename : (s.notes id).renamed = s.notes id := by
          unfold NoteEntries.renamed
          rw [hnote]
        by_cases hstored : (s.slots id).core.persistent.isSome = true
        · have hback : ((s.notes id).backfilled true).renamed = { v2 := none, v3 := some defaultMeta } := by
            unfold NoteEntries.backfilled
            rw [if_pos ⟨rfl, hnote⟩]
            rfl
          simp [hid, hstored, hback, hrename]
        · have hback : ((s.notes id).backfilled false).renamed = s.notes id := hrename
          simp [hid, hstored, hback, hrename]
  · simp [hid]

theorem Migrated.migratable (h : schemaVersion s = 1 ∨ schemaVersion s = 2)
    (hmigrated : Migrated s (s.rewritten 3 s.migratedEntries)) : Migratable s := by
  have hnotes := migrated_notes h
  generalize s.rewritten 3 s.migratedEntries = t at hmigrated hnotes
  refine ⟨fun id hold => ?_, fun id hinv => ?_, fun id hback hnone note hnote => ?_⟩
  · obtain ⟨note, hnote⟩ := Option.isSome_iff_exists.1 hold
    by_contra hid
    have hcarried := hmigrated.carried id note hnote
    rw [hnotes, if_neg (fun hn => hid hn.1), if_neg (fun hn => hid hn.1.2.1)] at hcarried
    rw [hcarried] at hnote
    cases hnote
  · by_contra hnone
    simp only [not_or, Bool.not_eq_true, Option.isSome_eq_false_iff, Option.isNone_iff_eq_none] at hnone
    obtain ⟨hv2, hv3, hback⟩ := hnone
    have hnoted := hmigrated.noted id hinv
    rw [getInvoiceMeta, hnotes, if_neg (by simp [hv2]), if_neg (fun hn => hback hn.1), hv3] at hnoted
    cases hnoted
  · have hkept := (hmigrated.others id hnone).2 (.inl (by rw [hnote]; rfl))
    rw [hnotes, if_neg (by simp [hnone]), if_pos ⟨hback, hnone⟩, hnote] at hkept
    exact (Option.some.inj hkept).symm

theorem MigrationStore.Backfills.hasInvoice (h : s.Backfills id) : s.HasInvoice id := by
  obtain ⟨core, hcore⟩ := Option.isSome_iff_exists.1 h.2.2
  unfold HasInvoice Cell.read
  rw [hcore]
  rfl

theorem Migratable.migrated (h : schemaVersion s = 1 ∨ schemaVersion s = 2) (hs : Migratable s) :
    Migrated s (s.rewritten 3 s.migratedEntries) := by
  have hnotes := migrated_notes h
  refine ⟨rfl, fun id hinv => ?_, fun id note hnote => ?_, fun id hnone => ⟨?_, fun hkeep => ?_⟩, rfl,
    runPendingMigrations_current rfl⟩
  · rw [getInvoiceMeta, hnotes]
    split_ifs with hold hback
    · exact hold.2
    · rfl
    · rcases hs.noted id hinv with hv2 | hv3 | hback'
      · exact absurd ⟨hs.numbered id hv2, hv2⟩ hold
      · exact hv3
      · cases hv2 : (s.notes id).v2 with
        | some note => exact absurd ⟨hback'.2.1, by rw [hv2]; rfl⟩ hold
        | none => exact absurd ⟨hback', hv2⟩ hback
  · have hold : (s.notes id).v2.isSome = true := by
      rw [hnote]
      rfl
    rw [hnotes, if_pos ⟨hs.numbered id hold, hold⟩, hnote]
  · rw [hnotes, if_neg (by simp [hnone])]
    split_ifs
    · rfl
    · exact hnone
  · rw [hnotes, if_neg (by simp [hnone])]
    split_ifs with hback
    · obtain ⟨note, hnote⟩ := Option.isSome_iff_exists.1 (hkeep.resolve_right (not_not.2 hback.1.hasInvoice))
      rw [hnote, hs.unrenamed id hback.1 hnone note hnote]
    · rfl

/-- From version 1 or 2 the pending migrations return, and they do what they are for exactly if
every old note has the number of an invoice, every invoice has a note or is found by the first loop,
and that loop finds no invoice that has a note under the new key only. -/
theorem migration_law_iff (h : schemaVersion s = 1 ∨ schemaVersion s = 2) :
    (∃ t, runPendingMigrations s = .ok (currentSchemaVersion, t) ∧ Migrated s t) ↔ Migratable s := by
  have hrun : runPendingMigrations s = .ok (currentSchemaVersion, s.rewritten 3 s.migratedEntries) :=
    runPendingMigrations_ok (by omega)
  constructor
  · rintro ⟨t, hrun', hmigrated⟩
    rw [hrun] at hrun'
    obtain ⟨-, rfl⟩ := Prod.mk.inj (Except.ok.inj hrun')
    exact hmigrated.migratable h
  · exact fun hs => ⟨_, hrun, hs.migrated h⟩

/-! ### An archived invoice -/

/-- A contract at version 1 with one released invoice, in one of the tiers. -/
def unmigrated (core : Cell InvoiceCore) : MigrationStore :=
  { slots := fun id => if id = 1 then { core := core } else {}, counter := 1 }

def releasedCore : InvoiceCore := (Schema.sampleInvoice .released).split.1

theorem unmigrated_slots {core : Cell InvoiceCore} (h : id ≠ 1) : (unmigrated core).slots id = {} := if_neg h

/-- An invoice in the persistent tier gets its note. -/
theorem migration_law_sample :
    Migratable (unmigrated (.inPersistent (some releasedCore))) ∧
      ∃ t, runPendingMigrations (unmigrated (.inPersistent (some releasedCore))) = .ok (currentSchemaVersion, t) ∧
        Migrated (unmigrated (.inPersistent (some releasedCore))) t := by
  have hmigratable : Migratable (unmigrated (.inPersistent (some releasedCore))) := by
    refine ⟨fun id hold => ?_, fun id hinv => .inr (.inr ?_), fun id _ _ note hnote => ?_⟩
    · cases hold
    · rcases eq_or_ne id 1 with rfl | hid
      · exact ⟨rfl, ⟨le_rfl, le_rfl⟩, rfl⟩
      · unfold MigrationStore.HasInvoice at hinv
        rw [unmigrated_slots hid] at hinv
        cases hinv
    · cases hnote
  exact ⟨hmigratable, (migration_law_iff (.inl rfl)).2 hmigratable⟩

/-- An archived invoice gets none. -/
theorem migration_law_fails :
    ¬∀ s, schemaVersion s = 1 ∨ schemaVersion s = 2 →
      ∃ t, runPendingMigrations s = .ok (currentSchemaVersion, t) ∧ Migrated s t := by
  intro hclaim
  obtain ⟨t, hrun, hmigrated⟩ := hclaim (unmigrated (.inInstance (some releasedCore))) (.inl rfl)
  rw [runPendingMigrations_ok (by decide)] at hrun
  obtain ⟨-, rfl⟩ := Prod.mk.inj (Except.ok.inj hrun)
  have hnoted := hmigrated.noted 1 rfl
  cases hnoted

end StellarSplit.Split.Migration
