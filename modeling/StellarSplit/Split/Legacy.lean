import StellarSplit.Split.Archival

/-!
# Invoices of the legacy layout

A record that was stored before the schema had a version is read, upgraded and
saved. The upgrade fills the extension record with defaults, the fields of the
tax, the insurance and the route included, and the save leaves the payments to
shards that the legacy layout does not have.
-/

namespace StellarSplit.Split.Schema

open Exec Function Machine

/-- The layout of invoices that were stored before the schema had a version. -/
structure LegacyInvoice where
  creator : Address
  coCreators : List Address
  recipients : List Address
  amounts : List ℤ
  tokens : List Address
  deadline : U64
  funded : I128
  status : InvoiceStatus
  payments : List Payment
  dripDuration : Option ℕ
  releaseTimestamp : Option ℕ
  claimed : List ℤ
  frozen : Bool
  completionTime : Option ℕ
  allowEarlyWithdrawal : Bool
  bonusPool : ℤ
  bonusMaxPayers : ℕ
  prerequisiteId : Option ℕ
  tranches : List Tranche
  releasedBps : ℕ
  stakeAmount : ℤ
  referrer : Option Address
  taxBps : ℕ
  taxAuthority : Option Address
  insurancePremiumBps : ℕ
  insuranceFund : ℤ
  smartRoute : Bool

/-- The core record of an upgraded invoice. -/
def LegacyInvoice.core (old : LegacyInvoice) (fundingToken : Address) : InvoiceCore :=
  { old with
    version := 2
    fundingToken
    cloneDepth := 0
    predecessorId := none
    metadataHash := none }

def Invoice.fromLegacy (old : LegacyInvoice) : Result Invoice :=
  match old.tokens.head? with
  | none => .error (.panic "no token")
  | some fundingToken =>
      .ok (assemble (old.core fundingToken) { baseAmounts := old.amounts } { overfundingPolicy := .cap })

/-- What the upgrade is for: every field of the legacy layout that the schema still has keeps
its value, and every other field has its default. -/
def LegacyInvoice.carried (old : LegacyInvoice) (fundingToken : Address) : Invoice :=
  Invoice.assemble (old.core fundingToken)
    { old with baseAmounts := old.amounts }
    {}

/-- The entry under the invoice's key, read as a current core. It is in the legacy layout when
`legacy` is there, and `asCore` is what the host then answers. -/
def readCore (asCore : LegacyInvoice → Result (Option InvoiceCore)) (legacy : Option LegacyInvoice)
    (sl : Slots) : Result (Option InvoiceCore) :=
  match legacy with
  | some old => asCore old
  | none => .ok sl.core.persistent

def migrateInvoice (env : TierEnv) (asCore : LegacyInvoice → Result (Option InvoiceCore))
    (legacy : Option LegacyInvoice) (admin : Address) (id : ℕ) : TierM Unit := do
  require (env.config.schemaCurrent = true) (.panic "MigrationRequired")
  requireAuth env.toLedger admin
  require (admin ∈ env.config.superAdmins) (.panic "requires SuperAdmin role")
  let sl ← getSlots id
  let core ← ofResult (readCore asCore legacy sl)
  onlyIf (¬∃ c ∈ core, 1 ≤ c.version) do
    let old ← orPanic legacy "invoice not found"
    let inv ← ofResult (Invoice.fromLegacy old)
    saveInvoice env id inv

variable {old : LegacyInvoice} {tok admin : Address} {env : TierEnv} {st st' : TierStore} {id : ℕ} {v : Unit}
  {asCore : LegacyInvoice → Result (Option InvoiceCore)}

/-- A migration that finds a legacy entry saves its upgrade. -/
theorem migrateInvoice_ok (hcore : asCore old = .ok none)
    (hrun : migrateInvoice env asCore (some old) admin id st = .ok (v, st')) :
    ∃ inv total, Invoice.fromLegacy old = .ok inv ∧ st' = st.put id ((st.slots id).save inv total) := by
  unfold migrateInvoice at hrun
  rw [require_bind, requireAuth_bind, require_bind, getSlots_bind, ofResult_bind] at hrun
  obtain ⟨-, -, -, core, hread, hrun⟩ := hrun
  obtain rfl : none = core := Except.ok.inj (hcore.symm.trans hread)
  rcases onlyIf_ok.1 hrun with ⟨-, hrun⟩ | ⟨hmigrated, -⟩
  · obtain ⟨found, hfound, hrun⟩ := orPanic_bind.1 hrun
    obtain rfl := Option.some.inj hfound
    obtain ⟨inv, hinv, hrun⟩ := ofResult_bind.1 hrun
    obtain ⟨total, rfl⟩ := saveInvoice_ok hrun
    exact ⟨inv, total, hinv, rfl⟩
  · exact (hmigrated (by simp)).elim

/-- The upgrade carries every field over, the saved upgrade is read as it was carried over,
and so is the invoice that a migration leaves. -/
def Preserved (old : LegacyInvoice) (id : ℕ) (st : TierStore) : Prop :=
  ∃ tok, Invoice.fromLegacy old = .ok (old.carried tok) ∧
    (∀ total, ((st.slots id).save (old.carried tok) total).load =
      .ok { old.carried tok with metadataHash := (st.slots id).metadataHash }) ∧
    ∀ env env' asCore admin st', asCore old = .ok none →
      migrateInvoice env asCore (some old) admin id st = .ok ((), st') →
      ∃ st'', loadInvoice env' id st' =
        .ok ({ old.carried tok with metadataHash := (st.slots id).metadataHash }, st'')

/-- The legacy fields that the upgrade leaves at their defaults have these values. -/
def LegacyInvoice.Plain (old : LegacyInvoice) : Prop :=
  old.taxBps = 0 ∧ old.taxAuthority = none ∧ old.insurancePremiumBps = 0 ∧ old.insuranceFund = 0 ∧
    old.smartRoute = false

/-- The upgrade carries the extensions over when they are the defaults. -/
theorem fromLegacy_carried_iff :
    (∃ tok, Invoice.fromLegacy old = .ok (old.carried tok)) ↔ old.tokens ≠ [] ∧ old.Plain := by
  unfold Invoice.fromLegacy
  cases htokens : old.tokens with
  | nil => simp
  | cons tok tokens =>
      constructor
      · rintro ⟨tok', hinv⟩
        have hext := congrArg (fun i => i.split.2.1) (Except.ok.inj hinv)
        refine ⟨List.cons_ne_nil _ _, ?_, ?_, ?_, ?_, ?_⟩
        · exact (congrArg InvoiceExt.taxBps hext).symm
        · exact (congrArg InvoiceExt.taxAuthority hext).symm
        · exact (congrArg InvoiceExt.insurancePremiumBps hext).symm
        · exact (congrArg InvoiceExt.insuranceFund hext).symm
        · exact (congrArg InvoiceExt.smartRoute hext).symm
      · rintro ⟨-, htax, hauthority, hpremium, hfund, hroute⟩
        refine ⟨tok, ?_⟩
        unfold LegacyInvoice.carried
        rw [htax, hauthority, hpremium, hfund, hroute]
        rfl

theorem preserved_iff (old : LegacyInvoice) (id : ℕ) (st : TierStore) :
    Preserved old id st ↔
      old.tokens ≠ [] ∧ old.Plain ∧ (st.slots id).payments = old.payments := by
  rw [← and_assoc, ← fromLegacy_carried_iff]
  constructor
  · rintro ⟨tok, hinv, hsaved, -⟩
    refine ⟨⟨tok, hinv⟩, ?_⟩
    have hload := hsaved 0
    rw [(shows_save _ _ _).load, filled_save] at hload
    exact congrArg Invoice.payments (Except.ok.inj hload)
  · rintro ⟨⟨tok, hinv⟩, hpayments⟩
    have hfilled : (old.carried tok).filled (st.slots id) =
        { old.carried tok with metadataHash := (st.slots id).metadataHash } := by
      unfold Invoice.filled
      rw [hpayments]
      rfl
    refine ⟨tok, hinv, fun total => ?_, fun env env' asCore admin st' hcore hrun => ?_⟩
    · rw [(shows_save _ _ _).load, filled_save, hfilled]
    · obtain ⟨inv, total, hsame, rfl⟩ := migrateInvoice_ok hcore hrun
      rw [hinv] at hsame
      obtain rfl := Except.ok.inj hsame
      have hshows := shows_save (old.carried tok) total (st.slots id)
      rw [← st.put_self id ((st.slots id).save (old.carried tok) total)] at hshows
      have hload := hshows.loads env'
      rwa [TierStore.put_self, filled_save, hfilled] at hload

theorem sampleDeadline_le : 1000 ≤ u64Max := by decide

theorem sampleFunded_word : InI128 100 := by decide

/-- A legacy invoice of creator 2 over 100 of token 9 with a tax of five percent for 12. -/
def sampleLegacy : LegacyInvoice where
  creator := 2
  coCreators := []
  recipients := [10, 11]
  amounts := [50, 50]
  tokens := [9, 9]
  deadline := ⟨1000, sampleDeadline_le⟩
  funded := ⟨100, sampleFunded_word⟩
  status := .pending
  payments := [{ payer := 20, amount := 100, attestationHash := none, ledger := 12, timestamp := 12 }]
  dripDuration := none
  releaseTimestamp := none
  claimed := []
  frozen := false
  completionTime := none
  allowEarlyWithdrawal := false
  bonusPool := 0
  bonusMaxPayers := 0
  prerequisiteId := none
  tranches := []
  releasedBps := 0
  stakeAmount := 0
  referrer := none
  taxBps := 500
  taxAuthority := some 12
  insurancePremiumBps := 0
  insuranceFund := 0
  smartRoute := false

/-- The upgrade has no tax, and no payment is left after the save. -/
theorem not_preserved_sampleLegacy :
    ¬Preserved sampleLegacy 1 {} ∧
    ∃ inv, Invoice.fromLegacy sampleLegacy = .ok inv ∧ inv.taxBps = 0 ∧ inv.taxAuthority = none ∧
      (({} : Slots).save inv 100).load.map Invoice.payments = .ok [] := by
  refine ⟨?_, _, rfl, rfl, rfl, rfl⟩
  rintro ⟨tok, hinv, -⟩
  have htax : (0 : ℕ) = 500 := congrArg Invoice.taxBps (Except.ok.inj hinv)
  cases htax

end StellarSplit.Split.Schema
