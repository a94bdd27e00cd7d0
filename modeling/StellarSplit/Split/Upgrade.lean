import StellarSplit.Lib.Runs
import StellarSplit.Lib.Trim
import StellarSplit.Split.Lock

/-!
# Upgrades of the contract

What is written down when the code of the contract is replaced: the version before,
the hash to roll back to, and a log of the last upgrades. The hash that is kept for a
rollback is the one of the new code, so it leads back to the code before only where an
upgrade installs the code that is already there.
-/

namespace StellarSplit.Split.Upgrade

open Exec Trim

/-! ## The contract -/

structure ContractVersion where
  major : ℕ := 0
  minor : ℕ := 0
  patch : ℕ := 0
deriving DecidableEq, Repr

/-- `is_upgrade_of`: the other version is strictly greater. -/
def ContractVersion.IsUpgradeOf (self other : ContractVersion) : Prop :=
  self.major < other.major ∨ self.major = other.major ∧
    (self.minor < other.minor ∨ self.minor = other.minor ∧ self.patch < other.patch)

instance (v w : ContractVersion) : Decidable (v.IsUpgradeOf w) := inferInstanceAs (Decidable (_ ∨ _))

structure UpgradeManifest where
  newWasmHash : Hash
  newVersion : ContractVersion
  breakingChanges : String
  newFeatures : String
  requiresMigration : Bool
  proposedByNote : String
  proposedAtLedger : ℕ
  proposedAtTs : ℕ
deriving DecidableEq

structure UpgradeHistoryEntry where
  fromVersion : ContractVersion
  toVersion : ContractVersion
  wasmHash : Hash
  executedAtLedger : ℕ
  executedAtTs : ℕ
  isRollback : Bool
deriving DecidableEq

structure UpgradeStore where
  version : Option ContractVersion := none
  prevWasm : Option Hash := none
  prevVersion : Option ContractVersion := none
  manifest : Option UpgradeManifest := none
  history : List UpgradeHistoryEntry := []
  rollbackCount : Option ℕ := none

abbrev UpgradeM (α : Type) := Call UpgradeStore SplitFault α

def maxUpgradeHistory : ℕ := 20

namespace UpgradeStore

def getVersion (s : UpgradeStore) : ContractVersion := s.version.getD {}

def getPreviousVersion (s : UpgradeStore) : Option ContractVersion := s.prevVersion

def getPreviousWasmHash (s : UpgradeStore) : Option Hash := s.prevWasm

end UpgradeStore

def proposeManifest (manifest : UpgradeManifest) : UpgradeM Unit := do
  let s ← get
  require (s.getVersion.IsUpgradeOf manifest.newVersion)
    (.panic "new version must be strictly greater than current version")
  set { s with manifest := some manifest }

def recordUpgrade (env : Env) (newWasmHash : Hash) (isRollback : Bool) : UpgradeM Unit := do
  let s ← get
  let oldVersion := s.getVersion
  let newVersion := (s.manifest.map (·.newVersion)).getD oldVersion
  modify fun s => { s with prevVersion := some oldVersion, prevWasm := some newWasmHash }
  modify fun s => { s with version := some newVersion, manifest := none }
  modify fun s => { s with
    history := popFront maxUpgradeHistory (s.history ++
      [{ fromVersion := oldVersion, toVersion := newVersion, wasmHash := newWasmHash,
         executedAtLedger := env.sequence, executedAtTs := env.now, isRollback := isRollback }]) }
  onlyIf (isRollback = true) do
    modify fun s => { s with
      rollbackCount := some (Machine.satAddU32 (s.rollbackCount.getD 0) 1) }

/-! ## Runs -/

inductive UpgradeCall where
  | propose (manifest : UpgradeManifest)
  | record (newWasmHash : Hash) (isRollback : Bool)
deriving DecidableEq

def upgradeStep (c : Env × UpgradeCall) : UpgradeM Unit :=
  match c.2 with
  | .propose manifest => proposeManifest manifest
  | .record newWasmHash isRollback => recordUpgrade c.1 newWasmHash isRollback

/-- The code that runs after a call: an upgrade is recorded once its code is in place. -/
def UpgradeCall.installs (call : UpgradeCall) (active : Hash) : Hash :=
  match call with
  | .propose _ => active
  | .record newWasmHash _ => newWasmHash

/-- The storage and the hash of the code that runs, after calls on a contract that was deployed with
this version and this code. -/
def after (version : Option ContractVersion) (active : Hash) (calls : List (Env × UpgradeCall)) :
    UpgradeStore × Hash :=
  runAll (fun c => beside (fun active _ _ => c.2.installs active) (upgradeStep c))
    ({ version := version }, active) calls

/-! ## The law -/

/-- After every upgrade the version and the code before it are on record. -/
structure Previous (s t : UpgradeStore × Hash) : Prop where
  version : t.1.getPreviousVersion = some s.1.getVersion
  wasmHash : t.1.getPreviousWasmHash = some s.2

/-- The rollback data, the history and the versions of a run. -/
structure UpgradeLaw (version : Option ContractVersion) (active : Hash) (calls : List (Env × UpgradeCall)) :
    Prop where
  previous : ∀ xs env hash isRollback, xs ++ [(env, .record hash isRollback)] <+: calls →
    Previous (after version active xs) (after version active (xs ++ [(env, .record hash isRollback)]))
  linked : (after version active calls).1.history.IsChain fun e e' => e'.fromVersion = e.toVersion
  bounded : (after version active calls).1.history.length ≤ maxUpgradeHistory
  increases : ∀ xs env hash, xs ++ [(env, .record hash false)] <+: calls →
    (after version active xs).1.manifest.isSome = true →
      (after version active xs).1.getVersion.IsUpgradeOf
        (after version active (xs ++ [(env, .record hash false)])).1.getVersion

/-- Every upgrade of the run records this code. -/
def AlwaysRecords (active : Hash) (calls : List (Env × UpgradeCall)) : Prop :=
  ∀ c ∈ calls, ∀ hash isRollback, c.2 = .record hash isRollback → hash = active

/-! ## What the calls do -/

variable {env : Env} {s t : UpgradeStore} {v : Unit} {manifest : UpgradeManifest} {hash active : Hash}
  {isRollback : Bool} {version : Option ContractVersion} {xs calls : List (Env × UpgradeCall)}

/-- The version that an upgrade leads to: the one of the manifest, if there is one. -/
def UpgradeStore.nextVersion (s : UpgradeStore) : ContractVersion :=
  (s.manifest.map (·.newVersion)).getD s.getVersion

theorem proposeManifest_ok (hrun : proposeManifest manifest s = .ok (v, t)) :
    s.getVersion.IsUpgradeOf manifest.newVersion ∧ t = { s with manifest := some manifest } := by
  rw [proposeManifest, get_bind, require_bind, set_ok] at hrun
  exact ⟨hrun.1, hrun.2.symm⟩

theorem recordUpgrade_run (env : Env) (hash : Hash) (isRollback : Bool) (s : UpgradeStore) :
    ∃ e count, e.fromVersion = s.getVersion ∧ e.toVersion = s.nextVersion ∧
      recordUpgrade env hash isRollback s = .ok ((),
        { version := some s.nextVersion, prevWasm := some hash, prevVersion := some s.getVersion,
          manifest := none, history := popFront maxUpgradeHistory (s.history ++ [e]),
          rollbackCount := count }) := by
  cases isRollback with
  | true => exact ⟨_, some _, rfl, rfl, rfl⟩
  | false => exact ⟨_, s.rollbackCount, rfl, rfl, rfl⟩

/-! ## Versions and history -/

/-- The manifest leads upwards, and the history ends with the version in force. -/
structure Recorded (s : UpgradeStore) : Prop where
  manifest : ∀ m ∈ s.manifest, s.getVersion.IsUpgradeOf m.newVersion
  linked : s.history.IsChain fun e e' => e'.fromVersion = e.toVersion
  last : ∀ e ∈ s.history.getLast?, e.toVersion = s.getVersion
  bounded : s.history.length ≤ maxUpgradeHistory

theorem Recorded.propose (h : Recorded s) (hless : s.getVersion.IsUpgradeOf manifest.newVersion) :
    Recorded { s with manifest := some manifest } := by
  refine ⟨?_, h.linked, h.last, h.bounded⟩
  rintro _ ⟨⟩
  exact hless

theorem Recorded.record (h : Recorded s) {e : UpgradeHistoryEntry} {count : Option ℕ} (hash : Hash)
    (hfrom : e.fromVersion = s.getVersion) (hto : e.toVersion = s.nextVersion) :
    Recorded
      { version := some s.nextVersion, prevWasm := some hash, prevVersion := some s.getVersion,
        manifest := none, history := popFront maxUpgradeHistory (s.history ++ [e]),
        rollbackCount := count } := by
  refine ⟨nofun, isChain_popFront ?_, ?_, length_popFront _ _⟩
  · refine h.linked.append (List.isChain_singleton e) fun d hd e' he' => ?_
    obtain rfl : e = e' := by simpa using he'
    rw [hfrom, h.last d hd]
  · intro d hd
    rw [getLast?_popFront (by decide), List.getLast?_append, List.getLast?_singleton] at hd
    obtain rfl : e = d := by simpa using hd
    exact hto

theorem run_recorded (version : Option ContractVersion) (active : Hash) (calls : List (Env × UpgradeCall)) :
    Recorded (after version active calls).1 := by
  have hstart : Recorded ({ version := version } : UpgradeStore) :=
    ⟨nofun, List.isChain_nil, nofun, Nat.zero_le _⟩
  refine runAll_invariant (I := fun p : UpgradeStore × Hash => Recorded p.1) ?_ hstart calls
  rintro ⟨s, active⟩ ⟨env, call⟩ a ⟨t, next⟩ hs hrun
  obtain ⟨hcall, rfl⟩ := beside_ok.1 hrun
  cases call with
  | propose manifest =>
      obtain ⟨hless, rfl⟩ := proposeManifest_ok hcall
      exact hs.propose hless
  | record hash isRollback =>
      obtain ⟨e, count, hfrom, hto, hrecord⟩ := recordUpgrade_run env hash isRollback s
      have hboth := hrecord.symm.trans hcall
      cases hboth
      exact hs.record hash hfrom hto

theorem after_snoc (version : Option ContractVersion) (active : Hash) (xs : List (Env × UpgradeCall))
    (c : Env × UpgradeCall) : after version active (xs ++ [c]) =
      commit (beside (fun active _ _ => c.2.installs active) (upgradeStep c)) (after version active xs) :=
  runAll_snoc _ _ xs c

/-- What an upgrade records. -/
theorem after_record (version : Option ContractVersion) (active : Hash) (xs : List (Env × UpgradeCall))
    (env : Env) (hash : Hash) (isRollback : Bool) :
    (after version active (xs ++ [(env, .record hash isRollback)])).2 = hash ∧
      (after version active (xs ++ [(env, .record hash isRollback)])).1.getPreviousVersion =
        some (after version active xs).1.getVersion ∧
      (after version active (xs ++ [(env, .record hash isRollback)])).1.getPreviousWasmHash = some hash ∧
      (after version active (xs ++ [(env, .record hash isRollback)])).1.getVersion =
        (after version active xs).1.nextVersion := by
  rcases hs : after version active xs with ⟨s, active'⟩
  obtain ⟨e, count, -, -, hrecord⟩ := recordUpgrade_run env hash isRollback s
  have hcall : upgradeStep (env, .record hash isRollback) s = .ok ((), _) := hrecord
  rw [after_snoc, hs, commit_beside_ok hcall]
  exact ⟨rfl, rfl, rfl, rfl⟩

/-- A proposal installs no code. -/
theorem after_propose (version : Option ContractVersion) (active : Hash) (xs : List (Env × UpgradeCall))
    (env : Env) (manifest : UpgradeManifest) :
    (after version active (xs ++ [(env, .propose manifest)])).2 = (after version active xs).2 := by
  rcases hs : after version active xs with ⟨s, active'⟩
  rw [after_snoc, hs]
  rcases hcall : upgradeStep (env, .propose manifest) s with e | ⟨a, t⟩
  · rw [commit_beside_error hcall]
  · rw [commit_beside_ok hcall]
    rfl

/-- Where every upgrade records the code that is there, this code stays. -/
theorem active_of_alwaysRecords (h : AlwaysRecords active xs) : (after version active xs).2 = active := by
  induction xs using List.reverseRecOn with
  | nil => rfl
  | append_singleton xs c ih =>
      have hbefore : AlwaysRecords active xs := fun d hd => h d (List.mem_append_left _ hd)
      obtain ⟨env, call⟩ := c
      cases call with
      | propose manifest => rw [after_propose, ih hbefore]
      | record hash isRollback =>
          rw [(after_record version active xs env hash isRollback).1]
          exact h (env, .record hash isRollback) (by simp) hash isRollback rfl

/-- The rollback data is right in exactly the runs whose upgrades all record the code of the start. -/
theorem upgrade_law_iff (version : Option ContractVersion) (active : Hash) (calls : List (Env × UpgradeCall)) :
    UpgradeLaw version active calls ↔ AlwaysRecords active calls := by
  constructor
  · intro h
    have hall : ∀ xs, xs <+: calls → AlwaysRecords active xs := by
      intro xs
      induction xs using List.reverseRecOn with
      | nil => simp [AlwaysRecords]
      | append_singleton xs c ih =>
          intro hxs d hd hash isRollback hcall
          have hbefore := ih ((List.prefix_append _ _).trans hxs)
          rcases List.mem_append.1 hd with hd | hd
          · exact hbefore d hd hash isRollback hcall
          · obtain rfl := List.mem_singleton.1 hd
            obtain ⟨env, call⟩ := d
            obtain rfl : call = .record hash isRollback := hcall
            have hprevious := (h.previous xs env hash isRollback hxs).wasmHash
            rw [(after_record version active xs env hash isRollback).2.2.1,
              active_of_alwaysRecords hbefore] at hprevious
            exact Option.some.inj hprevious
    exact hall calls (List.prefix_refl _)
  · intro h
    have hrecorded := run_recorded version active calls
    refine ⟨fun xs env hash isRollback hxs => ?_, hrecorded.linked, hrecorded.bounded,
      fun xs env hash hxs hmanifest => ?_⟩
    · obtain ⟨-, hversion, hwasm, -⟩ := after_record version active xs env hash isRollback
      refine ⟨hversion, ?_⟩
      have hbefore : AlwaysRecords active xs := fun d hd => h d (hxs.subset (List.mem_append_left _ hd))
      have hsame : hash = active :=
        h (env, .record hash isRollback) (hxs.subset (by simp)) hash isRollback rfl
      rw [hwasm, active_of_alwaysRecords hbefore, hsame]
    · obtain ⟨-, -, -, hversion⟩ := after_record version active xs env hash false
      obtain ⟨m, hm⟩ := Option.isSome_iff_exists.1 hmanifest
      rw [hversion, UpgradeStore.nextVersion, hm]
      exact (run_recorded version active xs).manifest m hm

/-- Version 1.1.0 with code 2 is proposed and installed over version 1.0.0 with code 1. -/
def upgradedOnce : List (Env × UpgradeCall) :=
  [(sampleEnv 10 0, .propose
    { newWasmHash := 2, newVersion := { major := 1, minor := 1 }, breakingChanges := "", newFeatures := "",
      requiresMigration := false, proposedByNote := "", proposedAtLedger := 0, proposedAtTs := 10 }),
   (sampleEnv 20 1, .record 2 false)]

theorem upgrade_law_fails : ¬UpgradeLaw (some { major := 1 }) 1 upgradedOnce := by
  intro h
  have hwasm := (h.previous (upgradedOnce.take 1) (sampleEnv 20 1) 2 false
    (List.prefix_refl upgradedOnce)).wasmHash
  revert hwasm
  decide +kernel

end StellarSplit.Split.Upgrade
