import Mathlib.Data.List.Nodup
import StellarSplit.Host
import StellarSplit.Lib.Bytes

/-!
# The factory of contracts

The factory deploys a contract for a creator under a salt of the creator's choice. The address follows
from both. The host refuses an address that has a contract, and the factory a salt that the creator has
used, so no two deployments share an address.
-/

namespace StellarSplit.Factory

open Exec Function Machine

/-! ## The code -/

def maxDeploymentsPerCreator : ℕ := 10000

/-- The storage of the factory, and which addresses have a contract. -/
structure FactoryStore where
  factoryAdmin : Option Address := none
  deployedContracts : Address → Option (List Address) := fun _ => none
  salt : Address → Bytes32 → Option Address := fun _ _ => none
  taken : Address → Bool := fun _ => false

/-- What the host computes: digests, the bytes of an address, and the address of a contract of the factory under a salt. -/
structure Deployer where
  sha256 : List UInt8 → Bytes32
  xdr : Address → List UInt8
  xdr_injective : Injective xdr
  deployedAddress : Bytes32 → Address

/-- Who signs, which code is uploaded, and which calls of `initialize` return. -/
structure FactoryEnv extends Ledger Unit where
  uploaded : Bytes32 → Bool
  initializes : Address → List ℕ → Bool

abbrev FactoryM (α : Type) := Call FactoryStore (Fault Empty) α

def initializeContract (admin : Address) : FactoryM Unit := do
  let s ← get
  require (s.factoryAdmin = none) (.panic "already initialized")
  set { s with factoryAdmin := some admin }

def getDeployments (s : FactoryStore) (creator : Address) : List Address := (s.deployedContracts creator).getD []

def isSaltUsed (s : FactoryStore) (creator : Address) (salt : Bytes32) : Bool := (s.salt creator salt).isSome

/-- The bytes whose digest is the salt of a deployment. -/
def saltInput (host : Deployer) (creator : Address) (salt : Bytes32) : List UInt8 := host.xdr creator ++ salt.1

def addressOf (host : Deployer) (creator : Address) (salt : Bytes32) : Address :=
  host.deployedAddress (host.sha256 (saltInput host creator salt))

def deployInvoiceContract (host : Deployer) (env : FactoryEnv) (creator : Address) (wasmHash salt : Bytes32) (initArgs : List ℕ) :
    FactoryM Address := do
  requireAuth env.toLedger creator
  let s ← get
  require (s.salt creator salt = none) (.panic "duplicate salt for creator")
  let deployments := getDeployments s creator
  require (deployments.length < maxDeploymentsPerCreator) (.panic "deployment limit exceeded")
  let deployedAddress := addressOf host creator salt
  -- The host deploys uploaded code only, and not over a contract.
  require (env.uploaded wasmHash = true ∧ s.taken deployedAddress = false) (.callFailed deployedAddress)
  require (initArgs ≠ [] → env.initializes deployedAddress initArgs = true) (.callFailed deployedAddress)
  set { s with
    taken := update s.taken deployedAddress true
    deployedContracts := update s.deployedContracts creator (some (deployments ++ [deployedAddress]))
    salt := update s.salt creator (update (s.salt creator) salt (some deployedAddress)) }
  pure deployedAddress

/-! ## Runs -/

structure Deployment where
  creator : Address
  salt : Bytes32
  address : Address
deriving DecidableEq

/-- Deployments that returned, one after another. Between them the admin is set and other contracts appear. -/
inductive Ran (host : Deployer) (s : FactoryStore) : List Deployment → FactoryStore → Prop
  | nil : Ran host s [] s
  | admin {calls t u a} (h : Ran host s calls t)
      (hrun : initializeContract a t = .ok ((), u)) : Ran host s calls u
  | other {calls t} (h : Ran host s calls t) (taken : Address → Bool)
      (hkept : ∀ a, t.taken a = true → taken a = true) : Ran host s calls { t with taken := taken }
  | snoc {calls t u env d wasmHash initArgs} (h : Ran host s calls t)
      (hrun : deployInvoiceContract host env d.creator wasmHash d.salt initArgs t = .ok (d.address, u)) :
      Ran host s (calls ++ [d]) u

variable {host : Deployer} {env : FactoryEnv} {s t u : FactoryStore} {calls : List Deployment} {d : Deployment}
  {wasmHash : Bytes32} {initArgs : List ℕ}

theorem deploy_ok (h : deployInvoiceContract host env d.creator wasmHash d.salt initArgs s = .ok (d.address, t)) :
    s.salt d.creator d.salt = none ∧ (getDeployments s d.creator).length < maxDeploymentsPerCreator ∧
      s.taken d.address = false ∧ d.address = addressOf host d.creator d.salt ∧
      t = { s with
        taken := update s.taken d.address true
        deployedContracts := update s.deployedContracts d.creator (some (getDeployments s d.creator ++ [d.address]))
        salt := update s.salt d.creator (update (s.salt d.creator) d.salt (some d.address)) } := by
  simp only [deployInvoiceContract, requireAuth_bind, get_bind, require_bind] at h
  obtain ⟨-, hfresh, hroom, ⟨-, hfree⟩, -, h⟩ := h
  obtain ⟨_, _, hset, h⟩ := bind_ok.1 h
  obtain rfl := set_ok.1 hset
  obtain ⟨haddress, rfl⟩ := pure_ok.1 h
  rw [haddress] at hfree
  refine ⟨hfresh, hroom, hfree, haddress.symm, ?_⟩
  rw [haddress]

/-- The storage is that of the deployments. -/
structure Listed (host : Deployer) (calls : List Deployment) (s : FactoryStore) : Prop where
  deployments : ∀ creator, getDeployments s creator = (calls.filter fun d => d.creator = creator).map Deployment.address
  few : ∀ creator, (getDeployments s creator).length ≤ maxDeploymentsPerCreator
  salts : ∀ d, s.salt d.creator d.salt = some d.address ↔ d ∈ calls
  address : ∀ d ∈ calls, d.address = addressOf host d.creator d.salt
  unique : (calls.map Deployment.address).Nodup
  taken : ∀ d ∈ calls, s.taken d.address = true

theorem Listed.deploy (hs : Listed host calls s)
    (h : deployInvoiceContract host env d.creator wasmHash d.salt initArgs s = .ok (d.address, t)) :
    Listed host (calls ++ [d]) t := by
  obtain ⟨hfresh, hroom, hfree, haddress, rfl⟩ := deploy_ok h
  have hlist : ∀ creator, (update s.deployedContracts d.creator (some (getDeployments s d.creator ++ [d.address])) creator).getD [] =
      getDeployments s creator ++ if d.creator = creator then [d.address] else [] := by
    intro creator
    by_cases hcreator : d.creator = creator
    · subst hcreator
      rw [update_self, if_pos rfl]
      rfl
    · rw [update_of_ne (Ne.symm hcreator), if_neg hcreator, List.append_nil]
      rfl
  constructor
  case deployments =>
    intro creator
    rw [getDeployments, hlist, hs.deployments, List.filter_append, List.map_append]
    by_cases hcreator : d.creator = creator <;> simp [hcreator]
  case few =>
    intro creator
    rw [getDeployments, hlist]
    by_cases hcreator : d.creator = creator
    · subst hcreator
      rw [if_pos rfl, List.length_append]
      exact hroom
    · rw [if_neg hcreator, List.append_nil]
      exact hs.few creator
  case salts =>
    intro e
    rw [List.mem_append, List.mem_singleton, ← hs.salts]
    dsimp only
    by_cases hcreator : e.creator = d.creator
    · rw [hcreator, update_self]
      by_cases hsalt : e.salt = d.salt
      · rw [hsalt, update_self, hfresh]
        constructor
        · intro hsame
          cases d
          cases e
          simp_all
        · rintro (hnone | rfl)
          · cases hnone
          · rfl
      · rw [update_of_ne hsalt, or_iff_left fun heq => hsalt (congrArg Deployment.salt heq)]
    · rw [update_of_ne hcreator, or_iff_left fun heq => hcreator (congrArg Deployment.creator heq)]
  case address =>
    intro e he
    rcases List.mem_append.1 he with he | he
    · exact hs.address e he
    · rw [List.mem_singleton.1 he]
      exact haddress
  case unique =>
    rw [List.map_append, List.nodup_append]
    refine ⟨hs.unique, List.nodup_singleton _, fun a ha b hb hsame => ?_⟩
    obtain ⟨e, he, rfl⟩ := List.mem_map.1 ha
    have htaken := hs.taken e he
    rw [hsame, List.mem_singleton.1 hb, hfree] at htaken
    cases htaken
  case taken =>
    intro e he
    dsimp only
    by_cases hsame : e.address = d.address
    · rw [hsame, update_self]
    · rw [update_of_ne hsame]
      rcases List.mem_append.1 he with he | he
      · exact hs.taken e he
      · exact absurd (congrArg Deployment.address (List.mem_singleton.1 he)) hsame

theorem Ran.listed (h : Ran host {} calls t) : Listed host calls t := by
  induction h with
  | nil =>
      constructor
      case deployments => exact fun _ => rfl
      case few => exact fun _ => Nat.zero_le _
      case salts => exact fun d => iff_of_false (fun h => by cases h) List.not_mem_nil
      case address => exact fun d hd => by cases hd
      case unique => exact List.nodup_nil
      case taken => exact fun d hd => by cases hd
  | admin _ hrun ih =>
      rw [initializeContract, get_bind, require_bind] at hrun
      obtain ⟨-, hset⟩ := hrun
      obtain rfl := set_ok.1 hset
      exact ⟨ih.deployments, ih.few, ih.salts, ih.address, ih.unique, ih.taken⟩
  | other _ taken hkept ih => exact ⟨ih.deployments, ih.few, ih.salts, ih.address, ih.unique, fun d hd => hkept _ (ih.taken d hd)⟩
  | snoc _ hrun ih => exact ih.deploy hrun

theorem saltInput_injective {creator creator' : Address} {salt salt' : Bytes32}
    (h : saltInput host creator salt = saltInput host creator' salt') : creator = creator' ∧ salt = salt' := by
  obtain ⟨hcreator, hsalt⟩ := List.append_inj' h (by rw [salt.2, salt'.2])
  exact ⟨host.xdr_injective hcreator, Subtype.ext hsalt⟩

/-- In every run the list of a creator has the contracts that the creator deployed, in their order, and the salts that are
used are those of the deployments. No address is deployed to twice, by whomever, and each is the address that its creator
and salt give. No deployment used up what is digested for a salt that its creator has not used yet. -/
theorem factory_law (h : Ran host {} calls t) :
    Listed host calls t ∧ ∀ creator salt, isSaltUsed t creator salt = false →
      ∀ d ∈ calls, saltInput host d.creator d.salt ≠ saltInput host creator salt := by
  have hlisted := h.listed
  refine ⟨hlisted, fun creator salt hfree d hd hsame => ?_⟩
  obtain ⟨rfl, rfl⟩ := saltInput_injective hsame
  rw [isSaltUsed, (hlisted.salts d).2 hd] at hfree
  cases hfree

def sampleDeployer : Deployer where
  sha256 := fun bytes => ⟨bytesBE 32 (ofBytesBE bytes), length_bytesBE _ _⟩
  xdr := fun a => List.replicate a 1
  xdr_injective := fun a b h => by simpa using congrArg List.length h
  deployedAddress := fun digest => 1000 + ofBytesBE digest.1

def sampleFactoryEnv : FactoryEnv where
  now := 10
  sequence := 10
  auth := fun _ => true
  accepts := fun _ _ => true
  uploaded := fun _ => true
  initializes := fun _ _ => true

def sampleSalt : Bytes32 := ⟨bytesBE 32 7, length_bytesBE _ _⟩

/-- The store after creator 2 deployed a contract. -/
def sampleDeployed : FactoryStore :=
  commit (deployInvoiceContract sampleDeployer sampleFactoryEnv 2 sampleSalt sampleSalt [5]) {}

theorem sample_deploy : Ran sampleDeployer {} [⟨2, sampleSalt, 1007⟩] sampleDeployed := by
  have hrun := ok_commit (x := deployInvoiceContract sampleDeployer sampleFactoryEnv 2 sampleSalt sampleSalt [5])
    (s := {}) (a := 1007) (by decide +kernel)
  exact Ran.nil.snoc hrun

theorem factory_sample : getDeployments sampleDeployed 2 = [1007] := (factory_law sample_deploy).1.deployments 2

end StellarSplit.Factory
