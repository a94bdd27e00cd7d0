import Mathlib.Logic.Function.Basic
import StellarSplit.Lib.Runs
import StellarSplit.Host

/-!
# Skill verification

Recipients claim a skill; a verifier appointed for the skill approves the claim at a level for some
time, or rejects it. An attestation can be revoked. The entry points in the order of their checks, and
for each what it does when it returns.
-/

namespace StellarSplit.SkillVerification

open Exec Function Machine

/-! ## Data -/

inductive Error where
  | alreadyInitialized | notInitialized | notAdmin | notVerifier | claimAlreadyPending | claimNotFound
  | claimNotPending | selfVerification | invalidLevel | invalidValidity | attestationNotFound
  | alreadyRevoked | invalidRecipientList | overflow | unauthorized
deriving DecidableEq, Repr

inductive ClaimStatus where
  | pending | approved | rejected | withdrawn
deriving DecidableEq, Repr

structure SkillClaim where
  id : ℕ
  recipient : Address
  skill : Symbol
  evidenceHash : ℕ
  status : ClaimStatus
  submittedAt : ℕ
  reviewer : Option Address
  reasonHash : Option ℕ
deriving DecidableEq, Repr

structure SkillAttestation where
  recipient : Address
  skill : Symbol
  verifier : Address
  level : ℕ
  evidenceHash : ℕ
  claimId : ℕ
  verifiedAt : ℕ
  expiresAtLedger : ℕ
  revoked : Bool
deriving DecidableEq, Repr

structure Store where
  admin : Option Address := none
  counter : Option ℕ := none
  verifiers : Address × Symbol → Bool := fun _ => false
  claims : ℕ → Option SkillClaim := fun _ => none
  pendingClaims : Address × Symbol → Option ℕ := fun _ => none
  attestations : Address × Symbol → Option SkillAttestation := fun _ => none
  recipientSkills : Address → List Symbol := fun _ => []

abbrev SkillM (α : Type) := Call Store (Fault Error) α

def maxSkillLevel : ℕ := 5

def minValidityLedgers : ℕ := 120960

def maxValidityLedgers : ℕ := 12614400

def maxBatchRecipients : ℕ := 50

/-! ## Internal helpers -/

def getAdmin : SkillM Address := do
  let s ← get
  orError s.admin .notInitialized

def requireAdmin (env : Ledger Unit) (admin : Address) : SkillM Unit := do
  let stored ← getAdmin
  require (stored = admin) (.error .notAdmin)
  requireAuth env admin

def isVerifierFor (s : Store) (verifier : Address) (skill : Symbol) : Bool := s.verifiers (verifier, skill)

def loadClaim (id : ℕ) : SkillM SkillClaim := do
  let s ← get
  orError (s.claims id) .claimNotFound

def loadPendingClaim (verifier : Address) (claimId : ℕ) : SkillM SkillClaim := do
  let claim ← loadClaim claimId
  require (claim.status = .pending) (.error .claimNotPending)
  let s ← get
  require (isVerifierFor s verifier claim.skill = true) (.error .notVerifier)
  require (claim.recipient ≠ verifier) (.error .selfVerification)
  pure claim

def closeClaim (claim : SkillClaim) : SkillM Unit :=
  modify fun s => { s with
    claims := update s.claims claim.id (some claim)
    pendingClaims := update s.pendingClaims (claim.recipient, claim.skill) none }

/-- The attestation, when it is neither revoked nor expired. -/
def validAttestation (env : Ledger Unit) (s : Store) (recipient : Address) (skill : Symbol) :
    Option SkillAttestation := do
  let att ← s.attestations (recipient, skill)
  if att.revoked ∨ att.expiresAtLedger < env.sequence then none else some att

/-! ## Entry points -/

def initializeContract (admin : Address) : SkillM Unit := do
  let s ← get
  require (s.admin.isNone = true) (.error .alreadyInitialized)
  set { s with admin := some admin, counter := some 0 }

def setVerifier (env : Ledger Unit) (admin verifier : Address) (skill : Symbol) (authorized : Bool) :
    SkillM Unit := do
  requireAdmin env admin
  modify fun s => { s with verifiers := update s.verifiers (verifier, skill) authorized }

def submitClaim (env : Ledger Unit) (recipient : Address) (skill : Symbol) (evidenceHash : ℕ) : SkillM ℕ := do
  requireAuth env recipient
  let s ← get
  require ((s.pendingClaims (recipient, skill)).isNone = true) (.error .claimAlreadyPending)
  let id ← orError s.counter .notInitialized
  let next ← orError (checkedAddU64 id 1) .overflow
  let claim : SkillClaim :=
    { id := id, recipient := recipient, skill := skill, evidenceHash := evidenceHash, status := .pending,
      submittedAt := env.now, reviewer := none, reasonHash := none }
  set { s with
    counter := some next
    claims := update s.claims id (some claim)
    pendingClaims := update s.pendingClaims (recipient, skill) (some id) }
  pure id

def withdrawClaim (env : Ledger Unit) (recipient : Address) (claimId : ℕ) : SkillM Unit := do
  requireAuth env recipient
  let claim ← loadClaim claimId
  require (claim.recipient = recipient) (.error .unauthorized)
  require (claim.status = .pending) (.error .claimNotPending)
  closeClaim { claim with status := .withdrawn }

def approveClaim (env : Ledger Unit) (verifier : Address) (claimId level validityLedgers : ℕ) : SkillM Unit := do
  requireAuth env verifier
  require (level ≠ 0 ∧ level ≤ maxSkillLevel) (.error .invalidLevel)
  require (minValidityLedgers ≤ validityLedgers ∧ validityLedgers ≤ maxValidityLedgers) (.error .invalidValidity)
  let claim ← loadPendingClaim verifier claimId
  let expiresAtLedger ← orError (checkedAddU32 env.sequence validityLedgers) .overflow
  let att : SkillAttestation :=
    { recipient := claim.recipient, skill := claim.skill, verifier := verifier, level := level,
      evidenceHash := claim.evidenceHash, claimId := claimId, verifiedAt := env.now,
      expiresAtLedger := expiresAtLedger, revoked := false }
  let s ← get
  onlyIf ((s.attestations (claim.recipient, claim.skill)).isNone = true) do
    modify fun s => { s with
      recipientSkills := update s.recipientSkills claim.recipient
        (s.recipientSkills claim.recipient ++ [claim.skill]) }
  modify fun s => { s with
    attestations := update s.attestations (claim.recipient, claim.skill) (some att) }
  closeClaim { claim with status := .approved, reviewer := some verifier }

def rejectClaim (env : Ledger Unit) (verifier : Address) (claimId reasonHash : ℕ) : SkillM Unit := do
  requireAuth env verifier
  let claim ← loadPendingClaim verifier claimId
  closeClaim { claim with status := .rejected, reviewer := some verifier, reasonHash := some reasonHash }

def revoke (env : Ledger Unit) (caller recipient : Address) (skill : Symbol) : SkillM Unit := do
  requireAuth env caller
  let s ← get
  let att ← orError (s.attestations (recipient, skill)) .attestationNotFound
  onlyIf (caller ≠ att.verifier) do
    let admin ← getAdmin
    require (caller = admin) (.error .notVerifier)
  require (att.revoked = false) (.error .alreadyRevoked)
  modify fun s => { s with
    attestations := update s.attestations (recipient, skill) (some { att with revoked := true }) }

/-! ## Views -/

def isSkillVerified (env : Ledger Unit) (s : Store) (recipient : Address) (skill : Symbol) : Bool :=
  (validAttestation env s recipient skill).isSome

def meetsRequirement (env : Ledger Unit) (s : Store) (recipient : Address) (skill : Symbol) (minLevel : ℕ) : Bool :=
  (validAttestation env s recipient skill).any fun a => minLevel ≤ a.level

def allMeetRequirement (env : Ledger Unit) (s : Store) (recipients : List Address) (skill : Symbol)
    (minLevel : ℕ) : Except Error Bool :=
  if recipients = [] ∨ maxBatchRecipients < recipients.length then .error .invalidRecipientList
  else .ok (recipients.all fun recipient => meetsRequirement env s recipient skill minLevel)

/-! ## What the calls do -/

variable {env : Ledger Unit} {s t : Store} {v : Unit} {id n : ℕ} {claim : SkillClaim}
  {admin verifier recipient caller : Address} {skill : Symbol}

theorem loadClaim_bind {β : Type} {k : SkillClaim → SkillM β} {r : β × Store} :
    (loadClaim id >>= k) s = .ok r ↔ ∃ claim, s.claims id = some claim ∧ k claim s = .ok r := by
  simp only [loadClaim, bind_assoc, get_bind, orError_bind]

theorem loadPendingClaim_bind {β : Type} {k : SkillClaim → SkillM β} {r : β × Store} :
    (loadPendingClaim verifier id >>= k) s = .ok r ↔
      ∃ claim, s.claims id = some claim ∧ claim.status = .pending ∧
        isVerifierFor s verifier claim.skill = true ∧ claim.recipient ≠ verifier ∧ k claim s = .ok r := by
  simp only [loadPendingClaim, bind_assoc, loadClaim_bind, require_bind, get_bind, pure_bind]

theorem setVerifier_ok {authorized : Bool} (hrun : setVerifier env admin verifier skill authorized s = .ok (v, t)) :
    t = { s with verifiers := update s.verifiers (verifier, skill) authorized } := by
  simp only [setVerifier, requireAdmin, getAdmin, bind_assoc, get_bind, orError_bind, require_bind,
    requireAuth_bind, modify_ok] at hrun
  obtain ⟨stored, -, -, -, rfl⟩ := hrun
  rfl

theorem initializeContract_ok (hrun : initializeContract admin s = .ok (v, t)) :
    s.admin = none ∧ t = { s with admin := some admin, counter := some 0 } := by
  simp only [initializeContract, get_bind, require_bind, set_ok, Option.isNone_iff_eq_none] at hrun
  exact ⟨hrun.1, hrun.2.symm⟩

theorem submitClaim_ok {evidenceHash : ℕ} (hrun : submitClaim env recipient skill evidenceHash s = .ok (n, t)) :
    ∃ claim : SkillClaim, s.counter = some claim.id ∧ claim.recipient = recipient ∧ claim.skill = skill ∧
      claim.status = .pending ∧ s.pendingClaims (claim.recipient, claim.skill) = none ∧
      t = { s with
        counter := some (claim.id + 1)
        claims := update s.claims claim.id (some claim)
        pendingClaims := update s.pendingClaims (claim.recipient, claim.skill) (some claim.id) } := by
  simp only [submitClaim, requireAuth_bind, get_bind, require_bind, orError_bind, Option.isNone_iff_eq_none] at hrun
  obtain ⟨-, hnone, id, hid, next, hnext, hrun⟩ := hrun
  obtain ⟨_, u, hset, hrun⟩ := bind_ok.1 hrun
  obtain rfl := set_ok.1 hset
  obtain ⟨-, rfl⟩ := pure_ok.1 hrun
  obtain rfl := checkedAddU64_eq hnext
  exact ⟨⟨id, recipient, skill, evidenceHash, .pending, env.now, none, none⟩, hid, rfl, rfl, rfl, hnone, rfl⟩

theorem withdrawClaim_ok (hrun : withdrawClaim env recipient id s = .ok (v, t)) :
    ∃ claim, s.claims id = some claim ∧ claim.status = .pending ∧
      closeClaim { claim with status := .withdrawn } s = .ok ((), t) := by
  simp only [withdrawClaim, requireAuth_bind, loadClaim_bind, require_bind] at hrun
  obtain ⟨-, claim, hclaim, -, hpending, hrun⟩ := hrun
  exact ⟨claim, hclaim, hpending, hrun⟩

theorem rejectClaim_ok {reasonHash : ℕ} (hrun : rejectClaim env verifier id reasonHash s = .ok (v, t)) :
    ∃ claim, s.claims id = some claim ∧ claim.status = .pending ∧
      closeClaim { claim with status := .rejected, reviewer := some verifier, reasonHash := some reasonHash } s =
        .ok ((), t) := by
  simp only [rejectClaim, requireAuth_bind, loadPendingClaim_bind] at hrun
  obtain ⟨-, claim, hclaim, hpending, -, -, hrun⟩ := hrun
  exact ⟨claim, hclaim, hpending, hrun⟩

/-- The list of the recipient's skills gets the skill when it has not been attested before. -/
def Store.listSkill (s : Store) (recipient : Address) (skill : Symbol) : Store :=
  if s.attestations (recipient, skill) = none then
    { s with recipientSkills := update s.recipientSkills recipient (s.recipientSkills recipient ++ [skill]) }
  else s

theorem approveClaim_ok {level validityLedgers : ℕ}
    (hrun : approveClaim env verifier id level validityLedgers s = .ok (v, t)) :
    1 ≤ level ∧ level ≤ 5 ∧ ∃ claim, s.claims id = some claim ∧ claim.status = .pending ∧
      s.verifiers (verifier, claim.skill) = true ∧ claim.recipient ≠ verifier ∧
      ∃ att : SkillAttestation, att.verifier = verifier ∧ att.level = level ∧
        att.expiresAtLedger = env.sequence + validityLedgers ∧ att.revoked = false ∧
        closeClaim { claim with status := .approved, reviewer := some verifier }
          ({ s.listSkill claim.recipient claim.skill with
            attestations := update s.attestations (claim.recipient, claim.skill) (some att) } : Store) =
          .ok ((), t) := by
  simp only [approveClaim, requireAuth_bind, require_bind, loadPendingClaim_bind, orError_bind, get_bind] at hrun
  obtain ⟨-, ⟨hzero, hfive⟩, -, claim, hclaim, hpending, hverifier, hself, expires, hexpires, hrun⟩ := hrun
  obtain ⟨_, u, hlist, hrun⟩ := bind_ok.1 hrun
  obtain ⟨_, w, hatt, hrun⟩ := bind_ok.1 hrun
  obtain rfl := modify_ok.1 hatt
  have hu : u = s.listSkill claim.recipient claim.skill := by
    unfold Store.listSkill
    rcases onlyIf_ok.1 hlist with ⟨hnone, hpush⟩ | ⟨hsome, rfl⟩
    · rw [if_pos (Option.isNone_iff_eq_none.1 hnone)]
      exact (modify_ok.1 hpush).symm
    · rw [if_neg fun hnone => hsome (Option.isNone_iff_eq_none.2 hnone)]
  have hattestations : u.attestations = s.attestations := by
    rw [hu, Store.listSkill]
    split_ifs <;> rfl
  rw [hattestations, hu] at hrun
  exact ⟨Nat.one_le_iff_ne_zero.2 hzero, hfive, claim, hclaim, hpending, hverifier, hself, _, rfl, rfl,
    checkedAddU32_eq hexpires, rfl, hrun⟩

theorem revoke_ok (hrun : revoke env caller recipient skill s = .ok (v, t)) :
    ∃ att, s.attestations (recipient, skill) = some att ∧
      t = { s with
        attestations := update s.attestations (recipient, skill) (some { att with revoked := true }) } := by
  simp only [revoke, requireAuth_bind, get_bind, orError_bind] at hrun
  obtain ⟨-, att, hatt, hrun⟩ := hrun
  obtain ⟨_, u, hallowed, hrun⟩ := bind_ok.1 hrun
  have hu : s = u := by
    rcases onlyIf_ok.1 hallowed with ⟨-, hadmin⟩ | ⟨-, hsame⟩
    · simp only [getAdmin, bind_assoc, get_bind, orError_bind, require_ok] at hadmin
      obtain ⟨admin, -, -, hsame⟩ := hadmin
      exact hsame
    · exact hsame
  subst hu
  rw [require_bind, modify_ok] at hrun
  exact ⟨att, hatt, hrun.2.symm⟩

theorem validAttestation_eq_some {att : SkillAttestation} :
    validAttestation env s recipient skill = some att ↔
      s.attestations (recipient, skill) = some att ∧ att.revoked = false ∧ env.sequence ≤ att.expiresAtLedger := by
  unfold validAttestation
  simp only [bind, Option.bind_eq_some_iff]
  constructor
  · rintro ⟨att', hatt, hvalid⟩
    split_ifs at hvalid with hbad
    obtain rfl := Option.some.inj hvalid
    rw [not_or, not_lt, Bool.not_eq_true] at hbad
    exact ⟨hatt, hbad⟩
  · rintro ⟨hatt, hrevoked, hin⟩
    refine ⟨att, hatt, if_neg ?_⟩
    rw [not_or, not_lt, Bool.not_eq_true]
    exact ⟨hrevoked, hin⟩

end StellarSplit.SkillVerification
