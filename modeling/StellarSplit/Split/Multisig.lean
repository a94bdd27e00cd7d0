import Mathlib.Data.Finset.Card
import StellarSplit.Lib.Registry
import StellarSplit.Split.Lock

/-!
# Admin actions with several signers

The administrator sets who may sign, and how many signatures an action takes.
A proposal carries the signature of its proposer; the approval that reaches the
threshold carries the action out. The approvals of a proposal stay when the
signers are replaced, no action is carried out when it is proposed, and the
pause flag that an action writes lies behind the one of `pause` and `unpause`.
-/

namespace StellarSplit.Split.Multisig

open Exec Function Registry

/-! ## The contract -/

structure AdminSet where
  signers : List Address
  threshold : ℕ
deriving DecidableEq, Repr

inductive AdminAction where
  | pauseContract
  | unpauseContract
  | setPlatformFeeBps (bps : ℕ)
  | setTreasury (treasury : Address)
  | replaceAdminSet (set : AdminSet)
deriving DecidableEq, Repr

structure PendingAdminAction where
  action : AdminAction
  proposedAt : ℕ
  approvals : List Address
  executed : Bool
deriving DecidableEq, Repr

inductive AdminRole where
  | superAdmin | operator
deriving DecidableEq, Repr

/-- The storage entries of the administration. The pause flag is in the instance tier, and for
contracts from before in the persistent one. -/
structure AdminStore where
  adminSet : Option AdminSet := none
  pending : Hash → Option PendingAdminAction := fun _ => none
  paused : Option Bool := none
  pausedPersistent : Option Bool := none
  platformFeeBps : Option ℕ := none
  treasury : Option Address := none

/-- The roles of the administrators and the hash of an action are read beside the environment. -/
structure AdminEnv extends Env where
  admins : Option (Address → Option AdminRole) := none
  actionHash : AdminAction → Hash

abbrev AdminM (α : Type) := Call AdminStore SplitFault α

def isPaused (s : AdminStore) : Bool := s.paused.getD (s.pausedPersistent.getD false)

def setAdminSet (env : AdminEnv) (_admin : Address) (signers : List Address) (threshold : ℕ) :
    AdminM Unit := do
  let _ ← requireAdmin env.toEnv
  require (signers ≠ []) (.panic "signers must not be empty")
  require (0 < threshold ∧ threshold ≤ signers.length)
    (.panic "threshold must be between 1 and signers.len()")
  modify fun s => { s with adminSet := some ⟨signers, threshold⟩ }

def AdminStore.setPending (s : AdminStore) (hash : Hash) (pending : PendingAdminAction) : AdminStore :=
  { s with pending := update s.pending hash (some pending) }

def proposeAdminAction (env : AdminEnv) (proposer : Address) (action : AdminAction) : AdminM Hash := do
  requireAuth env.toLedger proposer
  let s ← get
  let adminSet ← orPanic s.adminSet "AdminSet not configured; call set_admin_set first"
  require (proposer ∈ adminSet.signers)
    (.panic "NotAuthorized: proposer is not a registered admin signer")
  require ((s.pending (env.actionHash action)).isNone = true)
    (.panic "proposal already exists for this action")
  set (s.setPending (env.actionHash action)
    { action := action, proposedAt := env.now, approvals := [proposer], executed := false })
  pure (env.actionHash action)

def maxPlatformFeeBps : ℕ := 1000

/-- What is asked of an action when it is carried out. -/
def checkAction : AdminAction → AdminM Unit
  | .setPlatformFeeBps bps => require (bps ≤ maxPlatformFeeBps) (.error .feeSumExceedsCap)
  | .replaceAdminSet adminSet => do
      require (adminSet.signers ≠ []) (.panic "signers must not be empty")
      require (0 < adminSet.threshold ∧ adminSet.threshold ≤ adminSet.signers.length)
        (.panic "invalid threshold")
  | _ => pure ()

/-- What an action writes; the pause flag goes to the persistent tier. -/
def AdminAction.write (action : AdminAction) (s : AdminStore) : AdminStore :=
  match action with
  | .pauseContract => { s with pausedPersistent := some true }
  | .unpauseContract => { s with pausedPersistent := some false }
  | .setPlatformFeeBps bps => { s with platformFeeBps := some bps }
  | .setTreasury treasury => { s with treasury := some treasury }
  | .replaceAdminSet adminSet => { s with adminSet := some adminSet }

def PendingAdminAction.approvedBy (pending : PendingAdminAction) (approver : Address) :
    PendingAdminAction :=
  { pending with approvals := pending.approvals ++ [approver] }

def PendingAdminAction.completedBy (pending : PendingAdminAction) (approver : Address) :
    PendingAdminAction :=
  { pending.approvedBy approver with executed := true }

def approveAdminAction (env : AdminEnv) (approver : Address) (actionHash : Hash) : AdminM Unit := do
  requireAuth env.toLedger approver
  let s ← get
  let adminSet ← orPanic s.adminSet "AdminSet not configured"
  require (approver ∈ adminSet.signers)
    (.panic "NotAuthorized: approver is not a registered admin signer")
  let pending ← orPanic (s.pending actionHash) "no pending action with this hash"
  require (pending.executed = false) (.panic "action already executed")
  require (approver ∉ pending.approvals) (.panic "signer has already approved this action")
  if adminSet.threshold ≤ (pending.approvedBy approver).approvals.length then do
    checkAction pending.action
    modify pending.action.write
    modify fun s => s.setPending actionHash (pending.completedBy approver)
  else set (s.setPending actionHash (pending.approvedBy approver))

/-- Who may pause: the administrator, or without one whoever has a role. -/
def requirePauser (env : AdminEnv) (admin : Address) : AdminM Unit := do
  require (env.config.schemaCurrent = true) (.panic "MigrationRequired")
  requireAuth env.toLedger admin
  match env.config.admin with
  | some storedAdmin => require (admin = storedAdmin) (.panic "NotAuthorized")
  | none => do
      let admins ← orPanic env.admins "admins not set"
      let _ ← orPanic (admins admin) "caller is not an admin"
      pure ()

def setPaused (env : AdminEnv) (admin : Address) (paused : Bool) : AdminM Unit := do
  requirePauser env admin
  modify fun s => { s with paused := some paused }

def pause (env : AdminEnv) (admin : Address) : AdminM Unit := setPaused env admin true

def unpause (env : AdminEnv) (admin : Address) : AdminM Unit := setPaused env admin false

/-! ## Roles -/

/-- The role is at least the one asked for. -/
def AdminRole.Covers (role minRole : AdminRole) : Prop :=
  match minRole with
  | .superAdmin => role = .superAdmin
  | .operator => role = .superAdmin ∨ role = .operator

instance (role minRole : AdminRole) : Decidable (role.Covers minRole) :=
  match minRole with
  | .superAdmin => inferInstanceAs (Decidable (role = .superAdmin))
  | .operator => inferInstanceAs (Decidable (role = .superAdmin ∨ role = .operator))

def requireAdminRole {σ : Type} (env : AdminEnv) (admin : Address) (minRole : AdminRole) :
    Call σ SplitFault Unit := do
  require (env.config.schemaCurrent = true) (.panic "MigrationRequired")
  requireAuth env.toLedger admin
  let admins ← orPanic env.admins "admins not set"
  let role ← orPanic (admins admin) "caller is not an admin"
  require (role.Covers minRole)
    (.panic (if minRole = .superAdmin then "requires SuperAdmin role" else "requires Operator role or higher"))

/-- The caller has signed and has the role. -/
def Permitted (env : AdminEnv) (admin : Address) (minRole : AdminRole) : Prop :=
  env.config.schemaCurrent = true ∧ (env.auth admin = true ∧ admin ≠ currentContract) ∧
    ∃ admins, env.admins = some admins ∧ ∃ role, admins admin = some role ∧ role.Covers minRole

theorem requireAdminRole_bind {σ β : Type} {env : AdminEnv} {admin : Address} {minRole : AdminRole}
    {k : Unit → Call σ SplitFault β} {s : σ} {r : β × σ} :
    (requireAdminRole env admin minRole >>= k) s = .ok r ↔
      Permitted env admin minRole ∧ k () s = .ok r := by
  simp only [requireAdminRole, Permitted, bind_assoc, require_bind, requireAuth_bind, orPanic_bind]
  constructor
  · rintro ⟨hschema, hauth, admins, hadmins, role, hrole, hcovers, h⟩
    exact ⟨⟨hschema, hauth, admins, hadmins, role, hrole, hcovers⟩, h⟩
  · rintro ⟨⟨hschema, hauth, admins, hadmins, role, hrole, hcovers⟩, h⟩
    exact ⟨hschema, hauth, admins, hadmins, role, hrole, hcovers, h⟩

/-! ## Runs -/

inductive AdminCall where
  | setAdminSet (admin : Address) (signers : List Address) (threshold : ℕ)
  | propose (proposer : Address) (action : AdminAction)
  | approve (approver : Address) (actionHash : Hash)
  | pause (admin : Address)
  | unpause (admin : Address)
deriving DecidableEq

def adminStep (c : AdminEnv × AdminCall) : AdminM Unit :=
  match c.2 with
  | .setAdminSet admin signers threshold => setAdminSet c.1 admin signers threshold
  | .propose proposer action => ignore (proposeAdminAction c.1 proposer action)
  | .approve approver actionHash => approveAdminAction c.1 approver actionHash
  | .pause admin => pause c.1 admin
  | .unpause admin => unpause c.1 admin

/-! ## The law -/

/-- How many different signers are among the approvals. -/
def AdminSet.votes (adminSet : AdminSet) (approvals : List Address) : ℕ :=
  (approvals.toFinset ∩ adminSet.signers.toFinset).card

def AdminStore.executed (s : AdminStore) (hash : Hash) : Bool := (s.pending hash).any (·.executed)

/-- The effect of an action is there. -/
def AdminAction.Visible (action : AdminAction) (s : AdminStore) : Prop :=
  match action with
  | .pauseContract => isPaused s = true
  | .unpauseContract => isPaused s = false
  | .setPlatformFeeBps bps => s.platformFeeBps = some bps
  | .setTreasury treasury => s.treasury = some treasury
  | .replaceAdminSet adminSet => s.adminSet = some adminSet

/-- The proposal is carried out between the two storages. -/
structure Executes (hash : Hash) (p : PendingAdminAction) (s t : AdminStore) : Prop where
  stored : t.pending hash = some p
  now : p.executed = true
  before : s.executed hash = false

/-- No proposal that waits has the approvals of as many signers as it takes. -/
def NothingDue (s : AdminStore) : Prop :=
  ∀ hash p adminSet, s.pending hash = some p → p.executed = false → s.adminSet = some adminSet →
    adminSet.votes p.approvals < adminSet.threshold

/-- The law for one call: what it carries out has the approvals of as many signers as it takes, the
effect is there, and nothing else is due. -/
structure Lawful (s t : AdminStore) : Prop where
  enough : ∀ hash p, Executes hash p s t →
    ∃ adminSet, s.adminSet = some adminSet ∧ adminSet.threshold ≤ adminSet.votes p.approvals
  visible : ∀ hash p, Executes hash p s t → p.action.Visible t
  rest : NothingDue t

def LawfulCall (s : AdminStore) (c : AdminEnv × AdminCall) : Prop :=
  ∀ v t, adminStep c s = .ok (v, t) → Lawful s t

/-- How many calls of the run carry the proposal out. -/
def timesExecuted (hash : Hash) : AdminStore → List (AdminEnv × AdminCall) → ℕ
  | _, [] => 0
  | s, c :: calls =>
      (if s.executed hash = false ∧ (commit (adminStep c) s).executed hash = true then 1 else 0) +
        timesExecuted hash (commit (adminStep c) s) calls

/-- The law for a run. -/
structure MultisigLaw (s : AdminStore) (calls : List (AdminEnv × AdminCall)) : Prop where
  lawful : Along LawfulCall adminStep s calls
  once : ∀ hash, timesExecuted hash s calls ≤ 1

/-! ## The condition -/

/-- Approvals of former signers. -/
def AdminSet.stale (adminSet : AdminSet) (approvals : List Address) : List Address :=
  approvals.filter (· ∉ adminSet.signers)

/-- With these signers no proposal besides the ones skipped is due. -/
def LeavesWaiting (adminSet : AdminSet) (skipped : Option Hash) (s : AdminStore) : Prop :=
  ∀ hash p, some hash ≠ skipped → s.pending hash = some p → p.executed = false →
    adminSet.votes p.approvals < adminSet.threshold

/-- The instance tier does not hide the flag that the action writes, and signers that it sets leave
the other proposals waiting. -/
def AdminAction.Clear (action : AdminAction) (hash : Hash) (s : AdminStore) : Prop :=
  match action with
  | .pauseContract => s.paused ≠ some false
  | .unpauseContract => s.paused ≠ some true
  | .replaceAdminSet adminSet => LeavesWaiting adminSet (some hash) s
  | _ => True

/-- What is asked of a call: new signers leave the proposals waiting, a proposal takes more than the
proposer, and an approval that completes a proposal needs none of the approvals of former signers. -/
def SafeCall (s : AdminStore) (c : AdminEnv × AdminCall) : Prop :=
  match c.2 with
  | .setAdminSet _ signers threshold => LeavesWaiting ⟨signers, threshold⟩ none s
  | .propose _ _ => ∀ adminSet ∈ s.adminSet, 1 < adminSet.threshold
  | .approve _ hash => ∀ adminSet ∈ s.adminSet, ∀ p ∈ s.pending hash,
      adminSet.threshold ≤ p.approvals.length + 1 →
        adminSet.threshold + (adminSet.stale p.approvals).length ≤ p.approvals.length + 1 ∧
          p.action.Clear hash s
  | .pause _ | .unpause _ => True

/-! ## What the calls do -/

theorem requireAdmin_bind {σ β : Type} {env : Env} {k : Address → Call σ SplitFault β} {s : σ}
    {r : β × σ} : (requireAdmin env >>= k) s = .ok r ↔ ∃ admin, env.config.schemaCurrent = true ∧
      env.config.admin = some admin ∧ (env.auth admin = true ∧ admin ≠ currentContract) ∧
      k admin s = .ok r := by
  simp only [requireAdmin, bind_assoc, require_bind, orPanic_bind, requireAuth_bind, pure_bind]
  constructor
  · rintro ⟨hschema, admin, hadmin, hauth, h⟩
    exact ⟨admin, hschema, hadmin, hauth, h⟩
  · rintro ⟨admin, hschema, hadmin, hauth, h⟩
    exact ⟨hschema, admin, hadmin, hauth, h⟩

variable {env : AdminEnv} {s t : AdminStore} {v : Unit} {hash : Hash}

theorem setAdminSet_ok {admin : Address} {signers : List Address} {threshold : ℕ}
    (hrun : setAdminSet env admin signers threshold s = .ok (v, t)) :
    t = { s with adminSet := some ⟨signers, threshold⟩ } := by
  simp only [setAdminSet, requireAdmin_bind, require_bind] at hrun
  obtain ⟨_, -, -, -, -, -, hrun⟩ := hrun
  exact (modify_ok.1 hrun).symm

theorem proposeAdminAction_ok {proposer : Address} {action : AdminAction}
    (hrun : proposeAdminAction env proposer action s = .ok (hash, t)) :
    ∃ adminSet, s.adminSet = some adminSet ∧ proposer ∈ adminSet.signers ∧ s.pending hash = none ∧
      t = s.setPending hash
        { action := action, proposedAt := env.now, approvals := [proposer], executed := false } := by
  simp only [proposeAdminAction, requireAuth_bind, get_bind, orPanic_bind, require_bind] at hrun
  obtain ⟨-, adminSet, hset, hsigner, hnone, hrun⟩ := hrun
  obtain ⟨_, u, hwrite, hrun⟩ := bind_ok.1 hrun
  obtain ⟨rfl, rfl⟩ := pure_ok.1 hrun
  exact ⟨adminSet, hset, hsigner, Option.isNone_iff_eq_none.1 hnone, (set_ok.1 hwrite).symm⟩

theorem checkAction_ok {action : AdminAction} (hrun : checkAction action s = .ok (v, t)) : s = t := by
  cases action with
  | setPlatformFeeBps bps => exact (require_ok.1 hrun).2
  | replaceAdminSet adminSet =>
      obtain ⟨-, hrun⟩ := require_bind.1 hrun
      exact (require_ok.1 hrun).2
  | pauseContract => exact (pure_ok.1 hrun).2
  | unpauseContract => exact (pure_ok.1 hrun).2
  | setTreasury treasury => exact (pure_ok.1 hrun).2

/-- What an approval asks for. -/
structure Approves (adminSet : AdminSet) (p : PendingAdminAction) (approver : Address) (hash : Hash)
    (s : AdminStore) : Prop where
  signers : s.adminSet = some adminSet
  signer : approver ∈ adminSet.signers
  stored : s.pending hash = some p
  waiting : p.executed = false
  fresh : approver ∉ p.approvals

/-- An approval completes the proposal, and the action is carried out, or it is only added. -/
theorem approveAdminAction_ok {approver : Address}
    (hrun : approveAdminAction env approver hash s = .ok (v, t)) :
    ∃ adminSet p, Approves adminSet p approver hash s ∧
      ((adminSet.threshold ≤ p.approvals.length + 1 ∧
          t = (p.action.write s).setPending hash (p.completedBy approver)) ∨
        (p.approvals.length + 1 < adminSet.threshold ∧ t = s.setPending hash (p.approvedBy approver))) := by
  simp only [approveAdminAction, requireAuth_bind, get_bind, orPanic_bind, require_bind] at hrun
  obtain ⟨-, adminSet, hset, hsigner, p, hp, hwaiting, hfresh, hrun⟩ := hrun
  have hlen : (p.approvedBy approver).approvals.length = p.approvals.length + 1 := List.length_append
  refine ⟨adminSet, p, ⟨hset, hsigner, hp, hwaiting, hfresh⟩, ?_⟩
  rw [hlen] at hrun
  split_ifs at hrun with hreached
  · obtain ⟨_, u, hcheck, hrun⟩ := bind_ok.1 hrun
    obtain rfl := checkAction_ok hcheck
    obtain ⟨_, w, hwrite, hrun⟩ := bind_ok.1 hrun
    obtain rfl := modify_ok.1 hwrite
    exact .inl ⟨hreached, (modify_ok.1 hrun).symm⟩
  · exact .inr ⟨not_le.1 hreached, (set_ok.1 hrun).symm⟩

theorem setPaused_ok {admin : Address} {paused : Bool}
    (hrun : setPaused env admin paused s = .ok (v, t)) : t = { s with paused := some paused } := by
  simp only [setPaused, requirePauser, bind_assoc, require_bind, requireAuth_bind] at hrun
  obtain ⟨-, -, hrun⟩ := hrun
  obtain ⟨_, u, hcheck, hrun⟩ := bind_ok.1 hrun
  obtain rfl : s = u := by
    cases hadmin : env.config.admin with
    | some storedAdmin =>
        rw [hadmin] at hcheck
        exact (require_ok.1 hcheck).2
    | none =>
        rw [hadmin] at hcheck
        simp only [orPanic_bind, pure_ok] at hcheck
        obtain ⟨_, -, _, -, -, hsame⟩ := hcheck
        exact hsame
  exact (modify_ok.1 hrun).symm

@[simp] theorem AdminAction.write_pending (action : AdminAction) (s : AdminStore) :
    (action.write s).pending = s.pending := by
  cases action <;> rfl

@[simp] theorem AdminStore.setPending_pending (s : AdminStore) (p : PendingAdminAction) :
    (s.setPending hash p).pending = update s.pending hash (some p) := rfl

@[simp] theorem AdminStore.setPending_adminSet (s : AdminStore) (p : PendingAdminAction) :
    (s.setPending hash p).adminSet = s.adminSet := rfl

/-! ## Approvals -/

/-- Every approval of a proposal is by someone else. -/
def Distinct (s : AdminStore) : Prop := ∀ hash p, s.pending hash = some p → p.approvals.Nodup

theorem Distinct.setPending {p : PendingAdminAction} (h : Distinct s) (hp : p.approvals.Nodup) :
    Distinct (s.setPending hash p) := by
  unfold Distinct
  rw [AdminStore.setPending_pending]
  exact forall_update h hp

theorem nodup_approvedBy {p : PendingAdminAction} {approver : Address} (hp : p.approvals.Nodup)
    (hfresh : approver ∉ p.approvals) : (p.approvedBy approver).approvals.Nodup := by
  refine hp.append (List.nodup_singleton _) ?_
  intro a ha happrover
  rw [List.mem_singleton.1 happrover] at ha
  exact hfresh ha

theorem Distinct.step {c : AdminEnv × AdminCall} (h : Distinct s)
    (hrun : adminStep c s = .ok (v, t)) : Distinct t := by
  obtain ⟨env, call⟩ := c
  cases call with
  | setAdminSet admin signers threshold =>
      have hset : setAdminSet env admin signers threshold s = .ok (v, t) := hrun
      obtain rfl := setAdminSet_ok hset
      exact h
  | propose proposer action =>
      obtain ⟨hash, hpropose⟩ := ignore_ok.1 hrun
      obtain ⟨adminSet, -, -, -, rfl⟩ := proposeAdminAction_ok hpropose
      exact h.setPending (List.nodup_singleton _)
  | approve approver hash =>
      obtain ⟨adminSet, p, happroves, ⟨-, rfl⟩ | ⟨-, rfl⟩⟩ := approveAdminAction_ok hrun
      · have hwritten : Distinct (p.action.write s) := by
          unfold Distinct
          rw [AdminAction.write_pending]
          exact h
        exact hwritten.setPending (nodup_approvedBy (h hash p happroves.stored) happroves.fresh)
      · exact h.setPending (nodup_approvedBy (h hash p happroves.stored) happroves.fresh)
  | pause admin =>
      obtain rfl := setPaused_ok hrun
      exact h
  | unpause admin =>
      obtain rfl := setPaused_ok hrun
      exact h

theorem AdminSet.votes_le (adminSet : AdminSet) (approvals : List Address) :
    adminSet.votes approvals ≤ approvals.length :=
  (Finset.card_le_card Finset.inter_subset_left).trans approvals.toFinset_card_le

/-- Different approvals are votes or stale. -/
theorem AdminSet.votes_add_stale (adminSet : AdminSet) {approvals : List Address}
    (hdistinct : approvals.Nodup) :
    adminSet.votes approvals + (adminSet.stale approvals).length = approvals.length := by
  have hvotes : adminSet.votes approvals = (approvals.filter (· ∈ adminSet.signers)).length := by
    have hfilter : approvals.toFinset ∩ adminSet.signers.toFinset =
        (approvals.filter (· ∈ adminSet.signers)).toFinset := by
      ext a
      simp
    unfold AdminSet.votes
    rw [hfilter, List.toFinset_card_of_nodup (hdistinct.filter _)]
  rw [hvotes, AdminSet.stale]
  have hsplit := List.length_eq_length_filter_add (l := approvals) (· ∈ adminSet.signers)
  simpa using hsplit.symm

/-- The approver is a signer, so its approval is not stale. -/
theorem AdminSet.stale_approvedBy (adminSet : AdminSet) {p : PendingAdminAction} {approver : Address}
    (hsigner : approver ∈ adminSet.signers) :
    adminSet.stale (p.approvedBy approver).approvals = adminSet.stale p.approvals := by
  simp [AdminSet.stale, PendingAdminAction.approvedBy, hsigner]

/-! ## One call -/

section Step

variable {p : PendingAdminAction} {adminSet : AdminSet} {approver : Address}

theorem not_executes (h : t.pending = s.pending) : ¬Executes hash p s t := by
  rintro ⟨hstored, hnow, hbefore⟩
  rw [h] at hstored
  simp [AdminStore.executed, hstored, hnow] at hbefore

/-- A write of one proposal carries out that one only. -/
theorem executes_setPending {u : AdminStore} {other : Hash} {q : PendingAdminAction}
    (hpending : u.pending = s.pending) (h : Executes other q s (u.setPending hash p)) :
    other = hash ∧ q = p := by
  have hstored := h.stored
  rw [AdminStore.setPending_pending, hpending] at hstored
  rcases update_cases hstored with hnew | ⟨-, hold⟩
  · exact hnew
  · have hbefore := h.before
    simp [AdminStore.executed, hold, h.now] at hbefore

theorem Lawful.of_still (h : t.pending = s.pending) (hrest : NothingDue t) : Lawful s t :=
  ⟨fun _ _ hexec => absurd hexec (not_executes h), fun _ _ hexec => absurd hexec (not_executes h), hrest⟩

/-- With the same signers a written proposal is the only one that may be due. -/
theorem nothingDue_setPending (hdue : NothingDue s) (hset : s.adminSet = some adminSet) :
    NothingDue (s.setPending hash p) ↔
      (p.executed = false → adminSet.votes p.approvals < adminSet.threshold) := by
  constructor
  · intro h hwaiting
    exact h hash p adminSet (update_self _ _ _) hwaiting hset
  · intro h other q set hq hwaiting hset'
    rw [AdminStore.setPending_pending] at hq
    rw [AdminStore.setPending_adminSet, hset] at hset'
    cases hset'
    rcases update_cases hq with ⟨-, rfl⟩ | ⟨-, hold⟩
    · exact h hwaiting
    · exact hdue other q adminSet hold hwaiting hset

/-- A proposal that waits is written: nothing is carried out. -/
theorem lawful_setPending (hdue : NothingDue s) (hset : s.adminSet = some adminSet)
    (hwaiting : p.executed = false) :
    Lawful s (s.setPending hash p) ↔ adminSet.votes p.approvals < adminSet.threshold := by
  have hnone : ∀ other q, ¬Executes other q s (s.setPending hash p) := by
    intro other q hexec
    obtain ⟨-, rfl⟩ := executes_setPending rfl hexec
    have hnow := hexec.now
    rw [hwaiting] at hnow
    cases hnow
  constructor
  · intro hlawful
    exact (nothingDue_setPending hdue hset).1 hlawful.rest hwaiting
  · intro hvotes
    exact ⟨fun other q hexec => absurd hexec (hnone other q), fun other q hexec => absurd hexec (hnone other q),
      (nothingDue_setPending hdue hset).2 fun _ => hvotes⟩

/-- New signers: with them nothing but the proposal that sets them may be carried out. -/
theorem nothingDue_withSigners (hexecuted : p.executed = true) :
    NothingDue (({ s with adminSet := some adminSet } : AdminStore).setPending hash p) ↔
      LeavesWaiting adminSet (some hash) s := by
  constructor
  · intro h other q hother hq hwaiting
    have hne : other ≠ hash := fun heq => hother (congrArg some heq)
    have hq' : update s.pending hash (some p) other = some q := by
      rw [update_of_ne hne]
      exact hq
    exact h other q adminSet hq' hwaiting rfl
  · intro h other q set hq hwaiting hset
    cases hset
    have hq' : update s.pending hash (some p) other = some q := hq
    rcases update_cases hq' with ⟨-, rfl⟩ | ⟨hother, hold⟩
    · rw [hexecuted] at hwaiting
      cases hwaiting
    · exact h other q (fun heq => hother (Option.some.inj heq)) hold hwaiting

/-- The effect of a carried out action is there and nothing else is due, exactly if the way is clear. -/
theorem clear_iff (hdue : NothingDue s) (hset : s.adminSet = some adminSet) (hexecuted : p.executed = true)
    (action : AdminAction) :
    (action.Visible ((action.write s).setPending hash p) ∧
      NothingDue ((action.write s).setPending hash p)) ↔ action.Clear hash s := by
  have hsame : ∀ u : AdminStore, u.pending = s.pending → u.adminSet = s.adminSet →
      NothingDue (u.setPending hash p) := by
    intro u hpending hsigners
    have hdue' : NothingDue u := by
      unfold NothingDue
      rw [hpending, hsigners]
      exact hdue
    refine (nothingDue_setPending hdue' (hsigners.trans hset)).2 fun hwaiting => ?_
    rw [hexecuted] at hwaiting
    cases hwaiting
  cases action with
  | pauseContract =>
      have hflag : isPaused ((AdminAction.pauseContract.write s).setPending hash p) = true ↔
          s.paused ≠ some false := by
        change s.paused.getD true = true ↔ _
        cases s.paused <;> simp
      exact ⟨fun h => hflag.1 h.1, fun h => ⟨hflag.2 h, hsame _ rfl rfl⟩⟩
  | unpauseContract =>
      have hflag : isPaused ((AdminAction.unpauseContract.write s).setPending hash p) = false ↔
          s.paused ≠ some true := by
        change s.paused.getD false = false ↔ _
        cases s.paused <;> simp
      exact ⟨fun h => hflag.1 h.1, fun h => ⟨hflag.2 h, hsame _ rfl rfl⟩⟩
  | setPlatformFeeBps bps => exact ⟨fun _ => trivial, fun _ => ⟨rfl, hsame _ rfl rfl⟩⟩
  | setTreasury treasury => exact ⟨fun _ => trivial, fun _ => ⟨rfl, hsame _ rfl rfl⟩⟩
  | replaceAdminSet new =>
      have hnew : NothingDue (((AdminAction.replaceAdminSet new).write s).setPending hash p) ↔
          LeavesWaiting new (some hash) s := nothingDue_withSigners hexecuted
      exact ⟨fun h => hnew.1 h.2, fun h => ⟨rfl, hnew.2 h⟩⟩

/-- The approval that completes a proposal. -/
theorem lawful_completed (hdistinct : Distinct s) (hdue : NothingDue s)
    (h : Approves adminSet p approver hash s) :
    Lawful s ((p.action.write s).setPending hash (p.completedBy approver)) ↔
      adminSet.threshold + (adminSet.stale p.approvals).length ≤ p.approvals.length + 1 ∧
        p.action.Clear hash s := by
  have hvotes : adminSet.threshold ≤ adminSet.votes (p.approvedBy approver).approvals ↔
      adminSet.threshold + (adminSet.stale p.approvals).length ≤ p.approvals.length + 1 := by
    have hcount := adminSet.votes_add_stale
      (nodup_approvedBy (hdistinct hash p h.stored) h.fresh)
    rw [adminSet.stale_approvedBy h.signer] at hcount
    have hlen : (p.approvedBy approver).approvals.length = p.approvals.length + 1 := List.length_append
    omega
  have hexec : Executes hash (p.completedBy approver) s
      ((p.action.write s).setPending hash (p.completedBy approver)) := by
    refine ⟨update_self _ _ _, rfl, ?_⟩
    simp [AdminStore.executed, h.stored, h.waiting]
  have hclear : (p.action.Visible ((p.action.write s).setPending hash (p.completedBy approver)) ∧
      NothingDue ((p.action.write s).setPending hash (p.completedBy approver))) ↔ p.action.Clear hash s :=
    clear_iff hdue h.signers rfl p.action
  rw [← hvotes, ← hclear]
  constructor
  · intro hlawful
    obtain ⟨set, hset, henough⟩ := hlawful.enough hash _ hexec
    obtain rfl : set = adminSet := Option.some.inj (hset.symm.trans h.signers)
    exact ⟨henough, hlawful.visible hash (p.completedBy approver) hexec, hlawful.rest⟩
  · rintro ⟨henough, hvisible, hrest⟩
    refine ⟨fun other q hother => ?_, fun other q hother => ?_, hrest⟩
    · obtain ⟨-, rfl⟩ := executes_setPending (p.action.write_pending s) hother
      exact ⟨adminSet, h.signers, henough⟩
    · obtain ⟨-, rfl⟩ := executes_setPending (p.action.write_pending s) hother
      exact hvisible

theorem votes_singleton (hsigner : approver ∈ adminSet.signers) : adminSet.votes [approver] = 1 := by
  have hcount := adminSet.votes_add_stale (List.nodup_singleton approver)
  have hstale : adminSet.stale [approver] = [] := by simp [AdminSet.stale, hsigner]
  rw [hstale] at hcount
  simpa using hcount

/-- A call that returns is lawful exactly if it is safe. -/
theorem lawful_iff_safe {c : AdminEnv × AdminCall} (hdistinct : Distinct s) (hdue : NothingDue s)
    (hrun : adminStep c s = .ok (v, t)) : Lawful s t ↔ SafeCall s c := by
  obtain ⟨env, call⟩ := c
  cases call with
  | setAdminSet admin signers threshold =>
      have hset : setAdminSet env admin signers threshold s = .ok (v, t) := hrun
      obtain rfl := setAdminSet_ok hset
      constructor
      · intro h hash p _ hp hwaiting
        exact h.rest hash p _ hp hwaiting rfl
      · intro h
        refine .of_still rfl fun hash p adminSet hp hwaiting hset => ?_
        cases hset
        exact h hash p (Option.some_ne_none hash) hp hwaiting
  | propose proposer action =>
      obtain ⟨hash, hpropose⟩ := ignore_ok.1 hrun
      obtain ⟨adminSet, hset, hsigner, -, rfl⟩ := proposeAdminAction_ok hpropose
      rw [lawful_setPending hdue hset rfl, votes_singleton hsigner]
      simp [SafeCall, hset]
  | approve approver hash =>
      obtain ⟨adminSet, p, happroves, ⟨hreached, rfl⟩ | ⟨hshort, rfl⟩⟩ := approveAdminAction_ok hrun
      · rw [lawful_completed hdistinct hdue happroves]
        simp [SafeCall, happroves.signers, happroves.stored, hreached]
      · have hwaiting : (p.approvedBy approver).executed = false := happroves.waiting
        rw [lawful_setPending hdue happroves.signers hwaiting]
        refine iff_of_true ?_ ?_
        · have hle := adminSet.votes_le (p.approvedBy approver).approvals
          have hlen : (p.approvedBy approver).approvals.length = p.approvals.length + 1 :=
            List.length_append
          omega
        · intro set hset q hq hreached
          rw [happroves.signers] at hset
          rw [happroves.stored] at hq
          cases hset
          cases hq
          exact absurd hreached (not_le.2 hshort)
  | pause admin =>
      obtain rfl := setPaused_ok hrun
      exact iff_of_true (.of_still rfl hdue) trivial
  | unpause admin =>
      obtain rfl := setPaused_ok hrun
      exact iff_of_true (.of_still rfl hdue) trivial

end Step

/-! ## Runs of calls -/

theorem lawful_along_iff (calls : List (AdminEnv × AdminCall)) (hdistinct : Distinct s)
    (hdue : NothingDue s) : Along LawfulCall adminStep s calls ↔ Along SafeCall adminStep s calls := by
  induction calls generalizing s with
  | nil => exact Iff.rfl
  | cons c calls ih =>
      cases hrun : adminStep c s with
      | error e =>
          unfold Along
          rw [commit_error hrun, hrun, ih hdistinct hdue]
          simp
      | ok r =>
          obtain ⟨v, t⟩ := r
          have hcall := lawful_iff_safe hdistinct hdue hrun
          have hlawful : LawfulCall s c ↔ Lawful s t := by
            refine ⟨fun h => h v t hrun, fun h v' t' hrun' => ?_⟩
            rw [hrun] at hrun'
            cases hrun'
            exact h
          unfold Along
          rw [commit_ok hrun, hlawful, hcall]
          refine and_congr_right fun hsafe => ih (hdistinct.step hrun) ?_
          exact (hcall.2 (hsafe ⟨_, hrun⟩)).rest

theorem executed_setPending {u : AdminStore} {other : Hash} {p : PendingAdminAction}
    (hpending : u.pending = s.pending) (hwaiting : s.executed other = false)
    (h : s.executed hash = true) : (u.setPending other p).executed hash = true := by
  have hne : hash ≠ other := by
    rintro rfl
    rw [h] at hwaiting
    cases hwaiting
  unfold AdminStore.executed
  rw [AdminStore.setPending_pending, update_of_ne hne, hpending]
  exact h

/-- What was carried out stays so, since an approval of it is refused. -/
theorem executed_step {c : AdminEnv × AdminCall} (hrun : adminStep c s = .ok (v, t))
    (h : s.executed hash = true) : t.executed hash = true := by
  obtain ⟨env, call⟩ := c
  cases call with
  | setAdminSet admin signers threshold =>
      have hset : setAdminSet env admin signers threshold s = .ok (v, t) := hrun
      obtain rfl := setAdminSet_ok hset
      exact h
  | propose proposer action =>
      obtain ⟨other, hpropose⟩ := ignore_ok.1 hrun
      obtain ⟨adminSet, -, -, hnone, rfl⟩ := proposeAdminAction_ok hpropose
      exact executed_setPending rfl (by simp [AdminStore.executed, hnone]) h
  | approve approver other =>
      obtain ⟨adminSet, p, happroves, hcases⟩ := approveAdminAction_ok hrun
      have hwaiting : s.executed other = false := by
        simp [AdminStore.executed, happroves.stored, happroves.waiting]
      obtain ⟨-, rfl⟩ | ⟨-, rfl⟩ := hcases
      · exact executed_setPending (p.action.write_pending s) hwaiting h
      · exact executed_setPending rfl hwaiting h
  | pause admin =>
      obtain rfl := setPaused_ok hrun
      exact h
  | unpause admin =>
      obtain rfl := setPaused_ok hrun
      exact h

theorem timesExecuted_of_executed (calls : List (AdminEnv × AdminCall)) (h : s.executed hash = true) :
    timesExecuted hash s calls = 0 := by
  induction calls generalizing s with
  | nil => rfl
  | cons c calls ih =>
      have hnext : (commit (adminStep c) s).executed hash = true := by
        rcases commit_cases (adminStep c) s with ⟨v, hrun⟩ | ⟨-, hsame⟩
        · exact executed_step hrun h
        · rw [hsame]
          exact h
      unfold timesExecuted
      rw [ih hnext, if_neg (by simp [h])]

theorem timesExecuted_le_one (hash : Hash) (s : AdminStore) (calls : List (AdminEnv × AdminCall)) :
    timesExecuted hash s calls ≤ 1 := by
  induction calls generalizing s with
  | nil => exact Nat.zero_le _
  | cons c calls ih =>
      unfold timesExecuted
      split_ifs with hnow
      · rw [timesExecuted_of_executed calls hnow.2]
      · rw [zero_add]
        exact ih _

/-- From a contract without proposals, every run follows the law exactly if its calls are safe. -/
theorem multisig_law_iff (hfresh : ∀ hash, s.pending hash = none) (calls : List (AdminEnv × AdminCall)) :
    MultisigLaw s calls ↔ Along SafeCall adminStep s calls := by
  have hdistinct : Distinct s := by
    intro hash p hp
    rw [hfresh hash] at hp
    cases hp
  have hdue : NothingDue s := by
    intro hash p adminSet hp
    rw [hfresh hash] at hp
    cases hp
  rw [← lawful_along_iff calls hdistinct hdue]
  exact ⟨fun h => h.lawful, fun h => ⟨h, fun hash => timesExecuted_le_one hash s calls⟩⟩

/-- Administrator 1, and hashes that tell pausing from the other actions. -/
def sampleAdminEnv : AdminEnv :=
  { sampleEnv 10 0 with
    config := { admin := some 1 }
    actionHash := fun action => if action = .pauseContract then 1 else 2 }

/-- Signer 5 proposes to pause the contract, and signer 6 approves. -/
def pausedByTwo : List (AdminEnv × AdminCall) :=
  [(sampleAdminEnv, .setAdminSet 1 [5, 6, 7] 2), (sampleAdminEnv, .propose 5 .pauseContract),
    (sampleAdminEnv, .approve 6 1)]

theorem multisig_law_sample :
    isPaused (runAll adminStep {} pausedByTwo) = true ∧ MultisigLaw {} pausedByTwo := by
  refine ⟨rfl, (multisig_law_iff (fun _ => rfl) pausedByTwo).2 ⟨fun _ => ?_, fun _ => ?_, fun _ => ?_,
    trivial⟩⟩
  · intro hash p _ hp
    cases hp
  · intro adminSet hset
    cases hset
    decide
  · intro adminSet hset p hp _
    cases hset
    cases hp
    refine ⟨by decide, fun hpaused => ?_⟩
    cases hpaused

/-- A threshold of one, reached with the proposal. -/
def pausedByOne : List (AdminEnv × AdminCall) :=
  [(sampleAdminEnv, .setAdminSet 1 [5, 6] 1), (sampleAdminEnv, .propose 5 .pauseContract)]

/-- The proposer is no signer any more when the proposal is completed. -/
def pausedByFormer : List (AdminEnv × AdminCall) :=
  [(sampleAdminEnv, .setAdminSet 1 [5, 6, 7] 2), (sampleAdminEnv, .propose 5 .pauseContract),
    (sampleAdminEnv, .setAdminSet 1 [6, 7, 8] 2), (sampleAdminEnv, .approve 6 1)]

/-- The administrator has paused and unpaused the contract before. -/
def pausedBehind : List (AdminEnv × AdminCall) :=
  [(sampleAdminEnv, .pause 1), (sampleAdminEnv, .unpause 1)] ++ pausedByTwo

/-- A proposal under a threshold of one is not carried out; an approval of a former signer counts;
and an executed pause does not pause the contract. -/
theorem multisig_law_fails :
    ((runAll adminStep {} pausedByOne).executed 1 = false ∧ ¬MultisigLaw {} pausedByOne) ∧
    ((runAll adminStep {} pausedByFormer).executed 1 = true ∧ ¬MultisigLaw {} pausedByFormer) ∧
    ((runAll adminStep {} pausedBehind).executed 1 = true ∧
      isPaused (runAll adminStep {} pausedBehind) = false ∧ ¬MultisigLaw {} pausedBehind) := by
  have hsafe : ∀ calls, MultisigLaw {} calls → Along SafeCall adminStep {} calls := by
    intro calls h
    refine (lawful_along_iff calls ?_ ?_).1 h.lawful
    · intro hash p hp
      cases hp
    · intro hash p adminSet hp
      cases hp
  refine ⟨⟨rfl, fun h => ?_⟩, ⟨rfl, fun h => ?_⟩, rfl, rfl, fun h => ?_⟩
  · obtain ⟨-, hpropose, -⟩ := hsafe _ h
    exact absurd (hpropose ⟨_, rfl⟩ ⟨[5, 6], 1⟩ rfl) (by decide)
  · obtain ⟨-, -, -, happrove, -⟩ := hsafe _ h
    have hvotes := (happrove ⟨_, rfl⟩ ⟨[6, 7, 8], 2⟩ rfl ⟨.pauseContract, 10, [5], false⟩ rfl (by decide)).1
    exact absurd hvotes (by decide)
  · obtain ⟨-, -, -, -, happrove, -⟩ := hsafe _ h
    have hclear := (happrove ⟨_, rfl⟩ ⟨[5, 6, 7], 2⟩ rfl ⟨.pauseContract, 10, [5], false⟩ rfl (by decide)).2
    exact hclear rfl

end StellarSplit.Split.Multisig
