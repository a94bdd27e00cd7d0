import StellarSplit.Lib.Runs
import StellarSplit.Split.Multisig

/-!
# Roles

The administrator assigns roles to addresses and takes them back. An assignment lies
under the address and a symbol for the role, and all roles have the same symbol, so
an address has one entry for the four of them: whether it holds a role is decided by the
last call for the address, whatever role that call was about.
-/

namespace StellarSplit.Split.Roles

open Exec Function Multisig

/-! ## The contract -/

inductive Role where
  | admin | creator | operator | auditor
deriving DecidableEq, Repr

inductive Permission where
  | createInvoice | pay | release | refund | cancel | manageRoles | viewAudit | manageEncryption
deriving DecidableEq, Repr

structure RoleAssignment where
  role : Role
  address : Address
  assignedBy : Address
  assignedAt : ℕ
deriving DecidableEq, Repr

/-- The assignments under an address and a symbol, and the symbols listed for an address. -/
structure RoleStore where
  assignments : Address → String → Option RoleAssignment := fun _ _ => none
  userRoles : Address → List String := fun _ => []

abbrev RoleM (α : Type) := Call RoleStore SplitFault α

def roleToSymbol (_role : Role) : String := "role"

def symbolToRole (_sym : String) : Role := .admin

def hasRoleInternal (_s : RoleStore) (_user : Address) (_role : String) : Bool := false

def roleHasPermission (_role : Role) (_perm : Permission) : Bool := false

namespace RoleStore

/-- Write or remove what `rbac_role_key` leads to. -/
def setAssignment (s : RoleStore) (address : Address) (sym : String)
    (assignment : Option RoleAssignment) : RoleStore :=
  { s with assignments := update s.assignments address (update (s.assignments address) sym assignment) }

def setUserRoles (s : RoleStore) (address : Address) (roles : List String) : RoleStore :=
  { s with userRoles := update s.userRoles address roles }

end RoleStore

/-- The administrator named in the call is not looked at; the stored one has to authorise it. -/
def assignRole (env : Env) (_admin address : Address) (role : Role) : RoleM Unit := do
  let _ ← requireAdmin env
  modify fun s => s.setAssignment address (roleToSymbol role)
    (some { role := role, address := address, assignedBy := currentContract, assignedAt := env.now })
  modify fun s => s.setUserRoles address
    (if roleToSymbol role ∈ s.userRoles address then s.userRoles address
      else s.userRoles address ++ [roleToSymbol role])

def revokeRole (env : Env) (_admin address : Address) (role : Role) : RoleM Unit := do
  let _ ← requireAdmin env
  modify fun s => s.setAssignment address (roleToSymbol role) none
  modify fun s => s.setUserRoles address ((s.userRoles address).filter (· ≠ roleToSymbol role))

def hasRole (s : RoleStore) (address : Address) (role : Role) : Bool :=
  (s.assignments address (roleToSymbol role)).isSome

/-- The loop over the listed symbols stops at the first one that allows the action. -/
def hasPermission (s : RoleStore) (address : Address) (permission : Permission) : Bool :=
  (s.userRoles address).any fun sym =>
    hasRoleInternal s address sym && roleHasPermission (symbolToRole sym) permission

/-! ## Runs -/

inductive RoleCall where
  | assign (admin address : Address) (role : Role)
  | revoke (admin address : Address) (role : Role)
deriving DecidableEq

namespace RoleCall

def address : RoleCall → Address
  | .assign _ address _ => address
  | .revoke _ address _ => address

def role : RoleCall → Role
  | .assign _ _ role => role
  | .revoke _ _ role => role

def assigns : RoleCall → Bool
  | .assign _ _ _ => true
  | .revoke _ _ _ => false

end RoleCall

def roleStep (c : Env × RoleCall) : RoleM Unit :=
  match c.2 with
  | .assign admin address role => assignRole c.1 admin address role
  | .revoke admin address role => revokeRole c.1 admin address role

/-- The storage after a run from an empty one, and the calls that returned, the last one first. -/
def after (calls : List (Env × RoleCall)) : RoleStore × List RoleCall :=
  runAll (fun c => beside (fun returned _ _ => c.2 :: returned) (roleStep c)) ({}, []) calls

/-- The last of the selected calls was an assignment. -/
def lastAssigns (select : RoleCall → Bool) (returned : List RoleCall) : Bool :=
  (returned.find? select).any RoleCall.assigns

/-- The last call for the address and the role was an assignment. -/
def granted (returned : List RoleCall) (address : Address) (role : Role) : Bool :=
  lastAssigns (fun c => c.address = address ∧ c.role = role) returned

/-- Each role is held as its own last call has it, and nothing but the roles held decides about
permissions. -/
structure RoleLaw (calls : List (Env × RoleCall)) : Prop where
  held : ∀ address role, hasRole (after calls).1 address role = granted (after calls).2 address role
  permitted : ∀ others address other permission,
    (∀ role, granted (after calls).2 address role = granted (after others).2 other role) →
      hasPermission (after calls).1 address permission = hasPermission (after others).1 other permission

/-! ## What the calls do -/

variable {env : Env} {s t : RoleStore} {v : Unit} {admin address : Address} {role : Role}
  {c : Env × RoleCall} {returned : List RoleCall} {calls : List (Env × RoleCall)}

theorem hasPermission_eq (s : RoleStore) (address : Address) (permission : Permission) :
    hasPermission s address permission = false := by
  unfold hasPermission hasRoleInternal
  simp

/-- Writing the one entry of an address decides about all its roles and about no other address. -/
theorem hasRole_setAssignment (s : RoleStore) (address a : Address) (role r : Role)
    (assignment : Option RoleAssignment) :
    hasRole (s.setAssignment address (roleToSymbol role) assignment) a r =
      if a = address then assignment.isSome else hasRole s a r := by
  unfold hasRole RoleStore.setAssignment roleToSymbol
  split_ifs with ha
  · subst ha
    simp
  · simp [ha]

theorem assignRole_ok (hrun : assignRole env admin address role s = .ok (v, t)) (a : Address) (r : Role) :
    hasRole t a r = if a = address then true else hasRole s a r := by
  obtain ⟨_, -, -, -, hrun⟩ := requireAdmin_bind.1 hrun
  obtain ⟨_, u, hwrite, hlist⟩ := bind_ok.1 hrun
  obtain rfl := modify_ok.1 hwrite
  obtain rfl := modify_ok.1 hlist
  exact hasRole_setAssignment s address a role r _

theorem revokeRole_ok (hrun : revokeRole env admin address role s = .ok (v, t)) (a : Address) (r : Role) :
    hasRole t a r = if a = address then false else hasRole s a r := by
  obtain ⟨_, -, -, -, hrun⟩ := requireAdmin_bind.1 hrun
  obtain ⟨_, u, hwrite, hlist⟩ := bind_ok.1 hrun
  obtain rfl := modify_ok.1 hwrite
  obtain rfl := modify_ok.1 hlist
  exact hasRole_setAssignment s address a role r none

theorem roleStep_ok (hrun : roleStep c s = .ok (v, t)) (a : Address) (r : Role) :
    hasRole t a r = if a = c.2.address then c.2.assigns else hasRole s a r := by
  obtain ⟨env, call⟩ := c
  cases call with
  | assign admin address role =>
      have hassign : assignRole env admin address role s = .ok (v, t) := hrun
      exact assignRole_ok hassign a r
  | revoke admin address role =>
      have hrevoke : revokeRole env admin address role s = .ok (v, t) := hrun
      exact revokeRole_ok hrevoke a r

/-! ## The law -/

/-- What is held is decided by the last call for the address. -/
theorem hasRole_after (calls : List (Env × RoleCall)) (address : Address) (role : Role) :
    hasRole (after calls).1 address role =
      lastAssigns (fun c => c.address = address) (after calls).2 := by
  have hstep : ∀ p c a q, hasRole p.1 address role = lastAssigns (fun c => c.address = address) p.2 →
      beside (fun returned _ _ => c.2 :: returned) (roleStep c) p = .ok (a, q) →
      hasRole q.1 address role = lastAssigns (fun c => c.address = address) q.2 := by
    rintro ⟨s, returned⟩ c a ⟨t, noted⟩ hbefore hrun
    obtain ⟨hcall, rfl⟩ := beside_ok.1 hrun
    rw [roleStep_ok hcall address role]
    unfold lastAssigns at hbefore ⊢
    rw [List.find?_cons]
    by_cases ha : c.2.address = address
    · simp [ha]
    · simp only [ha, decide_false, Ne.symm ha, if_false]
      exact hbefore
  exact runAll_invariant hstep rfl calls

/-- The first entry that passes a test passes a second one: it is the first to pass both. -/
theorem find?_and {α : Type} {p q : α → Bool} {l : List α} {a : α} (h : l.find? p = some a)
    (hq : q a = true) : l.find? (fun b => p b && q b) = some a := by
  induction l with
  | nil => cases h
  | cons b l ih =>
      rw [List.find?_cons] at h ⊢
      cases hp : p b with
      | true =>
          rw [hp] at h
          obtain rfl := Option.some.inj h
          simp [hq]
      | false =>
          rw [hp] at h
          simpa using ih h

theorem lastAssigns_granted (returned : List RoleCall) (address : Address)
    (hall : ∀ role role', granted returned address role = granted returned address role') (role : Role) :
    lastAssigns (fun c => c.address = address) returned = granted returned address role := by
  cases hlast : returned.find? fun c => c.address = address with
  | none =>
      have hnone : returned.find? (fun c => decide (c.address = address ∧ c.role = role)) = none := by
        rw [List.find?_eq_none] at hlast ⊢
        intro c hc
        have := hlast c hc
        simp_all
      unfold granted lastAssigns
      rw [hlast, hnone]
  | some c =>
      rw [hall role c.role]
      have hown := find?_and (q := fun d => decide (d.role = c.role)) hlast (by simp)
      unfold granted lastAssigns
      simp only [Bool.decide_and]
      rw [hlast, hown]

/-- The roles are kept apart exactly in the runs that leave every address with all roles or with
none. -/
theorem role_law_iff (calls : List (Env × RoleCall)) :
    RoleLaw calls ↔
      ∀ address role role', granted (after calls).2 address role = granted (after calls).2 address role' := by
  constructor
  · intro h address role role'
    rw [← h.held, ← h.held, hasRole_after, hasRole_after]
  · intro h
    refine ⟨fun address role => ?_, fun others address other permission _ => ?_⟩
    · rw [hasRole_after]
      exact lastAssigns_granted _ address (h address) role
    · rw [hasPermission_eq, hasPermission_eq]

/-- Address 5 becomes an auditor. -/
def auditorAssigned : List (Env × RoleCall) :=
  [({ sampleEnv 10 0 with config := { admin := some 1 } }, .assign 1 5 .auditor)]

theorem role_law_fails : ¬RoleLaw auditorAssigned := by
  intro h
  have hheld := h.held 5 .admin
  revert hheld
  decide +kernel

end StellarSplit.Split.Roles
