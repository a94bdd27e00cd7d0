import StellarSplit.Lib.Registry
import StellarSplit.Lib.Runs
import StellarSplit.Split.Lock

/-!
# Emergency conditions and recovery plans

Named conditions are registered with a severity, triggered and cleared; a recovery plan
lists the conditions that are active when it is made and is final once its steps are
done. Before the contract may be unpaused there has to be a final plan if a critical
condition is active. The check asks neither which conditions the plan lists nor when they
were triggered, and it knows the severity of a condition only while it is registered.
-/

namespace StellarSplit.Split.Emergency

open Exec Function Machine Registry

/-! ## The contract -/

inductive PauseSeverity where
  | info | warning | critical
deriving DecidableEq, Repr

def PauseSeverity.rank : PauseSeverity → ℕ
  | .info => 0
  | .warning => 1
  | .critical => 2

structure PauseCondition where
  id : String
  description : String
  severity : PauseSeverity
  autoPause : Bool
  triggerAuthority : Option Address
deriving DecidableEq, Repr

structure RecoveryStep where
  description : String
  completed : Bool
  completedBy : Option Address
  completedAt : ℕ
deriving DecidableEq, Repr

structure RecoveryPlan where
  conditionIds : List String
  steps : List RecoveryStep
  initiatedBy : Address
  createdAtLedger : ℕ
  createdAtTs : ℕ
  finalised : Bool
deriving DecidableEq, Repr

structure PauseAnalytics where
  totalPauseCount : ℕ := 0
  totalUnpauseCount : ℕ := 0
  cumulativePauseSecs : ℕ := 0
  lastPausedAt : ℕ := 0
  lastUnpausedAt : ℕ := 0
  criticalTriggerCount : ℕ := 0
deriving DecidableEq, Repr

/-- The storage of the module, with the pause flag that its caller writes for it. -/
structure EmergencyStore where
  conditions : List PauseCondition := []
  active : List String := []
  recovery : Option RecoveryPlan := none
  analytics : PauseAnalytics := {}
  lastPauseTs : ℕ := 0
  paused : Bool := false

abbrev EmergencyM (α : Type) := Call EmergencyStore SplitFault α

def maxPauseConditions : ℕ := 20

def maxRecoverySteps : ℕ := 10

namespace EmergencyStore

def getCondition (s : EmergencyStore) (id : String) : Option PauseCondition :=
  s.conditions.find? fun c => c.id = id

/-- An active condition that is registered with this severity or a higher one. -/
def hasActiveConditionsAtSeverity (s : EmergencyStore) (minSeverity : PauseSeverity) : Bool :=
  s.active.any fun id =>
    (s.getCondition id).any fun c => decide (minSeverity.rank ≤ c.severity.rank)

end EmergencyStore

def registerCondition (id description : String) (severity : PauseSeverity) (autoPause : Bool)
    (triggerAuthority : Option Address) : EmergencyM Unit := do
  let s ← get
  require (∀ c ∈ s.conditions, c.id ≠ id) (.panic "condition id already registered")
  require (s.conditions.length < maxPauseConditions) (.panic "max pause conditions reached")
  let condition : PauseCondition :=
    { id := id, description := description, severity := severity, autoPause := autoPause,
      triggerAuthority := triggerAuthority }
  set { s with conditions := s.conditions ++ [condition] }

def unregisterCondition (id : String) : EmergencyM Unit := do
  let s ← get
  require (∃ c ∈ s.conditions, c.id = id) (.panic "condition not found")
  set { s with conditions := s.conditions.filter fun c => c.id ≠ id }

def recordPauseAnalytics (env : Env) : EmergencyM Unit :=
  modify fun s => { s with
    analytics := { s.analytics with
      totalPauseCount := satAddU32 s.analytics.totalPauseCount 1
      lastPausedAt := env.now }
    lastPauseTs := env.now }

/-- The call pauses the contract when it triggers a critical condition that asks for it. What the
subscribers do when they are notified has no effect here. -/
def triggerCondition (env : Env) (caller : Address) (conditionId : String) (isCurrentlyPaused : Bool) :
    EmergencyM Bool := do
  let s ← get
  let condition ← orPanic (s.getCondition conditionId) "condition not registered"
  require (∀ authority ∈ condition.triggerAuthority, caller = authority)
    (.panic "caller not authorised to trigger condition")
  onlyIf (conditionId ∉ s.active) do
    modify fun s => { s with active := s.active ++ [conditionId] }
  if condition.autoPause = true ∧ condition.severity = .critical ∧ isCurrentlyPaused = false then
    modify fun s => { s with paused := true }
    recordPauseAnalytics env
    pure true
  else pure false

def clearCondition (conditionId : String) : EmergencyM Unit := do
  let s ← get
  let newActive := s.active.filter fun a => a ≠ conditionId
  require (newActive.length < s.active.length) (.panic "condition not active")
  set { s with active := newActive }

def initiateRecovery (env : Env) (admin : Address) (steps : List String) : EmergencyM Unit := do
  let s ← get
  require (s.recovery.isNone = true) (.panic "recovery plan already active")
  require (steps ≠ []) (.panic "recovery plan must have at least one step")
  require (steps.length ≤ maxRecoverySteps) (.panic "too many recovery steps")
  set { s with
    recovery := some
      { conditionIds := s.active
        steps := steps.map fun description =>
          { description := description, completed := false, completedBy := none, completedAt := 0 }
        initiatedBy := admin, createdAtLedger := env.sequence, createdAtTs := env.now
        finalised := false } }

def completeRecoveryStep (env : Env) (admin : Address) (stepIndex : ℕ) : EmergencyM Unit := do
  let s ← get
  let plan ← orPanic s.recovery "no active recovery plan"
  require (plan.finalised = false) (.panic "recovery plan already finalised")
  let step ← orPanic plan.steps[stepIndex]? "invalid step index"
  require (step.completed = false) (.panic "step already completed")
  let steps := plan.steps.set stepIndex
    { step with completed := true, completedBy := some admin, completedAt := env.now }
  set { s with
    recovery := some { plan with
      steps := steps, finalised := steps.all (·.completed) } }

def cancelRecovery : EmergencyM Unit := do
  let s ← get
  require (s.recovery.isSome = true) (.panic "no active recovery plan")
  set { s with recovery := none }

/-- The check before an unpause. -/
def assertRecoveryComplete (s : EmergencyStore) : Except SplitFault Unit :=
  if s.hasActiveConditionsAtSeverity .critical then
    match s.recovery with
    | some plan => if plan.finalised then .ok () else .error (.error .recoveryIncomplete)
    | none => .error (.error .recoveryIncomplete)
  else .ok ()

/-! ## Runs -/

inductive EmergencyCall where
  | register (id description : String) (severity : PauseSeverity) (autoPause : Bool)
      (triggerAuthority : Option Address)
  | unregister (id : String)
  | trigger (caller : Address) (id : String) (isCurrentlyPaused : Bool)
  | clear (id : String)
  | initiate (admin : Address) (steps : List String)
  | complete (admin : Address) (stepIndex : ℕ)
  | cancel
deriving DecidableEq

def emergencyStep (c : Env × EmergencyCall) : EmergencyM Unit :=
  match c.2 with
  | .register id description severity autoPause triggerAuthority =>
      registerCondition id description severity autoPause triggerAuthority
  | .unregister id => unregisterCondition id
  | .trigger caller id isCurrentlyPaused => ignore (triggerCondition c.1 caller id isCurrentlyPaused)
  | .clear id => clearCondition id
  | .initiate admin steps => initiateRecovery c.1 admin steps
  | .complete admin stepIndex => completeRecoveryStep c.1 admin stepIndex
  | .cancel => cancelRecovery

/-- What the calls so far did: how many returned, for each condition that was triggered and not
cleared the number of its latest trigger with its severity then, and the number of the latest
call that made a plan. -/
structure Notes where
  count : ℕ := 0
  trigger : String → Option (ℕ × PauseSeverity) := fun _ => none
  initiated : ℕ := 0

def Notes.next (call : EmergencyCall) (n : Notes) (s : EmergencyStore) : Notes :=
  match call with
  | .trigger _ id _ =>
      { n with
        count := n.count + 1
        trigger := update n.trigger id ((s.getCondition id).map fun c => (n.count, c.severity)) }
  | .clear id => { n with count := n.count + 1, trigger := update n.trigger id none }
  | .initiate _ _ => { n with count := n.count + 1, initiated := n.count }
  | _ => { n with count := n.count + 1 }

/-- An emergency call with the notes kept beside the storage. -/
def notedStep (c : Env × EmergencyCall) : Call (EmergencyStore × Notes) SplitFault Unit :=
  beside (fun n s _ => n.next c.2 s) (emergencyStep c)

abbrev after (calls : List (Env × EmergencyCall)) : EmergencyStore × Notes := runAll notedStep ({}, {}) calls

/-! ## The law -/

def EmergencyStore.RegisteredCritical (s : EmergencyStore) (id : String) : Prop :=
  ∃ c, s.getCondition id = some c ∧ c.severity = .critical

/-- The condition was triggered and not cleared, and it is critical: it was so when it was triggered
last, or it is registered as such now. -/
def CriticalActive (p : EmergencyStore × Notes) (id : String) : Prop :=
  ∃ at' severity, p.2.trigger id = some (at', severity) ∧
    (severity = .critical ∨ p.1.RegisteredCritical id)

/-- A final plan lists the condition, and it was made after the latest trigger. -/
def Recovered (p : EmergencyStore × Notes) (id : String) : Prop :=
  ∃ plan, p.1.recovery = some plan ∧ plan.finalised = true ∧ id ∈ plan.conditionIds ∧
    ∀ at' severity, p.2.trigger id = some (at', severity) → at' < p.2.initiated

/-- Whenever the check passes, every critical condition has been recovered from. -/
def RecoveryLaw (calls : List (Env × EmergencyCall)) : Prop :=
  ∀ xs, xs <+: calls → assertRecoveryComplete (after xs).1 = .ok () →
    ∀ id, CriticalActive (after xs) id → Recovered (after xs) id

/-- No critical condition is triggered beside a final plan; the last step of a plan is done only if no
critical condition was triggered since the plan was made; and a critical condition is neither
registered nor unregistered while it is active. -/
def Orderly (p : EmergencyStore × Notes) (c : Env × EmergencyCall) : Prop :=
  match c.2 with
  | .register id _ severity _ _ => severity = .critical → id ∉ p.1.active
  | .unregister id => id ∈ p.1.active → ¬p.1.RegisteredCritical id
  | .trigger _ id _ => p.1.RegisteredCritical id → ∀ plan ∈ p.1.recovery, plan.finalised = false
  | .complete _ stepIndex =>
      (∀ plan ∈ p.1.recovery, ∀ i step, plan.steps[i]? = some step → i ≠ stepIndex → step.completed = true) →
        ∀ id at', p.2.trigger id = some (at', .critical) → at' < p.2.initiated
  | _ => True

/-! ## What the calls do -/

variable {env : Env} {s t : EmergencyStore} {n : Notes} {v : Unit} {id j : String} {c : Env × EmergencyCall}
  {calls : List (Env × EmergencyCall)}

theorem registerCondition_ok {description : String} {severity : PauseSeverity} {autoPause : Bool}
    {authority : Option Address}
    (hrun : registerCondition id description severity autoPause authority s = .ok (v, t)) :
    s.getCondition id = none ∧ ∃ c, c.id = id ∧ c.severity = severity ∧
      t = { s with conditions := s.conditions ++ [c] } := by
  rw [registerCondition, get_bind, require_bind, require_bind, set_ok] at hrun
  obtain ⟨hnew, -, rfl⟩ := hrun
  refine ⟨List.find?_eq_none.2 fun c hc => by simpa using hnew c hc, _, rfl, rfl, rfl⟩

theorem unregisterCondition_ok (hrun : unregisterCondition id s = .ok (v, t)) :
    t = { s with conditions := s.conditions.filter fun c => c.id ≠ id } := by
  rw [unregisterCondition, get_bind, require_bind, set_ok] at hrun
  exact hrun.2.symm

/-- A trigger makes the condition active and changes neither the registrations nor the plan. -/
theorem triggerCondition_ok {caller : Address} {isPaused newly : Bool}
    (hrun : triggerCondition env caller id isPaused s = .ok (newly, t)) :
    (∃ c, s.getCondition id = some c) ∧ t.conditions = s.conditions ∧ t.recovery = s.recovery ∧
      ∀ a, a ∈ t.active ↔ a = id ∨ a ∈ s.active := by
  simp only [triggerCondition, get_bind, orPanic_bind, require_bind] at hrun
  obtain ⟨c, hc, -, hrun⟩ := hrun
  obtain ⟨_, u, hactive, hrun⟩ := bind_ok.1 hrun
  have hsame : t.conditions = u.conditions ∧ t.recovery = u.recovery ∧ t.active = u.active := by
    split_ifs at hrun
    · obtain ⟨_, _, hpause, hrun⟩ := bind_ok.1 hrun
      obtain rfl := modify_ok.1 hpause
      obtain ⟨_, _, hanalytics, hrun⟩ := bind_ok.1 hrun
      obtain rfl := modify_ok.1 hanalytics
      obtain ⟨-, rfl⟩ := pure_ok.1 hrun
      exact ⟨rfl, rfl, rfl⟩
    · obtain ⟨-, rfl⟩ := pure_ok.1 hrun
      exact ⟨rfl, rfl, rfl⟩
  obtain ⟨hconditions, hrecovery, hsame⟩ := hsame
  rcases onlyIf_ok.1 hactive with ⟨-, hpush⟩ | ⟨hold, rfl⟩
  · obtain rfl := modify_ok.1 hpush
    refine ⟨⟨c, hc⟩, hconditions, hrecovery, fun a => ?_⟩
    rw [hsame]
    simp [or_comm]
  · refine ⟨⟨c, hc⟩, hconditions, hrecovery, fun a => ?_⟩
    rw [hsame]
    refine ⟨.inr, ?_⟩
    rintro (rfl | ha)
    · exact not_not.1 hold
    · exact ha

theorem clearCondition_ok (hrun : clearCondition id s = .ok (v, t)) :
    t = { s with active := s.active.filter fun a => a ≠ id } := by
  rw [clearCondition, get_bind, require_bind, set_ok] at hrun
  exact hrun.2.symm

theorem initiateRecovery_ok {admin : Address} {steps : List String}
    (hrun : initiateRecovery env admin steps s = .ok (v, t)) :
    s.recovery = none ∧ ∃ plan, plan.conditionIds = s.active ∧ plan.finalised = false ∧
      t = { s with recovery := some plan } := by
  simp only [initiateRecovery, get_bind, require_bind, set_ok, Option.isNone_iff_eq_none] at hrun
  obtain ⟨hnone, -, -, rfl⟩ := hrun
  exact ⟨hnone, _, rfl, rfl, rfl⟩

theorem completeRecoveryStep_ok {admin : Address} {stepIndex : ℕ}
    (hrun : completeRecoveryStep env admin stepIndex s = .ok (v, t)) :
    ∃ plan plan', s.recovery = some plan ∧ t = { s with recovery := some plan' } ∧
      plan'.conditionIds = plan.conditionIds ∧
      (plan'.finalised = true → ∀ i step, plan.steps[i]? = some step → i ≠ stepIndex → step.completed = true) := by
  simp only [completeRecoveryStep, get_bind, orPanic_bind, require_bind, set_ok] at hrun
  obtain ⟨plan, hplan, -, step, hstep, -, rfl⟩ := hrun
  refine ⟨plan, _, hplan, rfl, rfl, fun hall i other hother hne => ?_⟩
  rw [List.all_eq_true] at hall
  refine hall other (List.mem_of_getElem? (i := i) ?_)
  rw [List.getElem?_set_ne (Ne.symm hne), hother]

theorem cancelRecovery_ok (hrun : cancelRecovery s = .ok (v, t)) : t = { s with recovery := none } := by
  rw [cancelRecovery, get_bind, require_bind, set_ok] at hrun
  exact hrun.2.symm

/-! ## Registrations -/

theorem getCondition_append {new : PauseCondition} (hnone : s.getCondition new.id = none) (j : String) :
    EmergencyStore.getCondition { s with conditions := s.conditions ++ [new] } j =
      if j = new.id then some new else s.getCondition j := by
  unfold EmergencyStore.getCondition at hnone ⊢
  rw [List.find?_append]
  split_ifs with hj
  · subst hj
    simp [hnone]
  · simp [Ne.symm hj]

theorem getCondition_filter (s : EmergencyStore) (id j : String) :
    EmergencyStore.getCondition { s with conditions := s.conditions.filter fun c => c.id ≠ id } j =
      if j = id then none else s.getCondition j := by
  unfold EmergencyStore.getCondition
  rw [List.find?_filter]
  split_ifs with hj
  · subst hj
    rw [List.find?_eq_none]
    simp
  · congr 1
    funext c
    by_cases hc : c.id = j <;> simp [hc, hj]

/-! ## The notes and the storage -/

/-- In an orderly run the active conditions are the ones triggered and not cleared, their severity has
not changed since, and a plan lists those of them that were triggered before it was made: all the
critical ones once it is final. -/
structure Tracked (p : EmergencyStore × Notes) : Prop where
  active : ∀ id, id ∈ p.1.active ↔ (p.2.trigger id).isSome = true
  severity : ∀ id at' severity, p.2.trigger id = some (at', severity) →
    (severity = .critical ↔ p.1.RegisteredCritical id)
  count : ∀ id at' severity, p.2.trigger id = some (at', severity) → at' < p.2.count
  initiated : p.2.initiated ≤ p.2.count
  listed : ∀ plan ∈ p.1.recovery, ∀ id at' severity, p.2.trigger id = some (at', severity) →
    at' < p.2.initiated → id ∈ plan.conditionIds
  final : ∀ plan ∈ p.1.recovery, plan.finalised = true → ∀ id at',
    p.2.trigger id = some (at', .critical) → at' < p.2.initiated

namespace Tracked

theorem start : Tracked ({}, {}) :=
  ⟨fun _ => by simp, nofun, nofun, le_rfl, nofun, nofun⟩

theorem count_lt (h : Tracked (s, n)) :
    ∀ id at' severity, n.trigger id = some (at', severity) → at' < n.count + 1 :=
  fun id at' severity hat => (h.count id at' severity hat).trans (Nat.lt_succ_self _)

/-- A call that changes only the registrations keeps the severities of the active conditions. -/
theorem register (h : Tracked (s, n)) (conditions : List PauseCondition)
    (hsame : ∀ id, id ∈ s.active → (EmergencyStore.RegisteredCritical { s with conditions := conditions } id ↔
      s.RegisteredCritical id)) :
    Tracked ({ s with conditions := conditions }, { n with count := n.count + 1 }) := by
  refine ⟨h.active, fun id at' severity hat => ?_, h.count_lt, h.initiated.trans (Nat.le_succ _), h.listed,
    h.final⟩
  have hactive : id ∈ s.active := (h.active id).2 (by
    have hat' : n.trigger id = some (at', severity) := hat
    simp [hat'])
  rw [h.severity id at' severity hat, hsame id hactive]

theorem trigger (h : Tracked (s, n)) {c : PauseCondition} (hc : s.getCondition id = some c)
    (hconditions : t.conditions = s.conditions) (hrecovery : t.recovery = s.recovery)
    (hactive : ∀ a, a ∈ t.active ↔ a = id ∨ a ∈ s.active)
    (horderly : s.RegisteredCritical id → ∀ plan ∈ s.recovery, plan.finalised = false) :
    Tracked (t, { n with count := n.count + 1, trigger := update n.trigger id (some (n.count, c.severity)) }) := by
  have hregistered : ∀ j, t.RegisteredCritical j ↔ s.RegisteredCritical j := by
    intro j
    unfold EmergencyStore.RegisteredCritical EmergencyStore.getCondition
    rw [hconditions]
  have hle : n.initiated ≤ n.count := h.initiated
  refine ⟨fun j => ?_, fun j at' severity hat => ?_, fun j at' severity hat => ?_,
    hle.trans (Nat.le_succ _), fun plan hplan j at' severity hat hlt => ?_,
    fun plan hplan hfinal j at' hat => ?_⟩
  · rw [hactive]
    by_cases hj : j = id
    · simp [hj]
    · simp only [hj, false_or, update_of_ne hj]
      exact h.active j
  · rw [hregistered]
    rcases update_cases hat with ⟨rfl, heq⟩ | ⟨-, hold⟩
    · obtain ⟨-, rfl⟩ := Prod.mk.inj heq
      exact ⟨fun hcritical => ⟨c, hc, hcritical⟩, fun ⟨c', hc', hcritical⟩ => by
        rwa [Option.some.inj (hc.symm.trans hc')]⟩
    · exact h.severity j at' severity hold
  · rcases update_cases hat with ⟨-, heq⟩ | ⟨-, hold⟩
    · obtain ⟨rfl, -⟩ := Prod.mk.inj heq
      exact Nat.lt_succ_self _
    · exact h.count_lt j at' severity hold
  · rw [hrecovery] at hplan
    rcases update_cases hat with ⟨-, heq⟩ | ⟨-, hold⟩
    · obtain ⟨rfl, -⟩ := Prod.mk.inj heq
      exact absurd hlt (not_lt.2 hle)
    · exact h.listed plan hplan j at' severity hold hlt
  · rw [hrecovery] at hplan
    rcases update_cases hat with ⟨-, heq⟩ | ⟨-, hold⟩
    · obtain ⟨-, hcritical⟩ := Prod.mk.inj heq
      rw [horderly ⟨c, hc, hcritical.symm⟩ plan hplan] at hfinal
      cases hfinal
    · exact h.final plan hplan hfinal j at' hold

theorem clear (h : Tracked (s, n)) (id : String) :
    Tracked ({ s with active := s.active.filter fun a => a ≠ id },
      { n with count := n.count + 1, trigger := update n.trigger id none }) := by
  have hkeep : ∀ j at' severity, update n.trigger id none j = some (at', severity) →
      n.trigger j = some (at', severity) := by
    intro j at' severity hat
    by_cases hj : j = id
    · subst hj
      simp at hat
    · rwa [update_of_ne hj] at hat
  refine ⟨fun j => ?_, fun j at' severity hat => h.severity j at' severity (hkeep j at' severity hat),
    fun j at' severity hat => h.count_lt j at' severity (hkeep j at' severity hat),
    h.initiated.trans (Nat.le_succ _),
    fun plan hplan j at' severity hat => h.listed plan hplan j at' severity (hkeep j at' severity hat),
    fun plan hplan hfinal j at' hat => h.final plan hplan hfinal j at' (hkeep j at' .critical hat)⟩
  have hbefore : j ∈ s.active ↔ (n.trigger j).isSome = true := h.active j
  by_cases hj : j = id
  · simp [hj]
  · simpa [hj] using hbefore

theorem initiate (h : Tracked (s, n)) {plan : RecoveryPlan} (hids : plan.conditionIds = s.active)
    (hopen : plan.finalised = false) :
    Tracked ({ s with recovery := some plan }, { n with count := n.count + 1, initiated := n.count }) := by
  refine ⟨h.active, h.severity, h.count_lt, Nat.le_succ _, ?_, ?_⟩
  · rintro _ ⟨⟩ id at' severity hat -
    have hat' : n.trigger id = some (at', severity) := hat
    rw [hids]
    exact (h.active id).2 (by simp [hat'])
  · rintro _ ⟨⟩ hfinal
    rw [hopen] at hfinal
    cases hfinal

theorem complete (h : Tracked (s, n)) {plan plan' : RecoveryPlan} (hplan : s.recovery = some plan)
    (hids : plan'.conditionIds = plan.conditionIds)
    (hfinal : plan'.finalised = true → ∀ id at', n.trigger id = some (at', .critical) → at' < n.initiated) :
    Tracked ({ s with recovery := some plan' }, { n with count := n.count + 1 }) := by
  refine ⟨h.active, h.severity, h.count_lt, h.initiated.trans (Nat.le_succ _), ?_, ?_⟩
  · rintro _ ⟨⟩
    rw [hids]
    exact h.listed plan hplan
  · rintro _ ⟨⟩
    exact hfinal

theorem cancel (h : Tracked (s, n)) :
    Tracked ({ s with recovery := none }, { n with count := n.count + 1 }) :=
  ⟨h.active, h.severity, h.count_lt, h.initiated.trans (Nat.le_succ _), nofun, nofun⟩

end Tracked

theorem notedStep_tracked {p q : EmergencyStore × Notes} (hp : Tracked p) (horderly : Orderly p c)
    (hrun : notedStep c p = .ok (v, q)) : Tracked q := by
  obtain ⟨s, n⟩ := p
  obtain ⟨t, m⟩ := q
  obtain ⟨hcall, rfl⟩ := beside_ok.1 hrun
  obtain ⟨env, call⟩ := c
  cases call with
  | register id description severity autoPause authority =>
      obtain ⟨hnone, c, rfl, rfl, rfl⟩ := registerCondition_ok hcall
      refine hp.register _ fun j hj => ?_
      unfold EmergencyStore.RegisteredCritical
      rw [getCondition_append hnone]
      by_cases hid : j = c.id
      · subst hid
        have hless : c.severity ≠ .critical := fun hcritical => horderly hcritical hj
        simp [hnone, hless]
      · simp [hid]
  | unregister id =>
      obtain rfl := unregisterCondition_ok hcall
      refine hp.register _ fun j hj => ?_
      by_cases hid : j = id
      · subst hid
        refine ⟨fun ⟨c, hc, _⟩ => ?_, fun hcritical => absurd hcritical (horderly hj)⟩
        rw [getCondition_filter, if_pos rfl] at hc
        cases hc
      · unfold EmergencyStore.RegisteredCritical
        rw [getCondition_filter, if_neg hid]
  | trigger caller id isPaused =>
      obtain ⟨newly, h⟩ := ignore_ok.1 hcall
      obtain ⟨⟨c, hc⟩, hconditions, hrecovery, hactive⟩ := triggerCondition_ok h
      have hnext := hp.trigger hc hconditions hrecovery hactive horderly
      simpa [Notes.next, hc] using hnext
  | clear id =>
      obtain rfl := clearCondition_ok hcall
      exact hp.clear id
  | initiate admin steps =>
      obtain ⟨-, plan, hids, hopen, rfl⟩ := initiateRecovery_ok hcall
      exact hp.initiate hids hopen
  | complete admin stepIndex =>
      obtain ⟨plan, plan', hplan, rfl, hids, hothers⟩ := completeRecoveryStep_ok hcall
      refine hp.complete hplan hids fun hfinal => horderly ?_
      intro plan₁ hplan₁
      obtain rfl := Option.some.inj (hplan.symm.trans hplan₁)
      exact hothers hfinal
  | cancel =>
      obtain rfl := cancelRecovery_ok hcall
      exact hp.cancel

/-- Where the notes agree with the storage, the check looks at the right plan. -/
theorem Tracked.recovered {p : EmergencyStore × Notes} (hp : Tracked p)
    (hcheck : assertRecoveryComplete p.1 = .ok ()) (hid : CriticalActive p id) : Recovered p id := by
  obtain ⟨at', severity, htrigger, hcritical⟩ := hid
  have hnow : p.1.RegisteredCritical id :=
    hcritical.elim (hp.severity id at' severity htrigger).1 fun h => h
  have hthen : severity = .critical := (hp.severity id at' severity htrigger).2 hnow
  subst hthen
  have hactive : p.1.hasActiveConditionsAtSeverity .critical = true := by
    obtain ⟨c, hc, hseverity⟩ := hnow
    refine List.any_eq_true.2 ⟨id, (hp.active id).2 (by simp [htrigger]), ?_⟩
    simp [hc, hseverity]
  rw [assertRecoveryComplete, if_pos hactive] at hcheck
  cases hplan : p.1.recovery with
  | none =>
      rw [hplan] at hcheck
      cases hcheck
  | some plan =>
      rw [hplan] at hcheck
      by_cases hfinal : plan.finalised = true
      · have hlt := hp.final plan hplan hfinal id at' htrigger
        refine ⟨plan, hplan, hfinal, hp.listed plan hplan id at' .critical htrigger hlt, ?_⟩
        intro at'' severity htrigger'
        rw [htrigger] at htrigger'
        cases htrigger'
        exact hlt
      · simp only [hfinal] at hcheck
        cases hcheck

/-- In every orderly run the check vouches for a recovery from every critical condition. -/
theorem recovery_law (h : Along Orderly notedStep ({}, {}) calls) : RecoveryLaw calls := by
  intro xs hxs hcheck id hid
  have htracked : Tracked (after xs) :=
    runAll_induction (fun _ _ _ _ hp horderly hrun => notedStep_tracked hp horderly hrun) Tracked.start
      (h.of_isPrefix hxs)
  exact htracked.recovered hcheck hid

/-- A critical condition is triggered and recovered from. -/
def recoveredOnce : List (Env × EmergencyCall) :=
  [(sampleEnv 10 0, .register "oracle" "" .critical true none), (sampleEnv 20 0, .trigger 5 "oracle" false),
    (sampleEnv 30 0, .initiate 1 ["fix"]), (sampleEnv 40 0, .complete 1 0)]

theorem recoveredOnce_orderly : Along Orderly notedStep ({}, {}) recoveredOnce := by
  refine ⟨fun _ _ => List.not_mem_nil, fun _ _ plan hplan => ?_, fun _ => trivial, fun _ _ id at' hat => ?_,
    trivial⟩
  · cases hplan
  · by_cases hid : id = "oracle"
    · subst hid
      have hone : (after (recoveredOnce.take 3)).2.trigger "oracle" = some (1, .critical) := by decide +kernel
      have hat' : at' = 1 := by simpa using congrArg (Option.map Prod.fst) (hat.symm.trans hone)
      rw [hat']
      decide +kernel
    · have hnone : (after (recoveredOnce.take 3)).2.trigger id = none := update_of_ne hid _ _
      exact absurd (hat.symm.trans hnone) nofun

/-- After the recovery the check passes, and the plan covers the condition. -/
theorem recovery_law_sample :
    assertRecoveryComplete (after recoveredOnce).1 = .ok () ∧ RecoveryLaw recoveredOnce :=
  ⟨by decide +kernel, recovery_law recoveredOnce_orderly⟩

/-- A second critical condition is triggered beside the plan that recovered from the first. -/
def staleRun : List (Env × EmergencyCall) :=
  recoveredOnce ++ [(sampleEnv 50 0, .register "bridge" "" .critical true none),
    (sampleEnv 60 0, .trigger 5 "bridge" false)]

/-- The check passes for a condition that no plan has listed. -/
theorem recovery_law_fails : ¬RecoveryLaw staleRun := by
  intro h
  have hactive : CriticalActive (after staleRun) "bridge" :=
    ⟨5, .critical, by decide +kernel, .inl rfl⟩
  obtain ⟨plan, hplan, -, hlisted, -⟩ := h staleRun (List.prefix_refl _) (by decide +kernel) "bridge" hactive
  have hids : (after staleRun).1.recovery.map RecoveryPlan.conditionIds = some ["oracle"] := by
    decide +kernel
  rw [hplan] at hids
  rw [Option.some.inj hids] at hlisted
  exact absurd hlisted (by decide)

end StellarSplit.Split.Emergency
