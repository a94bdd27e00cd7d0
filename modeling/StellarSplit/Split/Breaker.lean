import StellarSplit.Lib.Trim
import StellarSplit.Lib.Runs
import StellarSplit.Split.Multisig

/-!
# The circuit breaker

The breaker is closed, open, or half open while it recovers. The blocking flag is
older than the state: a contract that only ever set the flag has no stored state,
and its state is read off the flag. The last transitions are kept in a log. The
end of a recovery is a saturating sum, so in the last ledger a recovery can be
completed at once.
-/

namespace StellarSplit.Split.Breaker

open Exec Machine Multisig Trim

/-! ## The contract -/

inductive CircuitBreakerState where
  | closed | open | halfOpen
deriving DecidableEq, Repr

structure CircuitBreakerConfig where
  failureThreshold : ℕ
  failureWindowLedgers : ℕ
  recoveryLedgers : ℕ
deriving DecidableEq, Repr

structure CircuitBreakerTransition where
  fromState : CircuitBreakerState
  toState : CircuitBreakerState
  actor : Address
  reason : String
  ledger : ℕ
  timestamp : ℕ
deriving DecidableEq, Repr

/-- The storage entries of the breaker; `active` is the blocking flag, `failures` the count of the
failure window and its start. -/
structure BreakerStore where
  active : Option Bool := none
  state : Option CircuitBreakerState := none
  config : Option CircuitBreakerConfig := none
  reason : Option String := none
  opened : Option ℕ := none
  recovery : Option ℕ := none
  failures : Option (ℕ × ℕ) := none
  history : List CircuitBreakerTransition := []
deriving DecidableEq, Repr

abbrev BreakerM (α : Type) := Call BreakerStore SplitFault α

def maxCbHistoryEntries : ℕ := 50

/-- The defaults `DEFAULT_CB_FAILURE_THRESHOLD`, `DEFAULT_CB_FAILURE_WINDOW_LEDGERS` and
`DEFAULT_CB_RECOVERY_LEDGERS`. -/
def defaultConfig : CircuitBreakerConfig where
  failureThreshold := 3
  failureWindowLedgers := 720
  recoveryLedgers := 120

namespace BreakerStore

/-- The blocking flag. -/
def isActive (s : BreakerStore) : Bool := s.active.getD false

def loadState (s : BreakerStore) : CircuitBreakerState :=
  s.state.getD (if s.isActive then .open else .closed)

def loadConfig (s : BreakerStore) : CircuitBreakerConfig := s.config.getD defaultConfig

/-- The entries that the new state decides: why and when the breaker opened, and when it started
to recover. -/
def mark (s : BreakerStore) (target : CircuitBreakerState) (reason : String) (ledger : ℕ) : BreakerStore :=
  match target with
  | .open => { s with reason := some reason, opened := some ledger, recovery := none }
  | .halfOpen => { s with recovery := some ledger }
  | .closed => { s with reason := none, opened := none, recovery := none }

/-- `transition_circuit_breaker` -/
def transition (env : AdminEnv) (target : CircuitBreakerState) (actor : Address) (reason : String)
    (s : BreakerStore) : BreakerStore :=
  { s.mark target reason env.sequence with
    state := some target
    active := some (target = .open)
    failures := none
    history := popFront maxCbHistoryEntries (s.history ++
      [{ fromState := s.loadState, toState := target, actor := actor, reason := reason,
         ledger := env.sequence, timestamp := env.now }]) }

end BreakerStore

def activateCircuitBreaker (env : AdminEnv) (admin : Address) (reason : String) : BreakerM Unit := do
  requireAdminRole env admin .superAdmin
  modify (BreakerStore.transition env .open admin reason)

def deactivateCircuitBreaker (env : AdminEnv) (admin : Address) : BreakerM Unit := do
  requireAdminRole env admin .superAdmin
  modify (BreakerStore.transition env .closed admin "manual deactivation")

def beginCircuitRecovery (env : AdminEnv) (admin : Address) : BreakerM Unit := do
  requireAdminRole env admin .superAdmin
  let s ← get
  require (s.loadState = .open) (.panic "invalid circuit breaker transition")
  modify (BreakerStore.transition env .halfOpen admin "recovery started")

def completeCircuitRecovery (env : AdminEnv) (admin : Address) : BreakerM Unit := do
  requireAdminRole env admin .superAdmin
  let s ← get
  require (s.loadState = .halfOpen) (.panic "invalid circuit breaker transition")
  require (satAddU32 (s.recovery.getD 0) s.loadConfig.recoveryLedgers ≤ env.sequence)
    (.panic "recovery period not elapsed")
  modify (BreakerStore.transition env .closed admin "recovery complete")

/-- The failures of the window and its start, with the reported failure. -/
def BreakerStore.countFailure (s : BreakerStore) (ledger : ℕ) : ℕ × ℕ :=
  let (count, windowStart) := s.failures.getD (0, ledger)
  if s.loadConfig.failureWindowLedgers ≤ ledger - windowStart then (satAddU32 0 1, ledger)
  else (satAddU32 count 1, windowStart)

def BreakerStore.shouldTrip (s : BreakerStore) (count : ℕ) : Bool :=
  match s.loadState with
  | .open => false
  | .halfOpen => true
  | .closed => 0 < s.loadConfig.failureThreshold && s.loadConfig.failureThreshold ≤ count

def reportCircuitFailure (env : AdminEnv) (reporter : Address) (reason : String) :
    BreakerM CircuitBreakerState := do
  requireAdminRole env reporter .operator
  let s ← get
  let failures := s.countFailure env.sequence
  if s.shouldTrip failures.1 then do
    modify (BreakerStore.transition env .open reporter reason)
    pure .open
  else do
    modify fun s => { s with failures := some failures }
    pure s.loadState

def setCircuitBreakerConfig (env : AdminEnv) (admin : Address) (config : CircuitBreakerConfig) :
    BreakerM Unit := do
  requireAdminRole env admin .superAdmin
  require (0 < config.failureWindowLedgers) (.panic "failure window must be positive")
  modify fun s => { s with config := some config }

/-! ## Runs -/

inductive BreakerCall where
  | activate (admin : Address) (reason : String)
  | deactivate (admin : Address)
  | beginRecovery (admin : Address)
  | completeRecovery (admin : Address)
  | reportFailure (reporter : Address) (reason : String)
  | setConfig (admin : Address) (config : CircuitBreakerConfig)
deriving DecidableEq

def breakerStep (c : AdminEnv × BreakerCall) : BreakerM Unit :=
  match c.2 with
  | .activate admin reason => activateCircuitBreaker c.1 admin reason
  | .deactivate admin => deactivateCircuitBreaker c.1 admin
  | .beginRecovery admin => beginCircuitRecovery c.1 admin
  | .completeRecovery admin => completeCircuitRecovery c.1 admin
  | .reportFailure reporter reason => ignore (reportCircuitFailure c.1 reporter reason)
  | .setConfig admin config => setCircuitBreakerConfig c.1 admin config

/-- The state after a run. -/
abbrev after (s : BreakerStore) (calls : List (AdminEnv × BreakerCall)) : BreakerStore :=
  runAll breakerStep s calls

/-! ## The law -/

/-- The call starts a recovery or reports a failure. -/
def BreakerCall.Restarts : BreakerCall → Prop
  | .beginRecovery _ => True
  | .reportFailure _ _ => True
  | _ => False

/-- The last recovery of the run began in this ledger, and no failure was reported since. -/
def Probation (s : BreakerStore) (calls : List (AdminEnv × BreakerCall)) (started : ℕ) : Prop :=
  ∃ before start since, calls = before ++ start :: since ∧
    (∃ admin, start.2 = .beginRecovery admin) ∧ (∃ r, breakerStep start (after s before) = .ok r) ∧
    start.1.sequence = started ∧
    Along (fun _ c => ¬c.2.Restarts) breakerStep (after s (before ++ [start])) since

/-- What holds in one state: the flag is the open state, a failure report reopens a breaker that
recovers, and the log is short, unbroken and ends in the state. -/
structure Sound (s : BreakerStore) : Prop where
  flag : s.isActive = true ↔ s.loadState = .open
  reopens : s.loadState = .halfOpen → ∀ env reporter reason, Permitted env reporter .operator →
    ∃ t, reportCircuitFailure env reporter reason s = .ok (.open, t) ∧ t.loadState = .open
  length : s.history.length ≤ maxCbHistoryEntries
  chain : s.history.IsChain fun a b => a.toState = b.fromState
  last : ∀ e ∈ s.history.getLast?, e.toState = s.loadState

/-- A recovery that is completed has lasted as long as it has to, without a failure. -/
def Completes (s : BreakerStore) (calls : List (AdminEnv × BreakerCall)) (c : AdminEnv × BreakerCall) :
    Prop :=
  (∃ admin, c.2 = .completeRecovery admin) → (∃ r, breakerStep c (after s calls) = .ok r) →
    (after s calls).loadState = .halfOpen ∧ ∃ started, Probation s calls started ∧
      started + (after s calls).loadConfig.recoveryLedgers ≤ c.1.sequence

structure BreakerLaw (s : BreakerStore) (calls : List (AdminEnv × BreakerCall)) : Prop where
  sound : ∀ xs, xs <+: calls → Sound (after s xs)
  completes : ∀ xs c, xs ++ [c] <+: calls → Completes s xs c

/-- The end of the recovery that the call completes is a ledger number. -/
def InRange (s : BreakerStore) (c : AdminEnv × BreakerCall) : Prop :=
  (∃ admin, c.2 = .completeRecovery admin) →
    s.recovery.getD 0 + s.loadConfig.recoveryLedgers ≤ u32Max

/-! ## What the calls do -/

variable {env : AdminEnv} {s t : BreakerStore} {v : Unit} {admin : Address} {reason : String}
  {c : AdminEnv × BreakerCall} {calls xs : List (AdminEnv × BreakerCall)}

theorem activateCircuitBreaker_ok (hrun : activateCircuitBreaker env admin reason s = .ok (v, t)) :
    t = s.transition env .open admin reason := by
  obtain ⟨-, hrun⟩ := requireAdminRole_bind.1 hrun
  exact (modify_ok.1 hrun).symm

theorem deactivateCircuitBreaker_ok (hrun : deactivateCircuitBreaker env admin s = .ok (v, t)) :
    t = s.transition env .closed admin "manual deactivation" := by
  obtain ⟨-, hrun⟩ := requireAdminRole_bind.1 hrun
  exact (modify_ok.1 hrun).symm

theorem beginCircuitRecovery_ok (hrun : beginCircuitRecovery env admin s = .ok (v, t)) :
    t = s.transition env .halfOpen admin "recovery started" := by
  simp only [beginCircuitRecovery, requireAdminRole_bind, get_bind, require_bind] at hrun
  exact (modify_ok.1 hrun.2.2).symm

theorem completeCircuitRecovery_ok (hrun : completeCircuitRecovery env admin s = .ok (v, t)) :
    s.loadState = .halfOpen ∧
      satAddU32 (s.recovery.getD 0) s.loadConfig.recoveryLedgers ≤ env.sequence ∧
      t = s.transition env .closed admin "recovery complete" := by
  simp only [completeCircuitRecovery, requireAdminRole_bind, get_bind, require_bind] at hrun
  obtain ⟨-, hstate, helapsed, hrun⟩ := hrun
  exact ⟨hstate, helapsed, (modify_ok.1 hrun).symm⟩

/-- A report opens the breaker, or it is only counted, which never happens during a recovery. -/
theorem reportCircuitFailure_ok {state : CircuitBreakerState}
    (hrun : reportCircuitFailure env admin reason s = .ok (state, t)) :
    t = s.transition env .open admin reason ∨
      (s.loadState ≠ .halfOpen ∧ ∃ failures, t = { s with failures := failures }) := by
  simp only [reportCircuitFailure, requireAdminRole_bind, get_bind] at hrun
  obtain ⟨-, hrun⟩ := hrun
  split_ifs at hrun with htrip
  · obtain ⟨_, u, hmove, hrun⟩ := bind_ok.1 hrun
    obtain ⟨-, rfl⟩ := pure_ok.1 hrun
    exact .inl (modify_ok.1 hmove).symm
  · obtain ⟨_, u, hcount, hrun⟩ := bind_ok.1 hrun
    obtain ⟨-, rfl⟩ := pure_ok.1 hrun
    refine .inr ⟨fun hhalf => htrip ?_, _, (modify_ok.1 hcount).symm⟩
    simp [BreakerStore.shouldTrip, hhalf]

theorem reportCircuitFailure_halfOpen (hstate : s.loadState = .halfOpen)
    (hpermitted : Permitted env admin .operator) :
    reportCircuitFailure env admin reason s = .ok (.open, s.transition env .open admin reason) := by
  simp only [reportCircuitFailure, requireAdminRole_bind, get_bind]
  refine ⟨hpermitted, ?_⟩
  rw [if_pos (by simp [BreakerStore.shouldTrip, hstate])]
  exact bind_ok.2 ⟨(), _, modify_ok.2 rfl, pure_ok.2 ⟨rfl, rfl⟩⟩

theorem setCircuitBreakerConfig_ok {config : CircuitBreakerConfig}
    (hrun : setCircuitBreakerConfig env admin config s = .ok (v, t)) :
    t = { s with config := some config } := by
  simp only [setCircuitBreakerConfig, requireAdminRole_bind, require_bind] at hrun
  exact (modify_ok.1 hrun.2.2).symm

/-- What a call that returns does: it moves the breaker, and to half open only when it begins a
recovery, or it leaves the machine alone. -/
theorem breakerStep_cases (hrun : breakerStep c s = .ok (v, t)) :
    (∃ target actor reason, t = s.transition c.1 target actor reason ∧
      (target = .halfOpen → ∃ admin, c.2 = .beginRecovery admin)) ∨
    (∃ failures, t = { s with failures := failures } ∧ s.loadState ≠ .halfOpen) ∨
    (∃ admin config, c.2 = .setConfig admin config ∧ t = { s with config := some config }) := by
  obtain ⟨env, call⟩ := c
  cases call with
  | activate admin reason => exact .inl ⟨_, _, _, activateCircuitBreaker_ok hrun, by simp⟩
  | deactivate admin => exact .inl ⟨_, _, _, deactivateCircuitBreaker_ok hrun, by simp⟩
  | beginRecovery admin => exact .inl ⟨_, _, _, beginCircuitRecovery_ok hrun, fun _ => ⟨admin, rfl⟩⟩
  | completeRecovery admin => exact .inl ⟨_, _, _, (completeCircuitRecovery_ok hrun).2.2, by simp⟩
  | reportFailure reporter reason =>
      obtain ⟨state, hreport⟩ := ignore_ok.1 hrun
      obtain hmoved | ⟨hstate, failures, hcounted⟩ := reportCircuitFailure_ok hreport
      · exact .inl ⟨_, _, _, hmoved, by simp⟩
      · exact .inr (.inl ⟨failures, hcounted, hstate⟩)
  | setConfig admin config => exact .inr (.inr ⟨admin, config, rfl, setCircuitBreakerConfig_ok hrun⟩)

/-! ## The entries agree -/

/-- The flag agrees with a stored state, and the log is as the law wants it. -/
structure Consistent (s : BreakerStore) : Prop where
  flag : ∀ x, s.state = some x → s.active = some (decide (x = .open))
  length : s.history.length ≤ maxCbHistoryEntries
  chain : s.history.IsChain fun a b => a.toState = b.fromState
  last : ∀ e ∈ s.history.getLast?, e.toState = s.loadState

theorem Consistent.transition (h : Consistent s) (target : CircuitBreakerState) :
    Consistent (s.transition env target admin reason) where
  flag := by
    rintro x hx
    obtain rfl := Option.some.inj hx
    rfl
  length := length_popFront _ _
  chain := by
    refine isChain_popFront (List.isChain_append.2 ⟨h.chain, List.isChain_singleton _, ?_⟩)
    rintro a ha b hb
    obtain rfl := Option.some.inj hb
    exact h.last a ha
  last := by
    intro e he
    have hlast : (s.transition env target admin reason).history.getLast? = some _ :=
      (getLast?_popFront (by decide) _).trans List.getLast?_concat
    rw [hlast] at he
    obtain rfl := Option.some.inj he
    rfl

theorem Consistent.step (h : Consistent s) (hrun : breakerStep c s = .ok (v, t)) : Consistent t := by
  obtain ⟨target, actor, reason, rfl, -⟩ | ⟨failures, rfl, -⟩ | ⟨_, config, -, rfl⟩ :=
    breakerStep_cases hrun
  · exact h.transition target
  · exact ⟨h.flag, h.length, h.chain, h.last⟩
  · exact ⟨h.flag, h.length, h.chain, h.last⟩

theorem Consistent.sound (h : Consistent s) : Sound s where
  flag := by
    unfold BreakerStore.loadState
    cases hstate : s.state with
    | none => cases s.isActive <;> simp
    | some x =>
        unfold BreakerStore.isActive
        rw [h.flag x hstate]
        simp
  reopens := fun hstate _ _ _ hpermitted =>
    ⟨_, reportCircuitFailure_halfOpen hstate hpermitted, rfl⟩
  length := h.length
  chain := h.chain
  last := h.last

/-- A contract from before the state machine: a flag or none, no state and no log. -/
def Legacy (s : BreakerStore) : Prop := s.state = none ∧ s.history = []

theorem Legacy.consistent (h : Legacy s) : Consistent s := by
  obtain ⟨hstate, hhistory⟩ := h
  refine ⟨?_, ?_, ?_, ?_⟩
  · rw [hstate]
    rintro x hx
    cases hx
  all_goals rw [hhistory]; simp

/-! ## Recoveries -/

theorem probation_begin (hbegin : c.2 = .beginRecovery admin)
    (hrun : breakerStep c (after s xs) = .ok (v, t)) : Probation s (xs ++ [c]) c.1.sequence :=
  ⟨xs, c, [], rfl, ⟨admin, hbegin⟩, ⟨_, hrun⟩, rfl, trivial⟩

theorem Probation.keep {started : ℕ} (h : Probation s xs started)
    (hquiet : (∃ r, breakerStep c (after s xs) = .ok r) → ¬c.2.Restarts) :
    Probation s (xs ++ [c]) started := by
  obtain ⟨before, start, since, rfl, hbegin, hrun, hstarted, hsince⟩ := h
  refine ⟨before, start, since ++ [c], by simp, hbegin, hrun, hstarted, along_snoc.2 ⟨hsince, ?_⟩⟩
  rwa [← runAll_append, List.append_assoc, List.singleton_append]

/-- No later call of a probation begins a recovery. -/
theorem since_begins_nothing {before mid rest : List (AdminEnv × BreakerCall)}
    {start start' : AdminEnv × BreakerCall}
    (hsince : Along (fun _ c => ¬c.2.Restarts) breakerStep (after s (before ++ [start]))
      (mid ++ start' :: rest)) (hbegin : start'.2 = .beginRecovery admin) :
    ¬∃ r, breakerStep start' (after s (before ++ start :: mid)) = .ok r := by
  intro hrun
  have hfirst := (along_append.1 hsince).2.1
  rw [← runAll_append, List.append_assoc, List.singleton_append] at hfirst
  have hquiet : ¬start'.2.Restarts := hfirst hrun
  rw [hbegin] at hquiet
  exact hquiet trivial

theorem Probation.unique {n m : ℕ} (h : Probation s xs n) (h' : Probation s xs m) : n = m := by
  obtain ⟨before, start, since, rfl, ⟨_, hbegin⟩, hrun, rfl, hsince⟩ := h
  obtain ⟨before', start', since', heq, ⟨_, hbegin'⟩, hrun', rfl, hsince'⟩ := h'
  obtain ⟨mid, rfl, hrest⟩ | ⟨mid, rfl, hrest⟩ := List.append_eq_append_iff.1 heq
  · cases mid with
    | nil =>
        obtain ⟨rfl, -⟩ := List.cons.inj hrest
        rfl
    | cons d mid =>
        obtain ⟨rfl, rfl⟩ := List.cons.inj hrest
        exact (since_begins_nothing hsince hbegin' hrun').elim
  · cases mid with
    | nil =>
        obtain ⟨rfl, -⟩ := List.cons.inj hrest
        rfl
    | cons d mid =>
        obtain ⟨rfl, rfl⟩ := List.cons.inj hrest
        exact (since_begins_nothing hsince' hbegin hrun).elim

/-- A breaker that recovers has stored when the recovery began. -/
def Recovering (s : BreakerStore) (xs : List (AdminEnv × BreakerCall)) (t : BreakerStore) : Prop :=
  t.loadState = .halfOpen → ∃ started, t.recovery = some started ∧ Probation s xs started

theorem Recovering.step (h : Recovering s xs (after s xs))
    (hrun : breakerStep c (after s xs) = .ok (v, t)) : Recovering s (xs ++ [c]) t := by
  intro hhalf
  obtain ⟨target, actor, reason, rfl, hbegin⟩ | ⟨failures, rfl, hnot⟩ | ⟨_, config, hcall, rfl⟩ :=
    breakerStep_cases hrun
  · obtain rfl : target = .halfOpen := hhalf
    obtain ⟨admin, hadmin⟩ := hbegin rfl
    exact ⟨c.1.sequence, rfl, probation_begin hadmin hrun⟩
  · exact (hnot hhalf).elim
  · obtain ⟨started, hstarted, hprobation⟩ := h hhalf
    refine ⟨started, hstarted, hprobation.keep fun _ => ?_⟩
    rw [hcall]
    exact id

theorem Recovering.trap {e : SplitFault} (h : Recovering s xs (after s xs))
    (htrap : breakerStep c (after s xs) = .error e) : Recovering s (xs ++ [c]) (after s xs) := by
  intro hhalf
  obtain ⟨started, hstarted, hprobation⟩ := h hhalf
  refine ⟨started, hstarted, hprobation.keep ?_⟩
  rintro ⟨r, hrun⟩
  rw [htrap] at hrun
  cases hrun

/-- After every run from the legacy storage the entries agree, and a recovery is accounted for. -/
theorem run_consistent (hlegacy : Legacy s) (xs : List (AdminEnv × BreakerCall)) :
    Consistent (after s xs) ∧ Recovering s xs (after s xs) := by
  refine runAll_history (H := fun xs t => Consistent t ∧ Recovering s xs t)
    ⟨hlegacy.consistent, ?_⟩ ?_ ?_
    (along_true breakerStep s xs)
  · intro hhalf
    unfold BreakerStore.loadState at hhalf
    rw [hlegacy.1] at hhalf
    cases hactive : s.isActive <;> simp [hactive] at hhalf
  · rintro ys c v t ⟨hconsistent, hrecovering⟩ - hrun
    exact ⟨hconsistent.step hrun, hrecovering.step hrun⟩
  · rintro ys c e ⟨hconsistent, hrecovering⟩ htrap
    exact ⟨hconsistent, hrecovering.trap htrap⟩

/-! ## The law of the breaker -/

theorem completes_of_inRange (hlegacy : Legacy s) (hrange : InRange (after s xs) c) :
    Completes s xs c := by
  rintro ⟨admin, hcall⟩ ⟨⟨v, t⟩, hrun⟩
  have hbound := hrange ⟨admin, hcall⟩
  rw [breakerStep, hcall] at hrun
  obtain ⟨hstate, helapsed, -⟩ := completeCircuitRecovery_ok hrun
  obtain ⟨started, hstarted, hprobation⟩ := (run_consistent hlegacy xs).2 hstate
  rw [hstarted, Option.getD_some] at hbound helapsed
  refine ⟨hstate, started, hprobation, ?_⟩
  rwa [satAddU32, min_eq_left hbound] at helapsed

theorem inRange_of_completes (hlegacy : Legacy s) (hu32 : c.1.sequence ≤ u32Max)
    (hcompletes : Completes s xs c) (hreturns : ∃ r, breakerStep c (after s xs) = .ok r) :
    InRange (after s xs) c := by
  intro hcall
  obtain ⟨hstate, started, hprobation, helapsed⟩ := hcompletes hcall hreturns
  obtain ⟨started', hstarted, hprobation'⟩ := (run_consistent hlegacy xs).2 hstate
  obtain rfl := hprobation.unique hprobation'
  rw [hstarted, Option.getD_some]
  exact helapsed.trans hu32

/-- From the legacy storage, every run follows the law exactly if each recovery it completes ends
in a ledger number. -/
theorem breaker_law_iff (hlegacy : Legacy s) (hu32 : ∀ c ∈ calls, c.1.sequence ≤ u32Max) :
    BreakerLaw s calls ↔ Along InRange breakerStep s calls := by
  rw [along_iff]
  constructor
  · intro h xs c hxs hreturns
    have hmem : c ∈ calls := hxs.subset (by simp)
    exact inRange_of_completes hlegacy (hu32 c hmem) (h.completes xs c hxs) hreturns
  · intro h
    refine ⟨fun xs _ => (run_consistent hlegacy xs).1.sound, fun xs c hxs hcall hreturns => ?_⟩
    exact completes_of_inRange hlegacy (h xs c hxs hreturns) hcall hreturns

/-- Everyone is an administrator, and the call is made in this ledger. -/
def ledgerEnv (ledger : ℕ) : AdminEnv :=
  { sampleAdminEnv with
    sequence := ledger
    admins := some fun _ => some .superAdmin }

/-- The breaker opens in one ledger, recovers from the second on and is closed in the third. -/
def recovered (opened started completed : ℕ) : List (AdminEnv × BreakerCall) :=
  [(ledgerEnv opened, .activate 1 "incident"), (ledgerEnv started, .beginRecovery 1),
    (ledgerEnv completed, .completeRecovery 1)]

theorem breaker_law_recovered :
    (after {} (recovered 5 10 130)).loadState = .closed ∧ BreakerLaw {} (recovered 5 10 130) := by
  refine ⟨by decide, (breaker_law_iff ⟨rfl, rfl⟩ (by decide)).2 ⟨fun _ => ?_, fun _ => ?_, fun _ => ?_,
    trivial⟩⟩
  · rintro ⟨admin, hcall⟩
    cases hcall
  · rintro ⟨admin, hcall⟩
    cases hcall
  · intro _
    decide

/-- In the last ledger a recovery is completed in the ledger in which it began. -/
theorem breaker_law_fails_in_last_ledger :
    Legacy {} ∧ (∀ c ∈ recovered 5 u32Max u32Max, c.1.sequence ≤ u32Max) ∧
      (after {} (recovered 5 u32Max u32Max)).loadState = .closed ∧
      ¬BreakerLaw {} (recovered 5 u32Max u32Max) := by
  refine ⟨⟨rfl, rfl⟩, by decide, by decide, fun h => ?_⟩
  have hcompletes := h.completes [(ledgerEnv 5, .activate 1 "incident"), (ledgerEnv u32Max, .beginRecovery 1)]
    (ledgerEnv u32Max, .completeRecovery 1) (List.prefix_refl _)
  have hreturns : ∃ r, breakerStep (ledgerEnv u32Max, .completeRecovery 1)
      (after {} [(ledgerEnv 5, .activate 1 "incident"), (ledgerEnv u32Max, .beginRecovery 1)]) = .ok r :=
    isOk_iff.1 (by decide)
  have hrange := inRange_of_completes ⟨rfl, rfl⟩ le_rfl hcompletes hreturns ⟨1, rfl⟩
  revert hrange
  decide

end StellarSplit.Split.Breaker
