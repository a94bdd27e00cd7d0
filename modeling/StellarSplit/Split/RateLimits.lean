import StellarSplit.Lib.Runs
import StellarSplit.Lib.Windows
import StellarSplit.Split.Lock

/-!
# Rate limits of operations

A user may make a number of calls to an operation in a window. A denied call lengthens
the window it falls in, and the length is kept until a window passes in which the limit
was not reached. The end of a window is a saturating sum, so at the last timestamp every
call starts a window of its own; before it, the windows of a user do not overlap and none
is shorter than the configured one.
-/

namespace StellarSplit.Split.RateLimits

open Exec Function Machine Windows

/-! ## Configuration and state -/

structure RateLimitConfig where
  maxCalls : ℕ
  windowSecs : ℕ
  backoffEnabled : Bool
  maxBackoffSteps : ℕ
  maxCalls_le : maxCalls ≤ u32Max
  windowSecs_le : windowSecs ≤ u64Max
deriving DecidableEq

namespace RateLimitConfig

def off : RateLimitConfig := ⟨0, 0, false, 0, Nat.zero_le _, Nat.zero_le _⟩

def IsActive (config : RateLimitConfig) : Prop := 0 < config.maxCalls ∧ 0 < config.windowSecs

instance (config : RateLimitConfig) : Decidable config.IsActive := inferInstanceAs (Decidable (_ ∧ _))

end RateLimitConfig

structure RateLimitState where
  windowStart : ℕ := 0
  callCount : ℕ := 0
  violationStreak : ℕ := 0
  lastCallAt : ℕ := 0
deriving DecidableEq

structure RateLimitAnalytics where
  totalChecked : ℕ := 0
  totalAllowed : ℕ := 0
  totalDenied : ℕ := 0
  totalBackoffs : ℕ := 0
  deniedByOp : Symbol → Option ℕ := fun _ => none

structure LimitStore where
  config : Symbol → Option RateLimitConfig := fun _ => none
  state : Symbol → Address → Option RateLimitState := fun _ _ => none
  analytics : Option RateLimitAnalytics := none

namespace LimitStore

def getConfig (s : LimitStore) (op : Symbol) : RateLimitConfig := (s.config op).getD .off

def getState (s : LimitStore) (op : Symbol) (user : Address) : RateLimitState := (s.state op user).getD {}

def setState (s : LimitStore) (op : Symbol) (user : Address) (state : RateLimitState) : LimitStore :=
  { s with state := update s.state op (update (s.state op) user (some state)) }

def getAnalytics (s : LimitStore) : RateLimitAnalytics := s.analytics.getD {}

end LimitStore

inductive CheckResult where
  | allowed (remaining : ℕ)
  | denied (retryAfterSecs : ℕ)
deriving DecidableEq

abbrev LimitM (α : Type) := Call LimitStore SplitFault α

def maxBackoffMultiplier : ℕ := 32

/-- The multiplier is `1u32` shifted by the streak, up to 32: that last shift overflows. -/
def effectiveWindowSecs (config : RateLimitConfig) (streak : ℕ) : Except SplitFault ℕ :=
  if config.backoffEnabled = false ∨ streak = 0 then .ok config.windowSecs
  else if 32 ≤ min streak maxBackoffMultiplier then .error .overflow
  else
    let multiplier := 2 ^ min streak maxBackoffMultiplier
    .ok (min (config.windowSecs * min multiplier maxBackoffMultiplier) u64Max)

def check (env : Env) (op : Symbol) (user : Address) : LimitM CheckResult := do
  let s ← get
  let config := s.getConfig op
  if config.IsActive then do
    let state := s.getState op user
    let windowSecs ← ofResult (effectiveWindowSecs config state.violationStreak)
    let windowEnd := satAddU64 state.windowStart windowSecs
    if windowEnd ≤ env.now then pure (.allowed (config.maxCalls - 1))
    else if state.callCount < config.maxCalls then pure (.allowed (config.maxCalls - state.callCount - 1))
    else pure (.denied (windowEnd - env.now))
  else pure (.allowed u32Max)

def recordCall (env : Env) (op : Symbol) (user : Address) : LimitM Unit := do
  let s ← get
  let config := s.getConfig op
  onlyIf config.IsActive do
    let state := s.getState op user
    let windowSecs ← ofResult (effectiveWindowSecs config state.violationStreak)
    let windowEnd := satAddU64 state.windowStart windowSecs
    let state :=
      if windowEnd ≤ env.now then
        { state with
          windowStart := env.now
          callCount := 1
          violationStreak := if state.callCount < config.maxCalls then 0 else state.violationStreak }
      else { state with callCount := satAddU32 state.callCount 1 }
    modify fun s => s.setState op user { state with lastCallAt := env.now }
    modify fun s => { s with analytics := some { s.getAnalytics with
      totalChecked := satAddU64 s.getAnalytics.totalChecked 1
      totalAllowed := satAddU64 s.getAnalytics.totalAllowed 1 } }

/-- What a denial writes: the longer streak and the counts. -/
def recordDenial (op : Symbol) (user : Address) : LimitM Unit := do
  let s ← get
  let config := s.getConfig op
  let state := s.getState op user
  let maxStreak := max config.maxBackoffSteps 1
  onlyIf (config.backoffEnabled = true ∧ state.violationStreak < maxStreak) do
    modify fun s => s.setState op user
      { state with violationStreak := satAddU32 state.violationStreak 1 }
  let s ← get
  let analytics := s.getAnalytics
  let opDenied := (analytics.deniedByOp op).getD 0
  require (opDenied + 1 ≤ u64Max) .overflow
  set { s with analytics := some { analytics with
    totalChecked := satAddU64 analytics.totalChecked 1
    totalDenied := satAddU64 analytics.totalDenied 1
    totalBackoffs :=
      if config.backoffEnabled then satAddU64 analytics.totalBackoffs 1 else analytics.totalBackoffs
    deniedByOp := update analytics.deniedByOp op (some (opDenied + 1)) } }

/-- A denial is a result like the number of calls left, and what it wrote stays. -/
def enforce (env : Env) (op : Symbol) (user : Address) : LimitM (Except ContractError ℕ) := do
  let result ← check env op user
  match result with
  | .allowed remaining => do
      recordCall env op user
      pure (.ok remaining)
  | .denied _ => do
      recordDenial op user
      pure (.error .rateLimitExceeded)

/-! ## Effective windows -/

section Windows

variable {config : RateLimitConfig} {streak streak' secs secs' : ℕ}

theorem effectiveWindowSecs_ge (h : effectiveWindowSecs config streak = .ok secs) :
    config.windowSecs ≤ secs := by
  unfold effectiveWindowSecs at h
  split_ifs at h with hplain hover
  · exact (Except.ok.inj h).le
  · rw [← Except.ok.inj h]
    have hpos : 0 < min (2 ^ min streak maxBackoffMultiplier) maxBackoffMultiplier :=
      lt_min (Nat.two_pow_pos _) (by decide)
    exact le_min (Nat.le_mul_of_pos_right _ hpos) config.windowSecs_le

theorem effectiveWindowSecs_mono (hle : streak ≤ streak') (h : effectiveWindowSecs config streak = .ok secs)
    (h' : effectiveWindowSecs config streak' = .ok secs') : secs ≤ secs' := by
  have hge := effectiveWindowSecs_ge h'
  unfold effectiveWindowSecs at h
  split_ifs at h with hplain hover
  · exact (Except.ok.inj h) ▸ hge
  · unfold effectiveWindowSecs at h'
    rw [if_neg (by rw [not_or] at hplain ⊢; exact ⟨hplain.1, by omega⟩)] at h'
    split_ifs at h' with hover'
    rw [← Except.ok.inj h, ← Except.ok.inj h']
    have hpow : 2 ^ min streak maxBackoffMultiplier ≤ 2 ^ min streak' maxBackoffMultiplier :=
      Nat.pow_le_pow_right (by decide) (min_le_min_right _ hle)
    exact min_le_min_right _ (Nat.mul_le_mul_left _ (min_le_min_right _ hpow))

end Windows

/-! ## One call -/

variable {env : Env} {op op' : Symbol} {user user' : Address} {s t : LimitStore}
  {config : RateLimitConfig} {st st' : RateLimitState} {now secs : ℕ} {allowed : Bool}

@[simp] theorem getState_setState : (s.setState op user st).getState op user = st := by
  simp [LimitStore.setState, LimitStore.getState]

theorem getState_setState_of_ne (h : ¬(op' = op ∧ user' = user)) :
    (s.setState op user st).getState op' user' = s.getState op' user' := by
  unfold LimitStore.getState LimitStore.setState
  dsimp only
  by_cases hop : op' = op
  · subst hop
    rw [update_self, update_of_ne fun huser => h ⟨rfl, huser⟩]
  · rw [update_of_ne hop]

/-- What a call within a limit does to the state of its user: it starts a window, is counted in the
window that is open, or is denied there. -/
inductive Outcome (config : RateLimitConfig) (now secs : ℕ) (st : RateLimitState) :
    Bool → RateLimitState → Prop where
  | opens (h : satAddU64 st.windowStart secs ≤ now) :
      Outcome config now secs st true
        { windowStart := now
          callCount := 1
          violationStreak := if st.callCount < config.maxCalls then 0 else st.violationStreak
          lastCallAt := now }
  | counted (h : now < satAddU64 st.windowStart secs) (hroom : st.callCount < config.maxCalls) :
      Outcome config now secs st true { st with callCount := st.callCount + 1, lastCallAt := now }
  | denied (h : now < satAddU64 st.windowStart secs) (hfull : config.maxCalls ≤ st.callCount)
      {streak : ℕ} (hstreak : st.violationStreak ≤ streak) :
      Outcome config now secs st false { st with violationStreak := streak }

/-- The counters of the calls: one more was checked, and either allowed or denied. -/
inductive Tallied (a : RateLimitAnalytics) : RateLimitAnalytics → Prop where
  | allowed {b : RateLimitAnalytics} (hchecked : b.totalChecked = satAddU64 a.totalChecked 1)
      (hallowed : b.totalAllowed = satAddU64 a.totalAllowed 1) (hdenied : b.totalDenied = a.totalDenied) :
      Tallied a b
  | denied {b : RateLimitAnalytics} (hchecked : b.totalChecked = satAddU64 a.totalChecked 1)
      (hallowed : b.totalAllowed = a.totalAllowed) (hdenied : b.totalDenied = satAddU64 a.totalDenied 1) :
      Tallied a b

/-- The store after a call of this user to this operation, which left this state. -/
structure Called (op : Symbol) (user : Address) (s : LimitStore) (st : RateLimitState) (t : LimitStore) :
    Prop where
  config : t.config = s.config
  state : t.getState op user = st
  others : ∀ op' user', ¬(op' = op ∧ user' = user) → t.getState op' user' = s.getState op' user'

theorem recordCall_ok {v : Unit} (hactive : (s.getConfig op).IsActive)
    (heff : effectiveWindowSecs (s.getConfig op) (s.getState op user).violationStreak = .ok secs)
    (hrun : recordCall env op user s = .ok (v, t)) :
    Called op user s
      { (if satAddU64 (s.getState op user).windowStart secs ≤ env.now then
          { s.getState op user with
            windowStart := env.now
            callCount := 1
            violationStreak :=
              if (s.getState op user).callCount < (s.getConfig op).maxCalls then 0
              else (s.getState op user).violationStreak }
        else { s.getState op user with callCount := satAddU32 (s.getState op user).callCount 1 }) with
        lastCallAt := env.now } t ∧
      Tallied s.getAnalytics t.getAnalytics := by
  rw [recordCall, get_bind] at hrun
  obtain ⟨-, hrun⟩ | ⟨hoff, -⟩ := onlyIf_ok.1 hrun
  · obtain ⟨secs', heff', hrun⟩ := ofResult_bind.1 hrun
    obtain rfl := Except.ok.inj (heff.symm.trans heff')
    obtain ⟨_, u, hset, hrest⟩ := bind_ok.1 hrun
    have hu := modify_ok.1 hset
    have ht := modify_ok.1 hrest
    subst hu
    subst ht
    exact ⟨⟨rfl, getState_setState, fun op' user' hne => getState_setState_of_ne hne⟩, .allowed rfl rfl rfl⟩
  · exact absurd hactive hoff

theorem recordDenial_ok {v : Unit} (hrun : recordDenial op user s = .ok (v, t)) :
    ∃ streak, (streak = (s.getState op user).violationStreak ∨
        (s.getConfig op).backoffEnabled = true ∧ streak = satAddU32 (s.getState op user).violationStreak 1) ∧
      Called op user s { s.getState op user with violationStreak := streak } t ∧
      Tallied s.getAnalytics t.getAnalytics := by
  rw [recordDenial, get_bind] at hrun
  obtain ⟨_, u, hstate, hrun⟩ := bind_ok.1 hrun
  rw [get_bind, require_bind] at hrun
  have ht := set_ok.1 hrun.2
  subst ht
  obtain ⟨⟨hbackoff, -⟩, hset⟩ | ⟨-, rfl⟩ := onlyIf_ok.1 hstate
  · have hu := modify_ok.1 hset
    subst hu
    exact ⟨_, .inr ⟨hbackoff, rfl⟩, ⟨rfl, getState_setState, fun op' user' hne => getState_setState_of_ne hne⟩,
      .denied rfl rfl rfl⟩
  · exact ⟨_, .inl rfl, ⟨rfl, rfl, fun _ _ _ => rfl⟩, .denied rfl rfl rfl⟩

/-- With the limit on, a call is checked against the window of its user. -/
theorem enforce_ok {r : Except ContractError ℕ} (hactive : (s.getConfig op).IsActive)
    (hrun : enforce env op user s = .ok (r, t)) :
    ∃ secs st', effectiveWindowSecs (s.getConfig op) (s.getState op user).violationStreak = .ok secs ∧
      Outcome (s.getConfig op) env.now secs (s.getState op user) r.isOk st' ∧
      Called op user s st' t ∧ Tallied s.getAnalytics t.getAnalytics := by
  obtain ⟨result, u, hcheck, hrun⟩ := bind_ok.1 hrun
  rw [check, get_bind] at hcheck
  dsimp only at hcheck
  rw [if_pos hactive] at hcheck
  obtain ⟨secs, heff, hcheck⟩ := ofResult_bind.1 hcheck
  refine ⟨secs, ?_⟩
  split_ifs at hcheck with hend hroom
  · obtain ⟨rfl, rfl⟩ := pure_ok.1 hcheck
    obtain ⟨_, w, hrecord, hlast⟩ := bind_ok.1 hrun
    obtain ⟨rfl, rfl⟩ := pure_ok.1 hlast
    obtain ⟨hcalled, htally⟩ := recordCall_ok hactive heff hrecord
    rw [if_pos hend] at hcalled
    exact ⟨_, heff, .opens hend, hcalled, htally⟩
  · obtain ⟨rfl, rfl⟩ := pure_ok.1 hcheck
    obtain ⟨_, w, hrecord, hlast⟩ := bind_ok.1 hrun
    obtain ⟨rfl, rfl⟩ := pure_ok.1 hlast
    obtain ⟨hcalled, htally⟩ := recordCall_ok hactive heff hrecord
    have hmax := (s.getConfig op).maxCalls_le
    have hnext : satAddU32 (s.getState op user).callCount 1 = (s.getState op user).callCount + 1 := by
      unfold satAddU32
      omega
    rw [if_neg hend, hnext] at hcalled
    exact ⟨_, heff, .counted (Nat.lt_of_not_le hend) hroom, hcalled, htally⟩
  · obtain ⟨rfl, rfl⟩ := pure_ok.1 hcheck
    obtain ⟨_, w, hrecord, hlast⟩ := bind_ok.1 hrun
    obtain ⟨rfl, rfl⟩ := pure_ok.1 hlast
    obtain ⟨streak, hstreak, hcalled, htally⟩ := recordDenial_ok hrecord
    refine ⟨_, heff, .denied (Nat.lt_of_not_le hend) (Nat.le_of_not_lt hroom) ?_, hcalled, htally⟩
    rcases hstreak with rfl | ⟨hbackoff, rfl⟩
    · exact le_rfl
    · -- a window with a length has a streak below 32
      have hsmall : (s.getState op user).violationStreak < 32 := by
        unfold effectiveWindowSecs maxBackoffMultiplier at heff
        split_ifs at heff with hplain hover
        · have hzero := hplain.resolve_left (by simp [hbackoff])
          omega
        · omega
      unfold satAddU32 u32Max
      omega

theorem enforce_off {r : Except ContractError ℕ} (hoff : ¬(s.getConfig op).IsActive)
    (hrun : enforce env op user s = .ok (r, t)) : t = s := by
  obtain ⟨result, u, hcheck, hrun⟩ := bind_ok.1 hrun
  rw [check, get_bind] at hcheck
  dsimp only at hcheck
  rw [if_neg hoff] at hcheck
  obtain ⟨rfl, rfl⟩ := pure_ok.1 hcheck
  obtain ⟨_, w, hrecord, hlast⟩ := bind_ok.1 hrun
  obtain ⟨rfl, rfl⟩ := pure_ok.1 hlast
  rw [recordCall, get_bind] at hrecord
  obtain ⟨hactive, -⟩ | ⟨-, rfl⟩ := onlyIf_ok.1 hrecord
  · exact absurd hactive hoff
  · rfl

theorem Tallied.trans_min {a b : RateLimitAnalytics} (h : Tallied a b)
    (ha : ∃ n m, a.totalAllowed = min n u64Max ∧ a.totalDenied = min m u64Max ∧
      a.totalChecked = min (n + m) u64Max) :
    ∃ n m, b.totalAllowed = min n u64Max ∧ b.totalDenied = min m u64Max ∧
      b.totalChecked = min (n + m) u64Max := by
  obtain ⟨n, m, hn, hm, hnm⟩ := ha
  have hsat : ∀ k, satAddU64 (min k u64Max) 1 = min (k + 1) u64Max := by
    intro k
    unfold satAddU64
    omega
  cases h with
  | allowed hchecked hallowed hdenied =>
      refine ⟨n + 1, m, ?_, hdenied.trans hm, ?_⟩
      · rw [hallowed, hn, hsat]
      · rw [hchecked, hnm, hsat, Nat.add_right_comm]
  | denied hchecked hallowed hdenied =>
      refine ⟨n, m + 1, hallowed.trans hn, ?_, ?_⟩
      · rw [hdenied, hm, hsat]
      · rw [hchecked, hnm, hsat, Nat.add_assoc]

/-! ## Runs -/

structure Attempt where
  env : Env
  op : Symbol
  user : Address

/-- A call that was answered, with the state of its user after it. -/
structure Seen where
  op : Symbol
  user : Address
  now : ℕ
  allowed : Bool
  state : RateLimitState
deriving DecidableEq

def Seen.windowStart (a : Seen) : ℕ := a.state.windowStart

/-- One attempt, put down with its answer. -/
def recorded (x : Attempt) : Call (LimitStore × List Seen) SplitFault Unit := fun p =>
  (enforce x.env x.op x.user p.1).map fun r =>
    ((), (r.2, p.2 ++ [⟨x.op, x.user, x.env.now, r.1.isOk, r.2.getState x.op x.user⟩]))

/-- The store and the answered calls after attempts under these configurations. -/
abbrev after (configs : Symbol → Option RateLimitConfig) (xs : List Attempt) : LimitStore × List Seen :=
  runAll recorded ({ config := configs }, []) xs

/-- The answered calls of a user to an operation. -/
def callsOf (op : Symbol) (user : Address) (log : List Seen) : List Seen :=
  log.filter fun a => a.op = op ∧ a.user = user

variable {log log' : List Seen} {x : Attempt}

theorem recorded_ok {v : Unit} (hrun : recorded x (s, log) = .ok (v, (t, log'))) :
    ∃ r, enforce x.env x.op x.user s = .ok (r, t) ∧
      log' = log ++ [⟨x.op, x.user, x.env.now, r.isOk, t.getState x.op x.user⟩] := by
  unfold recorded at hrun
  dsimp only at hrun
  cases hcall : enforce x.env x.op x.user s with
  | error e =>
      rw [hcall] at hrun
      cases hrun
  | ok p =>
      rw [hcall] at hrun
      cases hrun
      exact ⟨p.1, rfl, rfl⟩

theorem callsOf_snoc_self (a : Seen) :
    callsOf a.op a.user (log ++ [a]) = callsOf a.op a.user log ++ [a] := by
  simp [callsOf]

theorem callsOf_snoc_of_ne {a : Seen} (h : ¬(a.op = op ∧ a.user = user)) :
    callsOf op user (log ++ [a]) = callsOf op user log := by
  simp [callsOf, h]

/-! ## What the state says about the calls before -/

/-- The calls that were allowed, counted. -/
def weight (a : Seen) : ℤ := if a.allowed = true then 1 else 0

/-- The streak is at least what it was at a denial in this window or the one before. -/
def Lengthened (st : RateLimitState) (log : List Seen) : Prop :=
  ∀ earlier d later, log = earlier ++ d :: later → d.allowed = false →
    (∀ c ∈ later, c.windowStart = d.windowStart ∨ c.windowStart = st.windowStart) →
    d.state.violationStreak ≤ st.violationStreak

/-- No call of the window of a denial, or of the next one, meets a smaller streak. -/
def NeverShortened (log : List Seen) : Prop :=
  ∀ earlier d between b later, log = earlier ++ d :: (between ++ b :: later) → d.allowed = false →
    (∀ c ∈ between, c.windowStart = d.windowStart ∨ c.windowStart = b.windowStart) →
    d.state.violationStreak ≤ b.state.violationStreak

/-- The state of a user against the calls it answered. -/
structure Follows (config : RateLimitConfig) (st : RateLimitState) (log : List Seen) : Prop where
  counted : (st.callCount : ℤ) = weightOf weight log fun a => a.windowStart = st.windowStart
  limited : ∀ u, weightOf weight log (fun a => a.windowStart = u) ≤ config.maxCalls
  start_le : ∀ a ∈ log, a.windowStart ≤ st.windowStart
  inside : ∀ secs, effectiveWindowSecs config st.violationStreak = .ok secs →
    ∀ a ∈ log, a.windowStart = st.windowStart → a.now < st.windowStart + secs
  behind : ∀ a ∈ log, a.windowStart < st.windowStart →
    a.now < st.windowStart ∧ a.windowStart + config.windowSecs ≤ st.windowStart
  spread : Spread Seen.now Seen.windowStart config.windowSecs log
  last : ∀ a, log.getLast? = some a → a.state = st
  full : ∀ a ∈ log, a.allowed = false → a.windowStart = st.windowStart → config.maxCalls ≤ st.callCount
  lengthened : Lengthened st log
  neverShortened : NeverShortened log

theorem follows_nil (config : RateLimitConfig) : Follows config {} [] where
  counted := rfl
  limited u := Int.natCast_nonneg _
  start_le := by simp
  inside := by simp
  behind := by simp
  spread := ⟨by simp, by simp, by simp⟩
  last := by simp
  full := by simp
  lengthened := by simp [Lengthened]
  neverShortened := by simp [NeverShortened]

theorem NeverShortened.snoc {a : Seen} (h : NeverShortened log) (ha : Lengthened a.state (log ++ [a])) :
    NeverShortened (log ++ [a]) := by
  intro earlier d between b later hsplit hno hbetween
  rw [← List.cons_append, ← List.append_assoc] at hsplit
  rcases snoc_eq_append_cons hsplit with ⟨rfl, rfl⟩ | ⟨rest, -, hrest⟩
  · rw [List.append_assoc, List.cons_append] at hsplit
    exact ha earlier d (between ++ [b]) hsplit hno (forall_mem_snoc hbetween (.inr rfl))
  · rw [List.append_assoc, List.cons_append] at hrest
    exact h earlier d between b rest hrest hno hbetween

/-- A call that is counted or denied in the window that is open. -/
theorem Follows.stay {a : Seen} (h : Follows config st log) (hstart : a.windowStart = st.windowStart)
    (hnow : st.windowStart ≤ a.now) (hstreak : st.violationStreak ≤ a.state.violationStreak)
    (hcount : (a.state.callCount : ℤ) = st.callCount + weight a) (hlimit : a.state.callCount ≤ config.maxCalls)
    (hdenied : a.allowed = false → config.maxCalls ≤ a.state.callCount)
    (heff : effectiveWindowSecs config st.violationStreak = .ok secs) (hin : a.now < st.windowStart + secs) :
    Follows config a.state (log ++ [a]) := by
  have hstate : a.state.windowStart = st.windowStart := hstart
  have hmore : st.callCount ≤ a.state.callCount := by
    unfold weight at hcount
    split at hcount <;> omega
  have hlengthened : Lengthened a.state (log ++ [a]) := by
    intro earlier d later hsplit hno hlater
    rw [hstate] at hlater
    rcases snoc_eq_append_cons hsplit with ⟨-, rfl⟩ | ⟨rest, rfl, hrest⟩
    · exact le_rfl
    · refine (h.lengthened earlier d rest hrest hno fun c hc => ?_).trans hstreak
      exact hlater c (List.mem_append_left _ hc)
  refine ⟨?_, ?_, ?_, ?_, ?_, ?_, ?_, ?_, hlengthened, h.neverShortened.snoc hlengthened⟩
  · rw [weightOf_snoc, hstate, if_pos hstart, hcount, h.counted]
  · apply weightOf_snoc_le h.limited
    rw [hstart, ← h.counted, ← hcount]
    exact_mod_cast hlimit
  · rw [hstate]
    exact forall_mem_snoc h.start_le hstart.le
  · intro secs' heff'
    have hlong := effectiveWindowSecs_mono hstreak heff heff'
    rw [hstate]
    refine forall_mem_snoc (fun b hb hbstart => ?_) fun _ => by omega
    exact lt_of_lt_of_le (h.inside secs heff b hb hbstart) (Nat.add_le_add_left hlong _)
  · rw [hstate]
    exact forall_mem_snoc h.behind fun hlt => absurd hstart hlt.ne
  · apply h.spread.snoc
    · rw [hstart]
      exact hnow
    · rw [hstart]
      exact h.start_le
    · rw [hstart]
      exact fun b hb hlt => (h.behind b hb hlt).1
    · rw [hstart]
      exact fun b hb hlt => (h.behind b hb hlt).2
  · intro b hb
    rw [List.getLast?_concat] at hb
    rw [← Option.some.inj hb]
  · rw [hstate]
    exact forall_mem_snoc (fun b hb hno hbstart => (h.full b hb hno hbstart).trans hmore) fun hno _ => hdenied hno

/-- A call that starts a window behind the one before. -/
theorem Follows.start {a : Seen} (h : Follows config st log) (hstart : a.windowStart = a.now)
    (hallowed : a.allowed = true) (hcount : a.state.callCount = 1) (hmax : 0 < config.maxCalls)
    (hW : 0 < config.windowSecs)
    (heff : effectiveWindowSecs config st.violationStreak = .ok secs) (hover : st.windowStart + secs ≤ a.now)
    (hstreak : a.state.violationStreak = if st.callCount < config.maxCalls then 0 else st.violationStreak) :
    Follows config a.state (log ++ [a]) := by
  have hstate : a.state.windowStart = a.now := hstart
  have hge := effectiveWindowSecs_ge heff
  have hbehind : ∀ b ∈ log, b.now < a.now ∧ b.windowStart + config.windowSecs ≤ a.now := by
    intro b hb
    rcases Nat.lt_or_eq_of_le (h.start_le b hb) with hlt | heq
    · have hbefore := h.behind b hb hlt
      omega
    · have hinside := h.inside secs heff b hb heq
      omega
  have hnone : weightOf weight log (fun b => b.windowStart = a.now) = 0 := by
    apply weightOf_eq_zero
    intro b hb heq
    have hb' := (hbehind b hb).2
    omega
  have hone : weight a = 1 := if_pos hallowed
  have hlengthened : Lengthened a.state (log ++ [a]) := by
    intro earlier d later hsplit hno hlater
    rw [hstate] at hlater
    rcases snoc_eq_append_cons hsplit with ⟨-, rfl⟩ | ⟨rest, rfl, hrest⟩
    · exact le_rfl
    · -- every call since the denial is in its window, the one that was open until now
      have hmem : ∀ c ∈ d :: rest, c ∈ log := by
        intro c hc
        rw [hrest]
        exact List.mem_append_right _ hc
      have hsame : ∀ c ∈ d :: rest, c.windowStart = d.windowStart := by
        intro c hc
        rcases List.mem_cons.1 hc with rfl | hc'
        · rfl
        · refine (hlater c (List.mem_append_left _ hc')).resolve_right fun heq => ?_
          have hb' := (hbehind c (hmem c hc)).2
          omega
      have hopen : d.windowStart = st.windowStart := by
        have hne : d :: rest ≠ [] := List.cons_ne_nil _ _
        have hlast : log.getLast? = some ((d :: rest).getLast hne) := by
          rw [hrest, List.getLast?_append, List.getLast?_eq_getLast_of_ne_nil hne]
          rfl
        rw [← hsame _ (List.getLast_mem hne), Seen.windowStart, h.last _ hlast]
      have hfull := h.full d (hmem d (by simp)) hno hopen
      rw [hstreak, if_neg (Nat.not_lt_of_le hfull)]
      refine h.lengthened earlier d rest hrest hno fun c hc => .inl (hsame c (List.mem_cons_of_mem d hc))
  refine ⟨?_, ?_, ?_, ?_, ?_, ?_, ?_, ?_, hlengthened, h.neverShortened.snoc hlengthened⟩
  · rw [weightOf_snoc, hstate, if_pos hstart, hnone, hone, hcount]
    rfl
  · apply weightOf_snoc_le h.limited
    rw [hstart, hnone, hone]
    exact_mod_cast hmax
  · rw [hstate]
    exact forall_mem_snoc (fun b hb => le_trans (Nat.le_add_right _ _) (hbehind b hb).2) hstart.le
  · intro secs' heff'
    have hlong := effectiveWindowSecs_ge heff'
    rw [hstate]
    refine forall_mem_snoc (fun b hb heq => ?_) fun _ => by omega
    have hb' := (hbehind b hb).2
    omega
  · rw [hstate]
    exact forall_mem_snoc (fun b hb _ => hbehind b hb) fun hlt => absurd hstart hlt.ne
  · apply h.spread.snoc
    · exact hstart.le
    · rw [hstart]
      exact fun b hb => le_trans (Nat.le_add_right _ _) (hbehind b hb).2
    · rw [hstart]
      exact fun b hb _ => (hbehind b hb).1
    · rw [hstart]
      exact fun b hb _ => (hbehind b hb).2
  · intro b hb
    rw [List.getLast?_concat] at hb
    rw [← Option.some.inj hb]
  · rw [hstate]
    refine forall_mem_snoc (fun b hb _ heq => ?_) fun hno => absurd (hallowed.symm.trans hno) (by decide)
    have hb' := (hbehind b hb).2
    omega

/-- The store at a time: under every limit that is on, the state of each user follows its calls. -/
structure Kept (configs : Symbol → Option RateLimitConfig) (now : ℕ) (p : LimitStore × List Seen) : Prop where
  config : p.1.config = configs
  follows : ∀ op user, (p.1.getConfig op).IsActive →
    (p.1.getState op user).windowStart ≤ now ∧
      Follows (p.1.getConfig op) (p.1.getState op user) (callsOf op user p.2)

theorem Follows.outcome {a : Seen} (hactive : config.IsActive) (h : Follows config st log)
    (hpast : st.windowStart ≤ a.now) (hnow : a.now < u64Max)
    (heff : effectiveWindowSecs config st.violationStreak = .ok secs)
    (hout : Outcome config a.now secs st a.allowed a.state) : Follows config a.state (log ++ [a]) := by
  have hfew : st.callCount ≤ config.maxCalls := by
    have hlimited := h.limited st.windowStart
    rw [← h.counted] at hlimited
    exact_mod_cast hlimited
  obtain ⟨op, user, now, allowed, state⟩ := a
  change Outcome config now secs st allowed state at hout
  cases hout with
  | opens hend =>
      have hover : st.windowStart + secs ≤ now := by
        unfold satAddU64 at hend
        dsimp only at hend hnow
        omega
      exact h.start rfl rfl rfl hactive.1 hactive.2 heff hover rfl
  | counted hin hroom =>
      have hlt : now < st.windowStart + secs := lt_of_lt_of_le hin (min_le_left _ _)
      exact h.stay rfl hpast le_rfl (by simp [weight]) hroom (fun hno => absurd hno (by simp)) heff hlt
  | denied hin hfull hstreak =>
      have hlt : now < st.windowStart + secs := lt_of_lt_of_le hin (min_le_left _ _)
      exact h.stay rfl hpast hstreak (by simp [weight]) hfew (fun _ => hfull) heff hlt

theorem Outcome.callCount_le (h : Outcome config now secs st allowed st') (hmax : 0 < config.maxCalls)
    (hfew : st.callCount ≤ config.maxCalls) : st'.callCount ≤ config.maxCalls := by
  cases h with
  | opens => exact hmax
  | counted _ hroom => exact hroom
  | denied => exact hfew

theorem enforce_frame {r : Except ContractError ℕ} (hrun : enforce env op user s = .ok (r, t)) :
    t.config = s.config ∧
      ∀ op' user', ¬(op' = op ∧ user' = user) → t.getState op' user' = s.getState op' user' := by
  by_cases hactive : (s.getConfig op).IsActive
  · obtain ⟨secs, st', -, -, hcalled, -⟩ := enforce_ok hactive hrun
    exact ⟨hcalled.config, hcalled.others⟩
  · rw [enforce_off hactive hrun]
    exact ⟨rfl, fun _ _ _ => rfl⟩

theorem getConfig_congr (h : t.config = s.config) (op : Symbol) : t.getConfig op = s.getConfig op := by
  unfold LimitStore.getConfig
  rw [h]

theorem Outcome.windowStart_le (h : Outcome config now secs st allowed st') (hpast : st.windowStart ≤ now) :
    st'.windowStart ≤ now := by
  cases h with
  | opens => exact le_rfl
  | counted => exact hpast
  | denied => exact hpast

theorem kept_step {configs : Symbol → Option RateLimitConfig} {v : Unit} (hnow : x.env.now < u64Max)
    (h : Kept configs x.env.now (s, log)) (hrun : recorded x (s, log) = .ok (v, (t, log'))) :
    Kept configs x.env.now (t, log') := by
  obtain ⟨r, hcall, rfl⟩ := recorded_ok hrun
  obtain ⟨hconfig, hothers⟩ := enforce_frame hcall
  refine ⟨hconfig.trans h.config, fun op user hactive => ?_⟩
  dsimp only at hactive ⊢
  rw [getConfig_congr hconfig] at hactive ⊢
  obtain ⟨hpast, hfollows⟩ := h.follows op user hactive
  by_cases hsame : op = x.op ∧ user = x.user
  · obtain ⟨rfl, rfl⟩ := hsame
    obtain ⟨secs, st', heff, hout, hcalled, -⟩ := enforce_ok hactive hcall
    have hstate := hcalled.state
    subst hstate
    refine ⟨hout.windowStart_le hpast, ?_⟩
    rw [callsOf_snoc_self ⟨x.op, x.user, x.env.now, r.isOk, t.getState x.op x.user⟩]
    exact Follows.outcome (a := ⟨x.op, x.user, x.env.now, r.isOk, t.getState x.op x.user⟩) hactive hfollows
      hpast hnow heff hout
  · rw [hothers op user hsame, callsOf_snoc_of_ne fun hop => hsame ⟨hop.1.symm, hop.2.symm⟩]
    exact ⟨hpast, hfollows⟩

theorem kept_after {configs : Symbol → Option RateLimitConfig} {xs : List Attempt}
    (hordered : xs.Pairwise fun x y => x.env.now ≤ y.env.now) (hnow : ∀ x ∈ xs, x.env.now < u64Max) :
    Kept configs (u64Max - 1) (after configs xs) := by
  have hwait : ∀ m n p, m ≤ n → (m < u64Max → Kept configs m p) → n < u64Max → Kept configs n p := by
    intro m n p hle h hn
    obtain ⟨hconfig, hfollows⟩ := h (lt_of_le_of_lt hle hn)
    exact ⟨hconfig, fun op user hactive => (hfollows op user hactive).imp_left fun hpast => hpast.trans hle⟩
  have hstep : ∀ p (x : Attempt) u q, (x.env.now < u64Max → Kept configs x.env.now p) →
      recorded x p = .ok (u, q) → x.env.now < u64Max → Kept configs x.env.now q :=
    fun _ _ _ _ h hrun hn => kept_step hn (h hn) hrun
  have hstart : 0 < u64Max → Kept configs 0 ({ config := configs }, []) :=
    fun _ => ⟨rfl, fun op user _ => ⟨le_rfl, follows_nil _⟩⟩
  have hlast : ∀ x ∈ xs, x.env.now ≤ u64Max - 1 := fun x hx => Nat.le_sub_one_of_lt (hnow x hx)
  exact runAll_clocked hwait hstep hstart hordered (fun _ _ => Nat.zero_le _) hlast (Nat.zero_le _) (by decide)

/-- What holds of every store: no count beyond its limit, and totals of the same calls. -/
structure Counts (configs : Symbol → Option RateLimitConfig) (s : LimitStore) : Prop where
  config : s.config = configs
  few : ∀ op user, (s.getConfig op).IsActive → (s.getState op user).callCount ≤ (s.getConfig op).maxCalls
  tallied : ∃ n m, s.getAnalytics.totalAllowed = min n u64Max ∧ s.getAnalytics.totalDenied = min m u64Max ∧
    s.getAnalytics.totalChecked = min (n + m) u64Max

theorem counts_step {configs : Symbol → Option RateLimitConfig} {v : Unit}
    (h : Counts configs s) (hrun : recorded x (s, log) = .ok (v, (t, log'))) : Counts configs t := by
  obtain ⟨r, hcall, -⟩ := recorded_ok hrun
  obtain ⟨hconfig, hothers⟩ := enforce_frame hcall
  by_cases hon : (s.getConfig x.op).IsActive
  · obtain ⟨secs, st', -, hout, hcalled, htally⟩ := enforce_ok hon hcall
    refine ⟨hconfig.trans h.config, fun op user hactive => ?_, htally.trans_min h.tallied⟩
    rw [getConfig_congr hconfig] at hactive ⊢
    by_cases hsame : op = x.op ∧ user = x.user
    · obtain ⟨rfl, rfl⟩ := hsame
      rw [hcalled.state]
      exact hout.callCount_le hactive.1 (h.few _ _ hactive)
    · rw [hothers op user hsame]
      exact h.few op user hactive
  · rw [enforce_off hon hcall]
    exact h

theorem counts_after (configs : Symbol → Option RateLimitConfig) (xs : List Attempt) :
    Counts configs (after configs xs).1 :=
  runAll_invariant (I := fun p : LimitStore × List Seen => Counts configs p.1)
    (fun _ _ _ _ h hrun => counts_step h hrun)
    ⟨rfl, fun _ _ _ => Nat.zero_le _, 0, 0, rfl, rfl, rfl⟩ xs

/-! ## The law -/

/-- The limit on the answered calls of a user to an operation: on those between two consecutive starts
of windows, on those of an interval as long as a window, and on the lengths of the windows. -/
structure Binds (config : RateLimitConfig) (log : List Seen) : Prop where
  between : ∀ a ∈ log, ∀ v, (∀ c ∈ log, c.windowStart ≤ a.windowStart ∨ v ≤ c.windowStart) →
    (log.filter fun b => b.allowed = true ∧ a.windowStart ≤ b.now ∧ b.now < v).length ≤ config.maxCalls
  interval : ∀ u, (log.filter fun b => b.allowed = true ∧ u ≤ b.now ∧ b.now ≤ u + config.windowSecs).length ≤
    2 * config.maxCalls
  lengthened : ∀ earlier d between b later, log = earlier ++ d :: (between ++ b :: later) →
    d.allowed = false →
    (∀ c ∈ between, c.windowStart = d.windowStart ∨ c.windowStart = b.windowStart) →
    ∀ m n, effectiveWindowSecs config d.state.violationStreak = .ok m →
      effectiveWindowSecs config b.state.violationStreak = .ok n → m ≤ n

theorem weight_nonneg (a : Seen) : 0 ≤ weight a := by
  unfold weight
  split <;> decide

theorem weightOf_weight {p : Seen → Prop} [DecidablePred p] :
    weightOf weight log p = ((log.filter fun a => a.allowed = true ∧ p a).length : ℤ) :=
  weightOf_indicator (q := fun a : Seen => a.allowed = true)

theorem Follows.binds (h : Follows config st log) : Binds config log where
  between a ha v hgap := by
    have hsame : ∀ b ∈ log, a.windowStart ≤ b.now ∧ b.now < v → b.windowStart = a.windowStart :=
      fun b hb hin => h.spread.start_eq ha rfl hgap hb hin.1 hin.2
    have hle := (weightOf_mono (fun b _ => weight_nonneg b) hsame).trans (h.limited a.windowStart)
    rw [weightOf_weight] at hle
    exact_mod_cast hle
  interval u := by
    have htwo := h.spread.weight_between (fun b _ => weight_nonneg b) h.limited u
    rw [weightOf_weight] at htwo
    exact_mod_cast htwo
  lengthened earlier d between b later hsplit hno hbetween m n hm hn :=
    effectiveWindowSecs_mono (h.neverShortened earlier d between b later hsplit hno hbetween) hm hn

/-- After any calls, by any users and in the order of time, no stored count is beyond its limit, and
the checked calls are the allowed and the denied ones, up to the last number there is. As long as
every call comes before the last timestamp, each limit binds. -/
theorem rate_limits_law {configs : Symbol → Option RateLimitConfig} {xs : List Attempt}
    (hordered : xs.Pairwise fun x y => x.env.now ≤ y.env.now) {op : Symbol} {config : RateLimitConfig}
    (hconfig : configs op = some config) (hactive : config.IsActive) (user : Address) :
    ((after configs xs).1.getState op user).callCount ≤ config.maxCalls ∧
      (after configs xs).1.getAnalytics.totalChecked =
        min ((after configs xs).1.getAnalytics.totalAllowed + (after configs xs).1.getAnalytics.totalDenied)
          u64Max ∧
      ((∀ x ∈ xs, x.env.now < u64Max) → Binds config (callsOf op user (after configs xs).2)) := by
  have hcounts := counts_after configs xs
  have hget : (after configs xs).1.getConfig op = config := by
    unfold LimitStore.getConfig
    rw [hcounts.config, hconfig]
    rfl
  refine ⟨?_, ?_, fun hnow => ?_⟩
  · have hfew := hcounts.few op user (hget.symm ▸ hactive)
    rwa [hget] at hfew
  · obtain ⟨n, m, hn, hm, hnm⟩ := hcounts.tallied
    rw [hn, hm, hnm]
    omega
  · have hfollows := ((kept_after hordered hnow).follows op user (hget.symm ▸ hactive)).2
    rw [hget] at hfollows
    exact hfollows.binds

def sampleConfig : RateLimitConfig := ⟨1, 60, true, 4, by decide, by decide⟩

def sampleConfigs (op : Symbol) : Option RateLimitConfig := if op = 1 then some sampleConfig else none

/-- A call, a denial that doubles the window, one more within the longer window, and a call after it. -/
def sampleAttempts : List Attempt :=
  [⟨sampleEnv 100 0, 1, 20⟩, ⟨sampleEnv 110 0, 1, 20⟩, ⟨sampleEnv 170 0, 1, 20⟩, ⟨sampleEnv 340 0, 1, 20⟩]

theorem rate_limits_sample :
    (after sampleConfigs sampleAttempts).2.map Seen.allowed = [true, false, false, true] ∧
      ((after sampleConfigs sampleAttempts).1.getState 1 20).callCount ≤ sampleConfig.maxCalls ∧
      (after sampleConfigs sampleAttempts).1.getAnalytics.totalChecked =
        min ((after sampleConfigs sampleAttempts).1.getAnalytics.totalAllowed +
          (after sampleConfigs sampleAttempts).1.getAnalytics.totalDenied) u64Max ∧
      ((∀ x ∈ sampleAttempts, x.env.now < u64Max) →
        Binds sampleConfig (callsOf 1 20 (after sampleConfigs sampleAttempts).2)) :=
  ⟨by decide +kernel, rate_limits_law (by decide) rfl (by decide) 20⟩

/-- Three calls at the last timestamp. -/
def lastAttempts : List Attempt := List.replicate 3 ⟨sampleEnv u64Max 0, 1, 20⟩

/-- All three are allowed, each in a window of its own, in an interval that allows two. -/
theorem rate_limits_law_fails :
    (lastAttempts.Pairwise fun x y => x.env.now ≤ y.env.now) ∧
      (after sampleConfigs lastAttempts).2.map Seen.allowed = [true, true, true] ∧
      ¬Binds sampleConfig (callsOf 1 20 (after sampleConfigs lastAttempts).2) := by
  have hthree : ((callsOf 1 20 (after sampleConfigs lastAttempts).2).filter fun b =>
      b.allowed = true ∧ u64Max ≤ b.now ∧ b.now ≤ u64Max + sampleConfig.windowSecs).length = 3 := by
    decide +kernel
  refine ⟨by decide, by decide +kernel, fun h => ?_⟩
  have htwo := h.interval u64Max
  rw [hthree] at htwo
  exact absurd htwo (by decide)

end StellarSplit.Split.RateLimits
