import StellarSplit.Split.RateLimits

/-!
# Back-off and the advice to retry

The window of a user is multiplied by two for each denial in a row, up to 32 times. The
shift that computes the multiplier is itself cut at 32, one too many, so a configuration
with that many steps traps once a user was denied so often. A denial is answered with the
wait until the window ends that was open before it, while the denial lengthens the window.
-/

namespace StellarSplit.Split.RateLimits

open Exec Function Machine

/-! ## Configuration -/

/-- The limiter with the operations it is registered for. -/
structure Limiter where
  limits : LimitStore := {}
  ops : List Symbol := []

def maxRateLimitedOps : ℕ := 20

def configure (op : Symbol) (config : RateLimitConfig) : Call Limiter SplitFault Unit := do
  require (config.IsActive → 0 < config.windowSecs)
    (.panic "window_secs must be positive when max_calls > 0")
  modify fun s => { s with limits := { s.limits with config := update s.limits.config op (some config) } }
  let s ← get
  onlyIf (op ∉ s.ops) do
    require (s.ops.length < maxRateLimitedOps) (.panic "max rate-limited operations reached")
    set { s with ops := s.ops ++ [op] }

variable {env later : Env} {op op' : Symbol} {user user' : Address} {s t : LimitStore} {v : Limiter}
  {config : RateLimitConfig} {st : RateLimitState} {streak secs r n : ℕ}

theorem configure_ok {u : Unit} {w : Limiter} (hrun : configure op config v = .ok (u, w)) :
    w.limits = { v.limits with config := update v.limits.config op (some config) } := by
  rw [configure, require_bind] at hrun
  obtain ⟨_, x, hset, hrest⟩ := bind_ok.1 hrun.2
  have hx := modify_ok.1 hset
  subst hx
  rw [get_bind] at hrest
  obtain ⟨-, hops⟩ | ⟨-, rfl⟩ := onlyIf_ok.1 hrest
  · rw [require_bind] at hops
    rw [← set_ok.1 hops.2]
  · rfl

/-- Every configuration is accepted for the first operation. -/
theorem configure_run (op : Symbol) (config : RateLimitConfig) :
    configure op config {} =
      .ok ((), { limits := { config := update (fun _ => none) op (some config) }, ops := [op] }) := by
  have hfirst : op ∉ ([] : List Symbol) := List.not_mem_nil
  have hroom : ([] : List Symbol).length < maxRateLimitedOps := by decide
  rw [configure, require_bind]
  refine ⟨And.right, bind_ok.2 ⟨(), _, modify_ok.2 rfl, get_bind.2 (onlyIf_ok.2 (.inl ⟨hfirst, ?_⟩))⟩⟩
  exact require_bind.2 ⟨hroom, set_ok.2 rfl⟩

/-! ## The length of a window -/

/-- What a window of a streak is meant to last. -/
def backoffWindow (config : RateLimitConfig) (streak : ℕ) : ℕ :=
  min (config.windowSecs * min (2 ^ streak) maxBackoffMultiplier) u64Max

theorem backoffWindow_zero : backoffWindow config 0 = config.windowSecs := by
  have hone : min (2 ^ 0) maxBackoffMultiplier = 1 := by decide
  rw [backoffWindow, hone, mul_one, min_eq_left config.windowSecs_le]

theorem effectiveWindowSecs_below (h : config.backoffEnabled = true) (hstreak : streak < 32) :
    effectiveWindowSecs config streak = .ok (backoffWindow config streak) := by
  unfold effectiveWindowSecs
  by_cases hzero : streak = 0
  · rw [if_pos (.inr hzero), hzero, backoffWindow_zero]
  · have hmin : min streak maxBackoffMultiplier = streak := min_eq_left hstreak.le
    rw [if_neg (by simp [h, hzero]), hmin, if_neg hstreak.not_ge]
    rfl

theorem effectiveWindowSecs_beyond (h : config.backoffEnabled = true) (hstreak : 32 ≤ streak) :
    effectiveWindowSecs config streak = .error .overflow := by
  have hmin : min streak maxBackoffMultiplier = 32 := min_eq_right hstreak
  unfold effectiveWindowSecs
  rw [if_neg (by simp [h]; omega), hmin, if_pos le_rfl]

theorem satAddU32_streak (hstreak : streak < 32) : satAddU32 streak 1 = streak + 1 :=
  min_eq_left (hstreak.trans_le (by decide))

/-- A window is longer at the next streak until the multiplier is at its cap. -/
theorem backoffWindow_succ_end_le_iff {start : ℕ} (hpos : 0 < config.windowSecs) :
    satAddU64 start (backoffWindow config (streak + 1)) ≤ satAddU64 start (backoffWindow config streak) ↔
      5 ≤ streak ∨ u64Max ≤ start + config.windowSecs * 2 ^ streak := by
  have hthirtyTwo : maxBackoffMultiplier = 2 ^ 5 := rfl
  unfold backoffWindow satAddU64
  rw [hthirtyTwo]
  by_cases hcap : 5 ≤ streak
  · have hpow : 2 ^ 5 ≤ 2 ^ streak := Nat.pow_le_pow_right Nat.two_pos hcap
    have hnext : 2 ^ 5 ≤ 2 ^ (streak + 1) := Nat.pow_le_pow_right Nat.two_pos (hcap.trans (Nat.le_succ _))
    rw [min_eq_right hpow, min_eq_right hnext]
    exact iff_of_true le_rfl (.inl hcap)
  · have hnext : 2 ^ (streak + 1) ≤ 2 ^ 5 := Nat.pow_le_pow_right Nat.two_pos (by omega)
    have hpow : 2 ^ streak ≤ 2 ^ (streak + 1) := Nat.pow_le_pow_right Nat.two_pos (Nat.le_succ _)
    have hone : 0 < config.windowSecs * 2 ^ streak := Nat.mul_pos hpos (Nat.two_pow_pos _)
    rw [min_eq_left hnext, min_eq_left (hpow.trans hnext), pow_succ, ← mul_assoc]
    omega

/-! ## One call -/

/-- What `check` answers when the window lasts so long. -/
def answer (config : RateLimitConfig) (st : RateLimitState) (now secs : ℕ) : CheckResult :=
  if satAddU64 st.windowStart secs ≤ now then .allowed (config.maxCalls - 1)
  else if st.callCount < config.maxCalls then .allowed (config.maxCalls - st.callCount - 1)
  else .denied (satAddU64 st.windowStart secs - now)

theorem check_ok {result : CheckResult} (hactive : (s.getConfig op).IsActive) :
    check env op user s = .ok (result, t) ↔
      ∃ secs, effectiveWindowSecs (s.getConfig op) (s.getState op user).violationStreak = .ok secs ∧
        answer (s.getConfig op) (s.getState op user) env.now secs = result ∧ s = t := by
  rw [check, get_bind]
  dsimp only
  rw [if_pos hactive, ofResult_bind]
  refine exists_congr fun secs => and_congr_right fun _ => ?_
  unfold answer
  split_ifs <;> exact pure_ok

theorem check_off {result : CheckResult} (hoff : ¬(s.getConfig op).IsActive) :
    check env op user s = .ok (result, t) ↔ .allowed u32Max = result ∧ s = t := by
  rw [check, get_bind]
  dsimp only
  rw [if_neg hoff, pure_ok]

theorem answer_denied_iff {now : ℕ} : answer config st now secs = .denied r ↔
    now < satAddU64 st.windowStart secs ∧ config.maxCalls ≤ st.callCount ∧
      satAddU64 st.windowStart secs - now = r := by
  unfold answer
  split_ifs with hend hroom
  · exact iff_of_false nofun fun h => absurd hend (not_le.2 h.1)
  · exact iff_of_false nofun fun h => absurd hroom (not_lt.2 h.2.1)
  · rw [CheckResult.denied.injEq]
    exact ⟨fun h => ⟨not_le.1 hend, not_lt.1 hroom, h⟩, fun h => h.2.2⟩

theorem recordCall_returns
    (heff : effectiveWindowSecs (s.getConfig op) (s.getState op user).violationStreak = .ok secs) :
    ∃ r, recordCall env op user s = .ok r := by
  refine bind_returns.2 ⟨s, s, rfl, onlyIf_returns.2 fun _ => ?_⟩
  exact bind_returns.2 ⟨secs, s, ofResult_ok.2 ⟨heff, rfl⟩, bind_returns.2 ⟨(), _, rfl, _, rfl⟩⟩

theorem recordCall_denied {u : Unit} (hrun : recordCall env op user s = .ok (u, t)) :
    t.getAnalytics.deniedByOp = s.getAnalytics.deniedByOp := by
  rw [recordCall, get_bind] at hrun
  obtain ⟨-, hrun⟩ | ⟨-, rfl⟩ := onlyIf_ok.1 hrun
  · obtain ⟨_, -, hrun⟩ := ofResult_bind.1 hrun
    obtain ⟨_, w, hset, hrest⟩ := bind_ok.1 hrun
    have hw := modify_ok.1 hset
    have ht := modify_ok.1 hrest
    subst hw
    subst ht
    rfl
  · rfl

/-- The state of a user after a denial. -/
def denyState (config : RateLimitConfig) (st : RateLimitState) : RateLimitState :=
  if config.backoffEnabled = true ∧ st.violationStreak < max config.maxBackoffSteps 1 then
    { st with violationStreak := satAddU32 st.violationStreak 1 }
  else st

/-- A denial is written down as long as its operation was not denied too often to count. -/
theorem recordDenial_returns (hroom : (s.getAnalytics.deniedByOp op).getD 0 + 1 ≤ u64Max) :
    ∃ r, recordDenial op user s = .ok r := by
  refine bind_returns.2 ⟨s, s, rfl, ?_⟩
  by_cases hraise : (s.getConfig op).backoffEnabled = true ∧
      (s.getState op user).violationStreak < max (s.getConfig op).maxBackoffSteps 1
  · refine bind_returns.2 ⟨(), _, onlyIf_ok.2 (.inl ⟨hraise, rfl⟩), bind_returns.2 ⟨_, _, rfl, ?_⟩⟩
    exact bind_returns.2 ⟨(), _, require_ok.2 ⟨hroom, rfl⟩, _, rfl⟩
  · refine bind_returns.2 ⟨(), _, onlyIf_ok.2 (.inr ⟨hraise, rfl⟩), bind_returns.2 ⟨_, _, rfl, ?_⟩⟩
    exact bind_returns.2 ⟨(), _, require_ok.2 ⟨hroom, rfl⟩, _, rfl⟩

theorem recordDenial_state {u : Unit} (hrun : recordDenial op user s = .ok (u, t)) :
    Called op user s (denyState (s.getConfig op) (s.getState op user)) t ∧
      t.getAnalytics.deniedByOp =
        update s.getAnalytics.deniedByOp op (some ((s.getAnalytics.deniedByOp op).getD 0 + 1)) := by
  rw [recordDenial, get_bind] at hrun
  obtain ⟨_, w, hstate, hrun⟩ := bind_ok.1 hrun
  rw [get_bind, require_bind] at hrun
  have ht := set_ok.1 hrun.2
  subst ht
  unfold denyState
  obtain ⟨hraise, hset⟩ | ⟨hkeep, rfl⟩ := onlyIf_ok.1 hstate
  · have hw := modify_ok.1 hset
    subst hw
    rw [if_pos hraise]
    exact ⟨⟨rfl, getState_setState, fun op' user' hne => getState_setState_of_ne hne⟩, rfl⟩
  · rw [if_neg hkeep]
    exact ⟨⟨rfl, rfl, fun _ _ _ => rfl⟩, rfl⟩

theorem answer_allowed_iff {now : ℕ} : (∃ left, answer config st now secs = .allowed left) ↔
    satAddU64 st.windowStart secs ≤ now ∨ st.callCount < config.maxCalls := by
  unfold answer
  split_ifs with hend hroom
  · exact iff_of_true ⟨_, rfl⟩ (.inl hend)
  · exact iff_of_true ⟨_, rfl⟩ (.inr hroom)
  · exact iff_of_false nofun fun h => h.elim hend hroom

/-- A call is let through exactly if the window of its user has a length and has ended or has room. -/
theorem enforce_allowed_iff (hactive : (s.getConfig op).IsActive) :
    (∃ left t, enforce env op user s = .ok (.ok left, t)) ↔
      ∃ secs, effectiveWindowSecs (s.getConfig op) (s.getState op user).violationStreak = .ok secs ∧
        (satAddU64 (s.getState op user).windowStart secs ≤ env.now ∨
          (s.getState op user).callCount < (s.getConfig op).maxCalls) := by
  constructor
  · rintro ⟨left, t, hrun⟩
    obtain ⟨result, u, hcheck, hrun⟩ := bind_ok.1 hrun
    obtain ⟨secs, heff, hanswer, rfl⟩ := (check_ok hactive).1 hcheck
    refine ⟨secs, heff, answer_allowed_iff.1 ?_⟩
    cases result with
    | allowed left => exact ⟨left, hanswer⟩
    | denied r =>
        obtain ⟨_, w, -, hlast⟩ := bind_ok.1 hrun
        exact nomatch (pure_ok.1 hlast).1
  · rintro ⟨secs, heff, hopen⟩
    obtain ⟨left, hanswer⟩ := answer_allowed_iff.2 hopen
    obtain ⟨⟨_, t⟩, hrecord⟩ : ∃ p, recordCall env op user s = .ok p := recordCall_returns heff
    refine ⟨left, t, bind_ok.2 ⟨_, s, (check_ok hactive).2 ⟨secs, heff, hanswer, rfl⟩, ?_⟩⟩
    exact bind_ok.2 ⟨_, t, hrecord, rfl⟩

theorem enforce_denied_iff {e : ContractError} : enforce env op user s = .ok (.error e, t) ↔
    e = .rateLimitExceeded ∧ ∃ r u, check env op user s = .ok (.denied r, u) ∧
      recordDenial op user u = .ok ((), t) := by
  constructor
  · intro hrun
    obtain ⟨result, u, hcheck, hrun⟩ := bind_ok.1 hrun
    cases result with
    | allowed left =>
        obtain ⟨_, w, -, hlast⟩ := bind_ok.1 hrun
        exact nomatch (pure_ok.1 hlast).1
    | denied r =>
        obtain ⟨_, w, hrecord, hlast⟩ := bind_ok.1 hrun
        obtain ⟨herror, rfl⟩ := pure_ok.1 hlast
        exact ⟨(Except.error.inj herror).symm, r, u, hcheck, hrecord⟩
  · rintro ⟨rfl, r, u, hcheck, hrecord⟩
    exact bind_ok.2 ⟨_, u, hcheck, bind_ok.2 ⟨(), t, hrecord, rfl⟩⟩

/-- A check that denies finds the limit on, the window open and full, and changes nothing. -/
theorem check_denied (h : check env op user s = .ok (.denied r, t)) :
    t = s ∧ (s.getConfig op).IsActive ∧
      ∃ secs, effectiveWindowSecs (s.getConfig op) (s.getState op user).violationStreak = .ok secs ∧
        env.now < satAddU64 (s.getState op user).windowStart secs ∧
        (s.getConfig op).maxCalls ≤ (s.getState op user).callCount ∧
        env.now + r = satAddU64 (s.getState op user).windowStart secs := by
  by_cases hactive : (s.getConfig op).IsActive
  · obtain ⟨secs, heff, hanswer, rfl⟩ := (check_ok hactive).1 h
    obtain ⟨hopen, hfull, rfl⟩ := answer_denied_iff.1 hanswer
    exact ⟨rfl, hactive, secs, heff, hopen, hfull, by omega⟩
  · exact nomatch ((check_off hactive).1 h).1

/-! ## The advice to retry -/

/-- A denial does not move the end of the window: it raises no streak, or one whose window is already
at its longest. -/
def AdviceHolds (config : RateLimitConfig) (st : RateLimitState) : Prop :=
  config.backoffEnabled = false ∨ max config.maxBackoffSteps 1 ≤ st.violationStreak ∨
    st.violationStreak < 31 ∧
      (5 ≤ st.violationStreak ∨ u64Max ≤ st.windowStart + config.windowSecs * 2 ^ st.violationStreak)

instance (config : RateLimitConfig) (st : RateLimitState) : Decidable (AdviceHolds config st) :=
  inferInstanceAs (Decidable (_ ∨ _ ∨ _ ∧ (_ ∨ _)))

theorem denyState_of_not (h : ¬(config.backoffEnabled = true ∧ st.violationStreak < max config.maxBackoffSteps 1)) :
    denyState config st = st := if_neg h

/-- The window after a denial ends when the advice says exactly if the denial does not move its end. -/
theorem deny_end_le_iff (hpos : 0 < config.windowSecs)
    (heff : effectiveWindowSecs config st.violationStreak = .ok secs) :
    (∃ secs', effectiveWindowSecs config (denyState config st).violationStreak = .ok secs' ∧
      satAddU64 (denyState config st).windowStart secs' ≤ satAddU64 st.windowStart secs) ↔
      AdviceHolds config st := by
  by_cases hraise : config.backoffEnabled = true ∧ st.violationStreak < max config.maxBackoffSteps 1
  · obtain ⟨hbackoff, hless⟩ := hraise
    have hsmall : st.violationStreak < 32 := by
      by_contra hlarge
      rw [effectiveWindowSecs_beyond hbackoff (not_lt.1 hlarge)] at heff
      cases heff
    obtain rfl := Except.ok.inj ((effectiveWindowSecs_below hbackoff hsmall).symm.trans heff)
    have hdeny : denyState config st = { st with violationStreak := st.violationStreak + 1 } := by
      rw [denyState, if_pos ⟨hbackoff, hless⟩, satAddU32_streak hsmall]
    rw [hdeny]
    dsimp only
    unfold AdviceHolds
    rw [or_iff_right (by simp [hbackoff]), or_iff_right hless.not_ge]
    by_cases hlast : st.violationStreak < 31
    · have heff' := effectiveWindowSecs_below hbackoff (show st.violationStreak + 1 < 32 by omega)
      rw [and_iff_right hlast, ← backoffWindow_succ_end_le_iff hpos, heff']
      exact ⟨fun ⟨secs', h, hle⟩ => Except.ok.inj h ▸ hle, fun hle => ⟨_, rfl, hle⟩⟩
    · rw [effectiveWindowSecs_beyond hbackoff (show 32 ≤ st.violationStreak + 1 by omega)]
      exact iff_of_false (fun ⟨_, h, _⟩ => nomatch h) fun h => hlast h.1
  · rw [denyState_of_not hraise]
    refine iff_of_true ⟨secs, heff, le_rfl⟩ ?_
    rcases Bool.eq_false_or_eq_true config.backoffEnabled with hon | hoff
    · exact .inr (.inl (not_lt.1 fun h => hraise ⟨hon, h⟩))
    · exact .inl hoff

/-- After a denial, with no call in between, the call at the advised time is let through exactly if
the denial did not move the end of the window. -/
theorem retry_allowed_iff (hcheck : check env op user s = .ok (.denied r, s)) {e : ContractError}
    (hdenied : enforce env op user s = .ok (.error e, t)) (hlater : later.now = env.now + r) :
    (∃ left u, enforce later op user t = .ok (.ok left, u)) ↔
      AdviceHolds (s.getConfig op) (s.getState op user) := by
  obtain ⟨-, hactive, secs, heff, -, hfull, hend⟩ := check_denied hcheck
  obtain ⟨-, r', u, hcheck', hrecord⟩ := enforce_denied_iff.1 hdenied
  obtain ⟨rfl, -⟩ := check_denied hcheck'
  obtain ⟨⟨hconfig, hstate, -⟩, -⟩ := recordDenial_state hrecord
  have hsame := getConfig_congr hconfig op
  rw [enforce_allowed_iff (hsame.symm ▸ hactive), hsame, hstate, hlater, hend, ← deny_end_le_iff hactive.2 heff]
  have hcount : (denyState (u.getConfig op) (u.getState op user)).callCount = (u.getState op user).callCount := by
    unfold denyState
    split_ifs <;> rfl
  rw [hcount]
  exact exists_congr fun secs' => and_congr_right fun _ => or_iff_left hfull.not_gt

def plainConfig : RateLimitConfig := { sampleConfig with backoffEnabled := false, maxBackoffSteps := 0 }

/-- The store of one operation after a call at 100 that uses up the limit. -/
def usedUp (config : RateLimitConfig) : LimitStore :=
  commit (enforce (sampleEnv 100 0) 1 20) { config := update (fun _ => none) 1 (some config) }

theorem retry_allowed_sample : ∃ t,
    enforce (sampleEnv 110 0) 1 20 (usedUp plainConfig) = .ok (.error .rateLimitExceeded, t) ∧
      ∃ left u, enforce (sampleEnv 160 0) 1 20 t = .ok (.ok left, u) := by
  have hcheck := ok_commit (x := check (sampleEnv 110 0) 1 20) (s := usedUp plainConfig) (a := .denied 50)
    (by decide +kernel)
  rw [(check_denied hcheck).1] at hcheck
  have hdenied := ok_commit (x := enforce (sampleEnv 110 0) 1 20) (s := usedUp plainConfig)
    (a := .error .rateLimitExceeded) (by decide +kernel)
  exact ⟨_, hdenied, (retry_allowed_iff hcheck hdenied rfl).2 (by decide +kernel)⟩

/-- A denial at 110 with the advice to wait for 50 seconds, and the call at 160 is denied. -/
theorem retry_denied_early :
    check (sampleEnv 110 0) 1 20 (usedUp sampleConfig) = .ok (.denied 50, usedUp sampleConfig) ∧ ∃ t,
      enforce (sampleEnv 110 0) 1 20 (usedUp sampleConfig) = .ok (.error .rateLimitExceeded, t) ∧
        ¬∃ left u, enforce (sampleEnv 160 0) 1 20 t = .ok (.ok left, u) := by
  have hcheck := ok_commit (x := check (sampleEnv 110 0) 1 20) (s := usedUp sampleConfig) (a := .denied 50)
    (by decide +kernel)
  rw [(check_denied hcheck).1] at hcheck
  refine ⟨hcheck, _, ok_commit (by decide +kernel), ?_⟩
  rintro ⟨left, u, hrun⟩
  have hagain := ok_commit (x := enforce (sampleEnv 160 0) 1 20)
    (s := commit (enforce (sampleEnv 110 0) 1 20) (usedUp sampleConfig))
    (a := .error .rateLimitExceeded) (by decide +kernel)
  exact nomatch hagain.symm.trans hrun

/-! ## Streaks of denials -/

/-- How long a streak can become. -/
def longestStreak (config : RateLimitConfig) : ℕ :=
  if config.IsActive ∧ config.backoffEnabled = true then max config.maxBackoffSteps 1 else 0

theorem Outcome.allowed_streak_le {now : ℕ} {st' : RateLimitState} (h : Outcome config now secs st true st') :
    st'.violationStreak ≤ st.violationStreak := by
  cases h with
  | opens _ =>
      dsimp only
      split_ifs
      · exact Nat.zero_le _
      · exact le_rfl
  | counted _ _ => exact le_rfl

theorem denyState_streak_le (hactive : config.IsActive) :
    (denyState config st).violationStreak ≤ max st.violationStreak (longestStreak config) := by
  unfold denyState
  split_ifs with hraise
  · rw [longestStreak, if_pos ⟨hactive, hraise.1⟩]
    refine le_trans ?_ (le_max_right _ _)
    exact (min_le_left _ _).trans hraise.2
  · exact le_max_left _ _

/-- No call takes a streak beyond the longest. -/
theorem enforce_streak_le {result : Except ContractError ℕ} (hrun : enforce env op user s = .ok (result, t)) :
    t.config = s.config ∧ ∀ op' user', (t.getState op' user').violationStreak ≤
      max (s.getState op' user').violationStreak (longestStreak (s.getConfig op')) := by
  by_cases hactive : (s.getConfig op).IsActive
  · obtain ⟨secs, st', -, hout, ⟨hconfig, hstate, hothers⟩, -⟩ := enforce_ok hactive hrun
    refine ⟨hconfig, fun op' user' => ?_⟩
    by_cases hsame : op' = op ∧ user' = user
    · obtain ⟨rfl, rfl⟩ := hsame
      cases result with
      | ok left =>
          rw [hstate]
          exact hout.allowed_streak_le.trans (le_max_left _ _)
      | error e =>
          obtain ⟨-, r, u, hcheck, hrecord⟩ := enforce_denied_iff.1 hrun
          obtain ⟨rfl, -⟩ := check_denied hcheck
          rw [(recordDenial_state hrecord).1.state]
          exact denyState_streak_le hactive
    · rw [hothers op' user' hsame]
      exact le_max_left _ _
  · rw [enforce_off hactive hrun]
    exact ⟨rfl, fun _ _ => le_max_left _ _⟩

/-- One call of a run. -/
def attempted (x : Attempt) : LimitM (Except ContractError ℕ) := enforce x.env x.op x.user

/-- A streak that calls of `enforce` in the order of time lead a user to, for an operation that was
configured so. -/
def Reachable (config : RateLimitConfig) (streak : ℕ) : Prop :=
  ∃ (v w : Limiter) (op : Symbol) (user : Address) (xs : List Attempt),
    v.limits.state = (fun _ _ => none) ∧ configure op config v = .ok ((), w) ∧
      (xs.Pairwise fun x y => x.env.now ≤ y.env.now) ∧
      ((runAll attempted w.limits xs).getState op user).violationStreak = streak

theorem Reachable.le (h : Reachable config streak) : streak ≤ longestStreak config := by
  obtain ⟨v, w, op, user, xs, hfresh, hconfigure, -, rfl⟩ := h
  have hw := configure_ok hconfigure
  have hget : w.limits.getConfig op = config := by
    rw [LimitStore.getConfig, hw]
    dsimp only
    rw [update_self, Option.getD_some]
  have hnone : (w.limits.getState op user).violationStreak = 0 := by
    rw [LimitStore.getState, hw]
    dsimp only
    rw [hfresh]
    rfl
  have hkeep : (runAll attempted w.limits xs).getConfig op = config ∧
      ((runAll attempted w.limits xs).getState op user).violationStreak ≤ longestStreak config := by
    refine runAll_invariant (I := fun s : LimitStore => s.getConfig op = config ∧
      (s.getState op user).violationStreak ≤ longestStreak config) ?_ ⟨hget, hnone.le.trans (Nat.zero_le _)⟩ xs
    rintro s x a t ⟨hconfig, hle⟩ hrun
    obtain ⟨hsame, hstreak⟩ := enforce_streak_le hrun
    have hnext := hstreak op user
    rw [hconfig, max_eq_right hle] at hnext
    exact ⟨(getConfig_congr hsame op).trans hconfig, hnext⟩
  exact hkeep.2

/-- The store after so many calls of a user at once, counted from the first. -/
structure CalledAtOnce (op : Symbol) (user : Address) (config : RateLimitConfig) (n : ℕ) (s : LimitStore) :
    Prop where
  configured : s.getConfig op = config
  start : (s.getState op user).windowStart = 0
  count : (s.getState op user).callCount = min n config.maxCalls
  streak : (s.getState op user).violationStreak = n - config.maxCalls
  few : (s.getAnalytics.deniedByOp op).getD 0 ≤ n

section AtOnce

variable (hactive : config.IsActive) (hbackoff : config.backoffEnabled = true) (hsteps : 32 ≤ config.maxBackoffSteps)
include hactive hbackoff

/-- While the limit is not used up, a call is counted. -/
theorem CalledAtOnce.counted (h : CalledAtOnce op user config n s) (hless : n < config.maxCalls)
    (hnow : env.now = 0) :
    ∃ p, enforce env op user s = .ok p ∧ CalledAtOnce op user config (n + 1) p.2 := by
  obtain rfl := h.configured
  have hstreak : (s.getState op user).violationStreak = 0 := h.streak.trans (Nat.sub_eq_zero_of_le hless.le)
  have hroom : (s.getState op user).callCount < (s.getConfig op).maxCalls :=
    h.count.trans_lt (min_lt_iff.2 (.inl hless))
  obtain ⟨left, t, hrun⟩ : ∃ left t, enforce env op user s = .ok (.ok left, t) :=
    (enforce_allowed_iff hactive).2 ⟨_, if_pos (.inr hstreak), .inr hroom⟩
  obtain ⟨secs, st', heff, hout, hcalled, -⟩ := enforce_ok hactive hrun
  have hdenied : t.getAnalytics.deniedByOp = s.getAnalytics.deniedByOp := by
    obtain ⟨result, u, hcheck, hrest⟩ := bind_ok.1 hrun
    obtain ⟨-, -, -, rfl⟩ := (check_ok hactive).1 hcheck
    cases result with
    | allowed left =>
        obtain ⟨_, w, hrecord, hlast⟩ := bind_ok.1 hrest
        obtain ⟨-, rfl⟩ := pure_ok.1 hlast
        exact recordCall_denied hrecord
    | denied r =>
        obtain ⟨_, w, -, hlast⟩ := bind_ok.1 hrest
        exact nomatch (pure_ok.1 hlast).1
  refine ⟨_, hrun, getConfig_congr hcalled.config op, ?_, ?_, ?_, ?_⟩
  all_goals dsimp only
  · rw [hcalled.state]
    cases hout with
    | opens _ => exact hnow
    | counted _ _ => exact h.start
  · rw [hcalled.state]
    cases hout with
    | opens hend =>
        have hge := effectiveWindowSecs_ge heff
        have hpos := hactive.2
        rw [h.start, hnow] at hend
        unfold satAddU64 u64Max at hend
        omega
    | counted _ _ =>
        dsimp only
        rw [h.count, min_eq_left hless.le, min_eq_left hless]
  · rw [hcalled.state, Nat.sub_eq_zero_of_le hless]
    exact Nat.le_zero.1 (hout.allowed_streak_le.trans hstreak.le)
  · rw [hdenied]
    exact h.few.trans (Nat.le_succ n)

include hsteps

/-- After that it is denied, and lengthens the streak. -/
theorem CalledAtOnce.denied (h : CalledAtOnce op user config n s) (hfull : config.maxCalls ≤ n)
    (hless : n < config.maxCalls + 32) (hnow : env.now = 0) :
    ∃ p, enforce env op user s = .ok p ∧ CalledAtOnce op user config (n + 1) p.2 := by
  obtain rfl := h.configured
  have hmax := (s.getConfig op).maxCalls_le
  have hpos := hactive.2
  have hcount : (s.getState op user).callCount = (s.getConfig op).maxCalls := h.count.trans (min_eq_right hfull)
  have hsmall : (s.getState op user).violationStreak < 32 := by
    rw [h.streak]
    omega
  have heff := effectiveWindowSecs_below hbackoff hsmall
  have hlong := effectiveWindowSecs_ge heff
  have hopen : env.now < satAddU64 (s.getState op user).windowStart
      (backoffWindow (s.getConfig op) (s.getState op user).violationStreak) := by
    rw [hnow, h.start]
    unfold satAddU64 u64Max
    omega
  have hcheck : check env op user s = .ok (.denied _, s) := (check_ok hactive).2
    ⟨_, heff, answer_denied_iff.2 ⟨hopen, hcount.ge, rfl⟩, rfl⟩
  have hroom : (s.getAnalytics.deniedByOp op).getD 0 + 1 ≤ u64Max := by
    have hfew := h.few
    unfold u32Max at hmax
    unfold u64Max
    omega
  obtain ⟨⟨_, t⟩, hrecord⟩ : ∃ p, recordDenial op user s = .ok p := recordDenial_returns hroom
  obtain ⟨hcalled, hdenied⟩ := recordDenial_state hrecord
  have hraise : denyState (s.getConfig op) (s.getState op user) =
      { s.getState op user with violationStreak := (s.getState op user).violationStreak + 1 } := by
    rw [denyState, if_pos ⟨hbackoff, lt_max_of_lt_left (hsmall.trans_le hsteps)⟩, satAddU32_streak hsmall]
  rw [hraise] at hcalled
  refine ⟨_, enforce_denied_iff.2 ⟨rfl, _, s, hcheck, hrecord⟩, ?_⟩
  refine ⟨getConfig_congr hcalled.config op, ?_, ?_, ?_, ?_⟩
  all_goals dsimp only
  · rw [hcalled.state]
    exact h.start
  · rw [hcalled.state, min_eq_right (hfull.trans (Nat.le_succ n))]
    exact hcount
  · rw [hcalled.state, Nat.succ_sub hfull]
    exact congrArg Nat.succ h.streak
  · rw [hdenied, update_self]
    exact Nat.succ_le_succ h.few

theorem calledAtOnce_replicate (hn : n ≤ config.maxCalls + 32) :
    CalledAtOnce op user config n
      (runAll attempted { config := update (fun _ => none) op (some config) }
        (List.replicate n ⟨sampleEnv 0 0, op, user⟩)) := by
  induction n with
  | zero =>
      refine ⟨?_, rfl, (Nat.zero_min _).symm, (Nat.zero_sub _).symm, le_rfl⟩
      change (update (fun _ => none) op (some config) op).getD RateLimitConfig.off = config
      rw [update_self, Option.getD_some]
  | succ n ih =>
      have h := ih (Nat.le_of_succ_le hn)
      have hstep : ∃ p, attempted ⟨sampleEnv 0 0, op, user⟩ (runAll attempted
          { config := update (fun _ => none) op (some config) } (List.replicate n ⟨sampleEnv 0 0, op, user⟩)) =
            .ok p ∧ CalledAtOnce op user config (n + 1) p.2 := by
        rcases Nat.lt_or_ge n config.maxCalls with hless | hfull
        · exact h.counted hactive hbackoff hless rfl
        · exact h.denied hactive hbackoff hsteps hfull hn rfl
      obtain ⟨⟨result, t⟩, hrun, hnext⟩ := hstep
      rw [List.replicate_succ', runAll_snoc, commit_ok hrun]
      exact hnext

theorem reachable_of_steps (hstreak : streak ≤ 32) : Reachable config streak := by
  have hafter : CalledAtOnce 1 20 config (config.maxCalls + streak) _ :=
    calledAtOnce_replicate hactive hbackoff hsteps (Nat.add_le_add_left hstreak config.maxCalls)
  refine ⟨{}, _, 1, 20, List.replicate (config.maxCalls + streak) ⟨sampleEnv 0 0, 1, 20⟩, rfl,
    configure_run 1 config, List.pairwise_replicate.2 (.inr le_rfl), ?_⟩
  exact hafter.streak.trans (Nat.add_sub_cancel_left _ _)

end AtOnce

/-- Every streak that can be reached has a window, of the length that is meant, and a longer streak
has none that is shorter. -/
structure WellDefined (config : RateLimitConfig) : Prop where
  value : ∀ streak, Reachable config streak →
    effectiveWindowSecs config streak = .ok (backoffWindow config streak)
  mono : ∀ streak streak' secs secs', Reachable config streak → Reachable config streak' →
    streak ≤ streak' → effectiveWindowSecs config streak = .ok secs →
      effectiveWindowSecs config streak' = .ok secs' → secs ≤ secs'

/-- Back-off is well defined exactly if it is off or stops before the 32nd step. -/
theorem wellDefined_iff (config : RateLimitConfig) :
    WellDefined config ↔ ¬(config.IsActive ∧ config.backoffEnabled = true ∧ 32 ≤ config.maxBackoffSteps) := by
  constructor
  · rintro h ⟨hactive, hbackoff, hsteps⟩
    have hvalue := h.value 32 (reachable_of_steps hactive hbackoff hsteps le_rfl)
    rw [effectiveWindowSecs_beyond hbackoff le_rfl] at hvalue
    cases hvalue
  · intro h
    refine ⟨fun streak hreach => ?_, fun _ _ _ _ _ _ hle heff heff' => effectiveWindowSecs_mono hle heff heff'⟩
    have hle := hreach.le
    unfold longestStreak at hle
    split_ifs at hle with hon
    · have hfew : config.maxBackoffSteps < 32 := by
        by_contra hmany
        exact h ⟨hon.1, hon.2, not_lt.1 hmany⟩
      exact effectiveWindowSecs_below hon.2 (by omega)
    · obtain rfl := Nat.le_zero.1 hle
      rw [backoffWindow_zero]
      exact if_pos (.inr rfl)

def steepConfig : RateLimitConfig := { sampleConfig with maxBackoffSteps := 32 }

/-- Thirty-two denials in a row, after which no call of the user is answered any more. -/
theorem backoff_overflows : Reachable steepConfig 32 ∧ effectiveWindowSecs steepConfig 32 = .error .overflow :=
  ⟨reachable_of_steps (by decide) rfl (by decide) le_rfl, effectiveWindowSecs_beyond rfl le_rfl⟩

end StellarSplit.Split.RateLimits
