import StellarSplit.Lib.Machine
import StellarSplit.Lib.Runs
import StellarSplit.Lib.Windows
import StellarSplit.Split.Types

/-!
# Velocity limits

The limits on how many payments a payer makes in a window, how much, and how
far apart. The accepted payments of a run are recorded with the window they are
counted in. The ends of the window and of the cooldown are saturating sums, so
the limits hold for as long as no payment comes at the last timestamp with one
of the two sums beyond it.
-/

namespace StellarSplit.Split.Velocity

open Exec Function Machine Windows

/-! ## Configuration and state -/

structure VelocityConfig where
  maxPayments : ℕ
  maxAmount : ℤ
  windowSecs : ℕ
  cooldownSecs : ℕ
  maxPayments_le : maxPayments ≤ u32Max

namespace VelocityConfig

def isEnabled (config : VelocityConfig) : Bool :=
  0 < config.maxPayments ∨ 0 < config.maxAmount ∨ 0 < config.cooldownSecs

/-- The configuration when none is stored: no limit. -/
def off : VelocityConfig := ⟨0, 0, 0, 0, Nat.zero_le _⟩

end VelocityConfig

structure VelocityState where
  windowStart : ℕ := 0
  paymentCount : ℕ := 0
  amountTotal : ℤ := 0
  lastPaymentAt : ℕ := 0
deriving DecidableEq

def validateConfig (config : VelocityConfig) : Except ContractError Unit :=
  if config.maxAmount < 0 then .error .invalidAmount
  else if (0 < config.maxPayments ∨ 0 < config.maxAmount) ∧ config.windowSecs = 0 then
    .error .invalidAmount
  else .ok ()

/-- The state in which a payment is counted: a window that has elapsed, or was never
started, starts again. -/
def currentWindow (config : VelocityConfig) (state : VelocityState) (now : ℕ) : VelocityState :=
  if state.paymentCount = 0 ∨ satAddU64 state.windowStart config.windowSecs ≤ now then
    { state with windowStart := now, paymentCount := 0, amountTotal := 0 }
  else state

def check (config : VelocityConfig) (state : VelocityState) (amount : ℤ) (now : ℕ) :
    Except ContractError VelocityState :=
  if amount ≤ 0 then .error .invalidAmount
  else if 0 < config.cooldownSecs ∧ 0 < state.lastPaymentAt ∧
      now < satAddU64 state.lastPaymentAt config.cooldownSecs then .error .rateLimitExceeded
  else
    let next := currentWindow config state now
    if 0 < config.maxPayments ∧ config.maxPayments ≤ next.paymentCount then
      .error .rateLimitExceeded
    else
      match checkedAddI128 next.amountTotal amount with
      | none => .error .arithmeticOverflow
      | some newTotal =>
          if 0 < config.maxAmount ∧ config.maxAmount < newTotal then .error .rateLimitExceeded
          else .ok { next with
            paymentCount := satAddU32 next.paymentCount 1
            amountTotal := newTotal
            lastPaymentAt := now }

variable {config : VelocityConfig} {s t : VelocityState} {amount : ℤ} {now : ℕ}

/-- What an accepted payment passed, and the state it leaves. -/
theorem check_ok (h : check config s amount now = .ok t) :
    0 < amount ∧
      (0 < config.cooldownSecs → 0 < s.lastPaymentAt →
        satAddU64 s.lastPaymentAt config.cooldownSecs ≤ now) ∧
      (0 < config.maxPayments → (currentWindow config s now).paymentCount < config.maxPayments) ∧
      (0 < config.maxAmount → t.amountTotal ≤ config.maxAmount) ∧
      t = { currentWindow config s now with
        paymentCount := satAddU32 (currentWindow config s now).paymentCount 1
        amountTotal := (currentWindow config s now).amountTotal + amount
        lastPaymentAt := now } := by
  unfold check at h
  split at h
  · cases h
  rename_i hamount
  split at h
  · cases h
  rename_i hcooldown
  dsimp only at h
  split at h
  · cases h
  rename_i hcount
  split at h
  · cases h
  rename_i newTotal hadd
  split at h
  · cases h
  rename_i htotal
  cases h
  have hsum := checkedAddI128_eq hadd
  subst hsum
  refine ⟨by omega, ?_, ?_, ?_, rfl⟩
  · intro hc hl
    by_contra hearly
    exact hcooldown ⟨hc, hl, Nat.lt_of_not_le hearly⟩
  · intro hm
    by_contra hfull
    exact hcount ⟨hm, Nat.le_of_not_lt hfull⟩
  · intro hm
    by_contra hover
    exact htotal ⟨hm, Int.lt_of_not_ge hover⟩

/-! ## Runs of payments -/

structure Attempt where
  amount : ℤ
  now : ℕ

/-- An accepted payment with the start of the window it was counted in. -/
structure Accepted where
  windowStart : ℕ
  now : ℕ
  amount : ℤ
deriving DecidableEq

/-- One attempt on the state of a payer. -/
def attempt (config : VelocityConfig) (x : Attempt) : Call VelocityState ContractError Unit := fun s =>
  (check config s x.amount x.now).map fun next => ((), next)

def recorded (config : VelocityConfig) (x : Attempt) :
    Call (VelocityState × List Accepted) ContractError Unit :=
  beside (fun log _ next => log ++ [⟨next.windowStart, x.now, x.amount⟩]) (attempt config x)

/-- The payments that are accepted when a payer makes these attempts. -/
def accepted (config : VelocityConfig) (xs : List Attempt) : List Accepted :=
  (runAll (recorded config) ({}, []) xs).2

theorem recorded_ok {x : Attempt} {v : Unit} {log log' : List Accepted}
    (h : recorded config x (s, log) = .ok (v, (t, log'))) :
    check config s x.amount x.now = .ok t ∧ log' = log ++ [⟨t.windowStart, x.now, x.amount⟩] := by
  obtain ⟨hrun, hlog⟩ := beside_ok.1 h
  refine ⟨?_, hlog⟩
  unfold attempt at hrun
  cases hcheck : check config s x.amount x.now with
  | error e => simp [hcheck, Except.map] at hrun
  | ok next =>
      simp only [hcheck, Except.map, Except.ok.injEq, Prod.mk.injEq] at hrun
      rw [hrun.2]

/-- Both saturating sums are exact, or the timestamp is not the last one. -/
def SumsFit (config : VelocityConfig) (s : VelocityState) (now : ℕ) : Prop :=
  now < u64Max ∨
    (s.lastPaymentAt + config.cooldownSecs ≤ u64Max ∧ s.windowStart + config.windowSecs ≤ u64Max)

instance : Decidable (SumsFit config s now) := inferInstanceAs (Decidable (_ ∨ _))

theorem SumsFit.cooldown (h : SumsFit config s now)
    (hle : satAddU64 s.lastPaymentAt config.cooldownSecs ≤ now) :
    s.lastPaymentAt + config.cooldownSecs ≤ now := by
  unfold SumsFit at h
  unfold satAddU64 at hle
  omega

theorem SumsFit.window (h : SumsFit config s now)
    (hle : satAddU64 s.windowStart config.windowSecs ≤ now) :
    s.windowStart + config.windowSecs ≤ now := by
  unfold SumsFit at h
  unfold satAddU64 at hle
  omega

/-! ## What the state says about the payments before -/

/-- The state of a payer against the accepted payments. Without a window nothing is
counted, so the counters are followed only when there is one. -/
structure Tracks (config : VelocityConfig) (s : VelocityState) (log : List Accepted) : Prop where
  counted : s.paymentCount = 0 → log = []
  last_pos : log ≠ [] → 0 < s.lastPaymentAt
  now_le : ∀ a ∈ log, a.now ≤ s.lastPaymentAt
  start_le : ∀ a ∈ log, a.windowStart ≤ s.windowStart
  behind : ∀ a ∈ log, a.windowStart < s.windowStart →
    a.windowStart + config.windowSecs ≤ s.windowStart
  current_le : s.windowStart ≤ s.lastPaymentAt
  amount_pos : ∀ a ∈ log, 0 < a.amount
  spaced : log.Pairwise fun a b => a.now + config.cooldownSecs ≤ b.now
  separate : 0 < config.windowSecs →
    Separate Accepted.now Accepted.windowStart config.windowSecs log
  count_eq : 0 < config.windowSecs →
    (s.paymentCount : ℤ) = min (weightOf (fun _ => 1) log fun a => a.windowStart = s.windowStart) u32Max
  total_eq : 0 < config.windowSecs →
    s.amountTotal = weightOf Accepted.amount log fun a => a.windowStart = s.windowStart
  count_le : 0 < config.windowSecs → 0 < config.maxPayments → ∀ w,
    weightOf (fun _ => 1) log (fun a => a.windowStart = w) ≤ config.maxPayments
  total_le : 0 < config.windowSecs → 0 < config.maxAmount → ∀ w,
    weightOf Accepted.amount log (fun a => a.windowStart = w) ≤ config.maxAmount

theorem tracks_nil : Tracks config {} [] := by
  refine ⟨fun _ => rfl, fun h => (h rfl).elim, ?_, ?_, ?_, le_rfl, ?_, List.Pairwise.nil, ?_, ?_, ?_, ?_, ?_⟩
  · simp
  · simp
  · simp
  · simp
  · exact fun _ => ⟨by simp, by simp, by simp⟩
  · exact fun _ => by simp
  · exact fun _ => by simp
  · intro _ hmax w
    simp
  · intro _ hmax w
    simpa using hmax.le

/-- The window a payment is counted in, against the payments before it. -/
structure Opens (config : VelocityConfig) (cw : VelocityState) (now : ℕ) (log : List Accepted) : Prop where
  start_le : ∀ a ∈ log, a.windowStart ≤ cw.windowStart
  behind : ∀ a ∈ log, a.windowStart < cw.windowStart →
    a.windowStart + config.windowSecs ≤ cw.windowStart
  start_le_now : cw.windowStart ≤ now
  now_lt : 0 < config.windowSecs → now < cw.windowStart + config.windowSecs
  count_eq : 0 < config.windowSecs →
    (cw.paymentCount : ℤ) = min (weightOf (fun _ => 1) log fun a => a.windowStart = cw.windowStart) u32Max
  total_eq : 0 < config.windowSecs →
    cw.amountTotal = weightOf Accepted.amount log fun a => a.windowStart = cw.windowStart

variable {log : List Accepted}

/-- A new window lies behind every window before it, so nothing is counted in it yet. -/
theorem Tracks.opens_new (h : Tracks config s log)
    (hover : s.paymentCount = 0 ∨ s.windowStart + config.windowSecs ≤ now) :
    Opens config { s with windowStart := now, paymentCount := 0, amountTotal := 0 } now log := by
  have hend : ∀ a ∈ log, a.windowStart + config.windowSecs ≤ now := by
    intro a ha
    rcases hover with hzero | hover
    · simp [h.counted hzero] at ha
    · have := h.start_le a ha
      omega
  have hnone : 0 < config.windowSecs → ∀ a ∈ log, ¬a.windowStart = now := by
    intro hW a ha
    have := hend a ha
    omega
  refine ⟨fun a ha => ?_, fun a ha _ => hend a ha, le_rfl, fun hW => ?_, fun hW => ?_, fun hW => ?_⟩
  · exact le_trans (Nat.le_add_right _ _) (hend a ha)
  · exact Nat.lt_add_of_pos_right hW
  · rw [weightOf_eq_zero (hnone hW)]
    rfl
  · rw [weightOf_eq_zero (hnone hW)]

theorem Tracks.opens (h : Tracks config s log) (hlast : s.lastPaymentAt ≤ now)
    (hfit : SumsFit config s now) : Opens config (currentWindow config s now) now log := by
  unfold currentWindow
  split
  · rename_i hover
    exact h.opens_new (hover.imp_right hfit.window)
  · rename_i hover
    rw [not_or] at hover
    refine ⟨h.start_le, h.behind, h.current_le.trans hlast, fun _ => ?_, h.count_eq, h.total_eq⟩
    have hopen : now < satAddU64 s.windowStart config.windowSecs := Nat.lt_of_not_le hover.2
    exact lt_of_lt_of_le hopen (min_le_left _ _)

/-- The window of the new payment does not overlap those before it. -/
theorem Opens.separate {cw : VelocityState} {x : ℤ} (h : Opens config cw now log)
    (hW : 0 < config.windowSecs)
    (hlog : Separate Accepted.now Accepted.windowStart config.windowSecs log) :
    Separate Accepted.now Accepted.windowStart config.windowSecs
      (log ++ [⟨cw.windowStart, now, x⟩]) := by
  refine ⟨?_, ?_, ?_⟩
  · exact forall_mem_snoc hlog.start_le h.start_le_now
  · exact forall_mem_snoc hlog.time_lt (h.now_lt hW)
  · refine forall_mem_snoc (fun a ha => forall_mem_snoc (hlog.apart a ha) (h.behind a ha)) ?_
    -- nothing starts after the window of the new payment
    refine forall_mem_snoc (fun b hb hlt => ?_) fun hlt => ?_
    · exact absurd (h.start_le b hb) (Nat.not_le_of_lt hlt)
    · exact absurd hlt (lt_irrefl _)

/-- A payment that passes the cooldown is spaced from every one before it. -/
theorem Tracks.cooled (h : Tracks config s log) (hlast : s.lastPaymentAt ≤ now)
    (hfit : SumsFit config s now)
    (hcooldown : 0 < config.cooldownSecs → 0 < s.lastPaymentAt →
      satAddU64 s.lastPaymentAt config.cooldownSecs ≤ now) :
    ∀ a ∈ log, a.now + config.cooldownSecs ≤ now := by
  intro a ha
  have hbefore := h.now_le a ha
  rcases Nat.eq_zero_or_pos config.cooldownSecs with hzero | hc
  · omega
  · have hapart := hfit.cooldown (hcooldown hc (h.last_pos (List.ne_nil_of_mem ha)))
    omega

/-- One accepted payment. -/
theorem Tracks.check (h : Tracks config s log) (hpos : 0 < now) (hlast : s.lastPaymentAt ≤ now)
    (hfit : SumsFit config s now) (hrun : check config s amount now = .ok t) :
    Tracks config t (log ++ [⟨t.windowStart, now, amount⟩]) := by
  obtain ⟨hamount, hcooldown, hcount, htotal, ht⟩ := check_ok hrun
  have hopen := h.opens hlast hfit
  generalize currentWindow config s now = cw at hcount ht hopen
  obtain ⟨ws, count, total, last⟩ := cw
  subst ht
  have hnear := h.cooled hlast hfit hcooldown
  have hcount_lt : 0 < config.maxPayments → count < u32Max := fun hm =>
    lt_of_lt_of_le (hcount hm) config.maxPayments_le
  refine ⟨?_, fun _ => hpos, ?_, ?_, ?_, hopen.start_le_now, ?_, ?_, ?_, ?_, ?_, ?_, ?_⟩
  · intro hzero
    simp only [satAddU32, u32Max] at hzero
    omega
  · exact forall_mem_snoc (fun a ha => (h.now_le a ha).trans hlast) le_rfl
  · exact forall_mem_snoc hopen.start_le le_rfl
  · exact forall_mem_snoc hopen.behind fun hlt => absurd hlt (lt_irrefl _)
  · exact forall_mem_snoc h.amount_pos hamount
  · rw [List.pairwise_append]
    refine ⟨h.spaced, List.pairwise_singleton _ _, fun a ha b hb => ?_⟩
    rw [List.mem_singleton.1 hb]
    exact hnear a ha
  · exact fun hW => hopen.separate hW (h.separate hW)
  · intro hW
    have hwas := hopen.count_eq hW
    rw [weightOf_snoc, if_pos rfl]
    simp only [satAddU32] at hwas ⊢
    omega
  · intro hW
    have hwas := hopen.total_eq hW
    rw [weightOf_snoc, if_pos rfl]
    simp only at hwas ⊢
    rw [hwas]
  · intro hW hm
    apply weightOf_snoc_le (h.count_le hW hm)
    have hwas := hopen.count_eq hW
    have hlt := hcount hm
    have hfits := hcount_lt hm
    simp only at hwas hlt ⊢
    omega
  · intro hW hm
    apply weightOf_snoc_le (h.total_le hW hm)
    have hwas := hopen.total_eq hW
    have hle := htotal hm
    simp only at hwas hle ⊢
    omega

/-! ## Whole runs -/

/-- Timestamps that do not decrease are never before the last accepted payment. -/
theorem along_sorted {xs : List Attempt} (hsorted : xs.Pairwise fun x y => x.now ≤ y.now)
    {p : VelocityState × List Accepted} (hp : ∀ x ∈ xs, p.1.lastPaymentAt ≤ x.now) :
    Along (fun p x => p.1.lastPaymentAt ≤ x.now) (recorded config) p xs := by
  refine along_ordered (fun p x v q y _ hafter hrun => ?_) hsorted hp
  obtain ⟨hcheck, -⟩ := recorded_ok hrun
  obtain ⟨-, -, -, -, hq⟩ := check_ok hcheck
  have hnow : q.1.lastPaymentAt = x.now := congrArg VelocityState.lastPaymentAt hq
  rw [hnow]
  exact hafter

theorem tracks_run {xs : List Attempt} (hpos : ∀ x ∈ xs, 0 < x.now)
    (hsorted : xs.Pairwise fun x y => x.now ≤ y.now)
    (hfit : Along (fun p x => SumsFit config p.1 x.now) (recorded config) ({}, []) xs) :
    Tracks config (runAll (recorded config) ({}, []) xs).1 (accepted config xs) := by
  have hlast : Along (fun p x => p.1.lastPaymentAt ≤ x.now) (recorded config) ({}, []) xs :=
    along_sorted hsorted fun x _ => Nat.zero_le x.now
  apply runAll_induction (I := fun p => Tracks config p.1 p.2) ?_ tracks_nil
    ((hlast.and hfit).and_mem hpos)
  intro p x v q hp hok hrun
  obtain ⟨hcheck, hlog⟩ := recorded_ok hrun
  rw [hlog]
  exact hp.check hok.1 hok.2.1 hok.2.2 hcheck

/-- The limits of a configuration on the payments it accepts. -/
structure WithinLimits (config : VelocityConfig) (log : List Accepted) : Prop where
  count : 0 < config.maxPayments → ∀ a ∈ log,
    (log.filter fun b => a.windowStart ≤ b.now ∧ b.now < a.windowStart + config.windowSecs).length ≤
      config.maxPayments
  amount : 0 < config.maxAmount → ∀ a ∈ log,
    ((log.filter fun b => a.windowStart ≤ b.now ∧
      b.now < a.windowStart + config.windowSecs).map Accepted.amount).sum ≤ config.maxAmount
  cooldown : log.IsChain fun a b => a.now + config.cooldownSecs ≤ b.now
  count_between : 0 < config.maxPayments → ∀ t,
    (log.filter fun b => t ≤ b.now ∧ b.now ≤ t + config.windowSecs).length ≤ 2 * config.maxPayments
  amount_between : 0 < config.maxAmount → ∀ t,
    ((log.filter fun b => t ≤ b.now ∧ b.now ≤ t + config.windowSecs).map Accepted.amount).sum ≤
      2 * config.maxAmount

theorem validateConfig_ok (h : validateConfig config = .ok ())
    (hlimit : 0 < config.maxPayments ∨ 0 < config.maxAmount) : 0 < config.windowSecs := by
  unfold validateConfig at h
  split at h
  · cases h
  split at h
  · cases h
  · rename_i hwindow
    rw [not_and] at hwindow
    exact Nat.pos_of_ne_zero (hwindow hlimit)

theorem Tracks.withinLimits (h : Tracks config s log) (hvalid : validateConfig config = .ok ()) :
    WithinLimits config log := by
  have hone : ∀ a ∈ log, (0 : ℤ) ≤ (fun _ : Accepted => 1) a := fun _ _ => by norm_num
  have hamount : ∀ a ∈ log, 0 ≤ a.amount := fun a ha => (h.amount_pos a ha).le
  refine ⟨fun hm a ha => ?_, fun hm a ha => ?_, h.spaced.isChain, fun hm u => ?_, fun hm u => ?_⟩
  · have hW := validateConfig_ok hvalid (.inl hm)
    have hwithin := (h.separate hW).weight_within (h.count_le hW hm) ha
    rw [weightOf_one] at hwithin
    exact_mod_cast hwithin
  · have hW := validateConfig_ok hvalid (.inr hm)
    exact (h.separate hW).weight_within (h.total_le hW hm) ha
  · have hW := validateConfig_ok hvalid (.inl hm)
    have hbetween := (h.separate hW).spread.weight_between hone (h.count_le hW hm) u
    rw [weightOf_one] at hbetween
    exact_mod_cast hbetween
  · have hW := validateConfig_ok hvalid (.inr hm)
    exact (h.separate hW).spread.weight_between hamount (h.total_le hW hm) u

theorem accepted_withinLimits (config : VelocityConfig) (hvalid : validateConfig config = .ok ())
    (xs : List Attempt) (hpos : ∀ x ∈ xs, 0 < x.now)
    (hsorted : xs.Pairwise fun x y => x.now ≤ y.now)
    (hfit : Along (fun p x => SumsFit config p.1 x.now) (recorded config) ({}, []) xs) :
    WithinLimits config (accepted config xs) :=
  (tracks_run hpos hsorted hfit).withinLimits hvalid

/-- Two payments and a hundred units a minute, ten seconds apart. The second and the fourth
of these attempts are refused. -/
theorem accepted_withinLimits_minute :
    WithinLimits ⟨2, 100, 60, 10, by decide⟩
      (accepted ⟨2, 100, 60, 10, by decide⟩ [⟨50, 100⟩, ⟨10, 105⟩, ⟨40, 120⟩, ⟨5, 140⟩, ⟨60, 160⟩]) ∧
    accepted ⟨2, 100, 60, 10, by decide⟩ [⟨50, 100⟩, ⟨10, 105⟩, ⟨40, 120⟩, ⟨5, 140⟩, ⟨60, 160⟩] =
      [⟨100, 100, 50⟩, ⟨100, 120, 40⟩, ⟨160, 160, 60⟩] := by
  refine ⟨accepted_withinLimits _ rfl _ (by decide) (by decide) ?_, by decide⟩
  exact ⟨fun _ => by decide, fun _ => by decide, fun _ => by decide, fun _ => by decide,
    fun _ => by decide, trivial⟩

/-- At the last timestamp every window has elapsed and every cooldown is over. -/
theorem accepted_at_last_timestamp :
    validateConfig ⟨1, 0, 60, 30, by decide⟩ = .ok () ∧
    accepted ⟨1, 0, 60, 30, by decide⟩ [⟨5, u64Max⟩, ⟨5, u64Max⟩, ⟨5, u64Max⟩] =
      [⟨u64Max, u64Max, 5⟩, ⟨u64Max, u64Max, 5⟩, ⟨u64Max, u64Max, 5⟩] ∧
    ¬WithinLimits ⟨1, 0, 60, 30, by decide⟩
      (accepted ⟨1, 0, 60, 30, by decide⟩ [⟨5, u64Max⟩, ⟨5, u64Max⟩, ⟨5, u64Max⟩]) := by
  have hall : accepted ⟨1, 0, 60, 30, by decide⟩ [⟨5, u64Max⟩, ⟨5, u64Max⟩, ⟨5, u64Max⟩] =
      [⟨u64Max, u64Max, 5⟩, ⟨u64Max, u64Max, 5⟩, ⟨u64Max, u64Max, 5⟩] := by decide
  refine ⟨rfl, hall, fun h => ?_⟩
  rw [hall] at h
  have hcount := h.count_between (by decide) u64Max
  simp at hcount

/-! ## The stored limits of all payers -/

structure VelocityStore where
  config : Option VelocityConfig := none
  payerOverride : Address → Option VelocityConfig := fun _ => none
  state : Address → Option VelocityState := fun _ => none

abbrev VelocityM (α : Type) := Call VelocityStore ContractError α

def effectiveConfig (st : VelocityStore) (payer : Address) : VelocityConfig :=
  (st.payerOverride payer).getD (st.config.getD .off)

def getState (st : VelocityStore) (payer : Address) : VelocityState := (st.state payer).getD {}

def setDefaultConfig (config : VelocityConfig) : VelocityM Unit := do
  ofResult (validateConfig config)
  modify fun st => { st with config := some config }

def setPayerOverride (payer : Address) : Option VelocityConfig → VelocityM Unit
  | some config => do
      ofResult (validateConfig config)
      modify fun st => { st with payerOverride := update st.payerOverride payer (some config) }
  | none => modify fun st => { st with payerOverride := update st.payerOverride payer none }

def enforce (payer : Address) (x : Attempt) : VelocityM Unit := do
  let st ← get
  onlyIf ((effectiveConfig st payer).isEnabled = true) do
    let next ← ofResult (check (effectiveConfig st payer) (getState st payer) x.amount x.now)
    modify fun st => { st with state := update st.state payer (some next) }

def resetState (payer : Address) : VelocityM Unit :=
  modify fun st => { st with state := update st.state payer none }

/-- Every configuration in the store was accepted by `validate_config`. -/
def Validated (st : VelocityStore) : Prop :=
  (∀ config ∈ st.config, validateConfig config = .ok ()) ∧
    ∀ payer, ∀ config ∈ st.payerOverride payer, validateConfig config = .ok ()

theorem Validated.effectiveConfig {st : VelocityStore} (h : Validated st) (payer : Address) :
    validateConfig (effectiveConfig st payer) = .ok () := by
  unfold Velocity.effectiveConfig
  cases hover : st.payerOverride payer with
  | some config => exact h.2 payer config hover
  | none =>
      cases hconfig : st.config with
      | some config => exact h.1 config hconfig
      | none => rfl

inductive VelocityCall where
  | setDefaultConfig (config : VelocityConfig)
  | setPayerOverride (payer : Address) (config : Option VelocityConfig)
  | enforce (payer : Address) (x : Attempt)
  | resetState (payer : Address)

def VelocityCall.exec : VelocityCall → VelocityM Unit
  | setDefaultConfig config => Velocity.setDefaultConfig config
  | setPayerOverride payer config => Velocity.setPayerOverride payer config
  | enforce payer x => Velocity.enforce payer x
  | resetState payer => Velocity.resetState payer

theorem enforce_frame {payer : Address} {x : Attempt} {st st' : VelocityStore} {v : Unit}
    (h : enforce payer x st = .ok (v, st')) :
    st'.config = st.config ∧ st'.payerOverride = st.payerOverride := by
  unfold enforce at h
  rw [get_bind] at h
  rcases onlyIf_ok.1 h with ⟨-, hrun⟩ | ⟨-, hsame⟩
  · obtain ⟨next, -, hset⟩ := ofResult_bind.1 hrun
    cases hset
    exact ⟨rfl, rfl⟩
  · subst hsame
    exact ⟨rfl, rfl⟩

theorem velocityCall_validated {c : VelocityCall} {st st' : VelocityStore} {v : Unit}
    (hst : Validated st) (h : c.exec st = .ok (v, st')) : Validated st' := by
  cases c with
  | setDefaultConfig config =>
      obtain ⟨u, hvalid, hset⟩ := ofResult_bind.1 h
      cases hset
      refine ⟨fun c hc => ?_, hst.2⟩
      rw [← Option.some.inj hc]
      exact hvalid
  | setPayerOverride payer config =>
      cases config with
      | none =>
          cases h
          refine ⟨hst.1, fun other c hc => ?_⟩
          by_cases hother : other = payer
          · subst hother
            simp at hc
          · exact hst.2 other c (by simpa [update_of_ne hother] using hc)
      | some config =>
          obtain ⟨u, hvalid, hset⟩ := ofResult_bind.1 h
          cases hset
          refine ⟨hst.1, fun other c hc => ?_⟩
          by_cases hother : other = payer
          · subst hother
            simp only [update_self, Option.mem_def, Option.some.injEq] at hc
            rw [← hc]
            exact hvalid
          · exact hst.2 other c (by simpa [update_of_ne hother] using hc)
  | enforce payer x =>
      obtain ⟨hconfig, hover⟩ := enforce_frame h
      unfold Validated
      rw [hconfig, hover]
      exact hst
  | resetState payer =>
      cases h
      exact hst

/-- The limits in force are validated at every moment of every run. -/
theorem validated_run (cs : List VelocityCall) (payer : Address) :
    validateConfig (effectiveConfig (runAll VelocityCall.exec {} cs) payer) = .ok () := by
  have hstart : Validated {} := ⟨by simp, by simp⟩
  have hrun : Validated (runAll VelocityCall.exec {} cs) :=
    runAll_invariant (fun _ _ _ _ hst h => velocityCall_validated hst h) hstart cs
  exact hrun.effectiveConfig payer

theorem enforce_enabled {payer : Address} {x : Attempt} {st : VelocityStore}
    (henabled : (effectiveConfig st payer).isEnabled = true) :
    enforce payer x st =
      (check (effectiveConfig st payer) (getState st payer) x.amount x.now).map fun next =>
        ((), { st with state := update st.state payer (some next) }) := by
  have hrun : enforce payer x st = onlyIf ((effectiveConfig st payer).isEnabled = true) (do
      let next ← ofResult (check (effectiveConfig st payer) (getState st payer) x.amount x.now)
      modify fun st => { st with state := update st.state payer (some next) }) st := rfl
  rw [hrun, onlyIf, if_pos henabled]
  cases hcheck : check (effectiveConfig st payer) (getState st payer) x.amount x.now with
  | ok next => exact bind_run rfl
  | error e => exact bind_trap rfl

theorem getState_enforce_self {payer : Address} {x : Attempt} {st : VelocityStore}
    (henabled : (effectiveConfig st payer).isEnabled = true) :
    getState (commit (enforce payer x) st) payer =
      commit (attempt (effectiveConfig st payer) x) (getState st payer) := by
  unfold commit attempt
  rw [enforce_enabled henabled]
  cases check (effectiveConfig st payer) (getState st payer) x.amount x.now with
  | ok next => simp [Except.map, getState]
  | error e => rfl

theorem getState_enforce_other {payer other : Address} {x : Attempt} (st : VelocityStore)
    (hother : payer ≠ other) :
    getState (commit (enforce other x) st) payer = getState st payer := by
  rcases commit_cases (enforce other x) st with ⟨v, hrun⟩ | ⟨-, hsame⟩
  · generalize commit (enforce other x) st = st' at hrun ⊢
    unfold enforce at hrun
    rw [get_bind] at hrun
    rcases onlyIf_ok.1 hrun with ⟨-, hrun⟩ | ⟨-, hsame⟩
    · obtain ⟨next, -, hset⟩ := ofResult_bind.1 hrun
      cases hset
      simp [getState, update_of_ne hother]
    · rw [hsame]
  · rw [hsame]

/-- The payments of all payers are, for each payer, a run of `check` on that payer's own
attempts. -/
theorem enforce_run (payer : Address) (xs : List (Address × Attempt)) (st : VelocityStore)
    (henabled : (effectiveConfig st payer).isEnabled = true) :
    getState (runAll (fun x => enforce x.1 x.2) st xs) payer =
      runAll (attempt (effectiveConfig st payer)) (getState st payer)
        ((xs.filter fun x => x.1 = payer).map Prod.snd) := by
  induction xs generalizing st with
  | nil => rfl
  | cons x xs ih =>
      have hframe : effectiveConfig (commit (enforce x.1 x.2) st) payer = effectiveConfig st payer := by
        rcases commit_cases (enforce x.1 x.2) st with ⟨v, hrun⟩ | ⟨-, hsame⟩
        · obtain ⟨hconfig, hover⟩ := enforce_frame hrun
          unfold effectiveConfig
          rw [hconfig, hover]
        · rw [hsame]
      rw [runAll_cons, ih _ (by rw [hframe]; exact henabled), hframe]
      by_cases hx : x.1 = payer
      · rw [List.filter_cons_of_pos (by simpa using hx), List.map_cons, runAll_cons]
        congr 1
        rw [← hx]
        rw [← hx] at henabled
        exact getState_enforce_self henabled
      · rw [List.filter_cons_of_neg (by simpa using hx), getState_enforce_other st (Ne.symm hx)]

/-- After any calls the limits in force are validated, and however the payments of the payers interleave then, the
state of a payer with limits is that of a run of `check` on the payer's own attempts. -/
theorem payers_law (cs : List VelocityCall) (payer : Address) (xs : List (Address × Attempt))
    (henabled : (effectiveConfig (runAll VelocityCall.exec {} cs) payer).isEnabled = true) :
    validateConfig (effectiveConfig (runAll VelocityCall.exec {} cs) payer) = .ok () ∧
      getState (runAll (fun x => enforce x.1 x.2) (runAll VelocityCall.exec {} cs) xs) payer =
        runAll (attempt (effectiveConfig (runAll VelocityCall.exec {} cs) payer))
          (getState (runAll VelocityCall.exec {} cs) payer) ((xs.filter fun x => x.1 = payer).map Prod.snd) :=
  ⟨validated_run cs payer, enforce_run payer xs _ henabled⟩

/-- The attempts of payer 8 do not count for payer 7. -/
theorem payers_sample :
    (getState (runAll (fun x => enforce x.1 x.2)
      (runAll VelocityCall.exec {} [.setDefaultConfig ⟨2, 100, 60, 10, by decide⟩])
      [(7, ⟨50, 100⟩), (8, ⟨90, 100⟩), (7, ⟨50, 120⟩)]) 7).amountTotal = 100 := by
  rw [(payers_law [.setDefaultConfig ⟨2, 100, 60, 10, by decide⟩] 7 [(7, ⟨50, 100⟩), (8, ⟨90, 100⟩), (7, ⟨50, 120⟩)] rfl).2]
  decide +kernel

end StellarSplit.Split.Velocity
