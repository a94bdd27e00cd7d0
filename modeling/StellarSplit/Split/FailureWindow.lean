import StellarSplit.Split.Breaker

/-!
# Bursts of failures

A closed breaker counts the reported failures from the start of a window on, and the first
report that comes too late starts the next window. A burst is a threshold of reports within
one window length. The breaker opens on every burst that no restart cuts, and on nothing else.
-/

namespace StellarSplit.Split.Breaker

open Exec Machine Multisig

/-- A failure report: the environment of the call, the reporter and the reason. -/
abbrev Report := AdminEnv × Address × String

def Report.ledger (c : Report) : ℕ := c.1.sequence

def reportStep (c : Report) : BreakerM CircuitBreakerState := reportCircuitFailure c.1 c.2.1 c.2.2

abbrev reported (s : BreakerStore) (calls : List Report) : BreakerStore := runAll reportStep s calls

/-- A breaker that was closed under this configuration, before its first report. -/
structure Fresh (config : CircuitBreakerConfig) (s : BreakerStore) : Prop where
  closed : s.loadState = .closed
  failures : s.failures = none
  loads : s.loadConfig = config
  window : 0 < config.failureWindowLedgers
  threshold : 0 < config.failureThreshold ∧ config.failureThreshold ≤ u32Max

/-- Reports of operators in the order of the ledgers, each made while the breaker is closed. -/
structure WhileClosed (s : BreakerStore) (calls : List Report) : Prop where
  permitted : ∀ c ∈ calls, Permitted c.1 c.2.1 .operator
  ordered : calls.Pairwise fun c d => c.ledger ≤ d.ledger
  closed : ∀ xs c, xs ++ [c] <+: calls → (reported s xs).loadState = .closed

/-- A threshold of reports within fewer ledgers than the window has. -/
structure Burst (config : CircuitBreakerConfig) (burst : List Report) : Prop where
  length : burst.length = config.failureThreshold
  within : ∀ c ∈ burst, ∀ d ∈ burst, d.ledger < c.ledger + config.failureWindowLedgers

/-- Every burst opens the breaker by its last report, and a report opens it only at the end of one. -/
structure TripsOnBursts (config : CircuitBreakerConfig) (s : BreakerStore) (calls : List Report) : Prop where
  trips : ∀ before burst, before ++ burst <+: calls → Burst config burst →
    (reported s (before ++ burst)).loadState = .open
  only : ∀ xs c, xs ++ [c] <+: calls → (reported s (xs ++ [c])).loadState = .open →
    ∃ before burst, xs ++ [c] = before ++ burst ∧ Burst config burst

/-- A report in this ledger starts a new window. -/
def BreakerStore.Restarts (s : BreakerStore) (ledger : ℕ) : Prop :=
  s.loadConfig.failureWindowLedgers ≤ ledger - (s.failures.getD (0, ledger)).2

/-- No report of a burst but its first starts a new window. -/
def Uncut (config : CircuitBreakerConfig) (s : BreakerStore) (calls : List Report) : Prop :=
  ∀ before first xs c ys, before ++ first :: (xs ++ c :: ys) <+: calls →
    Burst config (first :: (xs ++ c :: ys)) → ¬(reported s (before ++ first :: xs)).Restarts c.ledger

variable {config : CircuitBreakerConfig} {s t u : BreakerStore} {c first : Report}
  {calls before xs ys : List Report} {n start : ℕ}

/-! ## One report -/

/-- How many failures the window has. -/
def BreakerStore.count (s : BreakerStore) : ℕ := (s.failures.getD (0, 0)).1

theorem countFailure_restart (h : s.Restarts n) : s.countFailure n = (1, n) := by
  unfold BreakerStore.Restarts at h
  unfold BreakerStore.countFailure
  dsimp only
  rw [if_pos h]
  rfl

theorem countFailure_count (h : ¬s.Restarts n) (hcount : s.count < u32Max) :
    (s.countFailure n).1 = s.count + 1 := by
  have hsame : (s.failures.getD (0, n)).1 = s.count := by
    unfold BreakerStore.count
    cases s.failures <;> rfl
  unfold BreakerStore.Restarts at h
  unfold BreakerStore.countFailure
  dsimp only
  rw [if_neg h]
  dsimp only
  rw [hsame, satAddU32, min_eq_left hcount]

/-- A report to a closed breaker opens it when the window is full, and is counted otherwise. -/
theorem reportStep_closed (hpermitted : Permitted c.1 c.2.1 .operator) (hclosed : s.loadState = .closed)
    (hthreshold : 0 < s.loadConfig.failureThreshold) :
    commit (reportStep c) s =
      if s.loadConfig.failureThreshold ≤ (s.countFailure c.ledger).1 then s.transition c.1 .open c.2.1 c.2.2
      else { s with failures := some (s.countFailure c.ledger) } := by
  have htrip : s.shouldTrip (s.countFailure c.1.sequence).1 = true ↔
      s.loadConfig.failureThreshold ≤ (s.countFailure c.ledger).1 := by
    unfold BreakerStore.shouldTrip
    rw [hclosed]
    simp [hthreshold, Report.ledger]
  split_ifs with hfull
  · refine commit_ok (a := .open) (requireAdminRole_bind.2 ⟨hpermitted, get_bind.2 ?_⟩)
    rw [if_pos (htrip.2 hfull)]
    rfl
  · refine commit_ok (a := s.loadState) (requireAdminRole_bind.2 ⟨hpermitted, get_bind.2 ?_⟩)
    rw [if_neg fun h => hfull (htrip.1 h)]
    rfl

theorem countFailure_le : (s.countFailure n).1 ≤ s.count + 1 := by
  by_cases h : s.Restarts n
  · rw [countFailure_restart h]
    omega
  · unfold BreakerStore.Restarts at h
    have hsame : (s.failures.getD (0, n)).1 = s.count := by
      unfold BreakerStore.count
      cases s.failures <;> rfl
    unfold BreakerStore.countFailure
    dsimp only
    rw [if_neg h]
    dsimp only
    rw [hsame]
    exact min_le_left _ _

/-! ## The count -/

/-- The reports counted are the last ones, from the start of the window on. -/
inductive InWindow (config : CircuitBreakerConfig) : List Report → Option (ℕ × ℕ) → Prop
  | empty : InWindow config [] none
  | counted (before : List Report) (first : Report) (tail : List Report)
      (hwithin : ∀ c ∈ first :: tail, first.ledger ≤ c.ledger ∧
        c.ledger < first.ledger + config.failureWindowLedgers) :
      InWindow config (before ++ first :: tail) (some (tail.length + 1, first.ledger))

/-- What a closed breaker has counted of the reports so far. -/
structure Counting (config : CircuitBreakerConfig) (xs : List Report) (u : BreakerStore) : Prop where
  closed : u.loadState = .closed
  loads : u.loadConfig = config
  few : u.count < config.failureThreshold
  window : InWindow config xs u.failures

/-- The window with the next report. -/
theorem InWindow.snoc (hpos : 0 < config.failureWindowLedgers) (hloads : u.loadConfig = config)
    (hcount : u.count < u32Max) (h : InWindow config xs u.failures) (hordered : ∀ d ∈ xs, d.ledger ≤ c.ledger) :
    InWindow config (xs ++ [c]) (some (u.countFailure c.ledger)) := by
  have hnew : ∀ before, InWindow config (before ++ [c]) (some (1, c.ledger)) := fun before =>
    .counted before c [] (by simpa using hpos)
  by_cases hrestart : u.Restarts c.ledger
  · rw [countFailure_restart hrestart]
    exact hnew xs
  · have hfirst := countFailure_count hrestart hcount
    have hpair : u.countFailure c.ledger = (u.count + 1, (u.failures.getD (0, c.ledger)).2) := by
      refine Prod.ext hfirst ?_
      unfold BreakerStore.Restarts at hrestart
      unfold BreakerStore.countFailure
      dsimp only
      rw [if_neg hrestart]
    unfold BreakerStore.Restarts at hrestart
    rw [hpair]
    unfold BreakerStore.count
    cases hfailures : u.failures with
    | none =>
        rw [hfailures] at h
        cases h
        exact hnew []
    | some p =>
        rw [hfailures, hloads] at hrestart
        rw [hfailures] at h
        cases h with
        | counted before first tail hwithin =>
            have hle := hordered first (by simp)
            have hwindow : InWindow config (before ++ first :: (tail ++ [c]))
                (some ((tail ++ [c]).length + 1, first.ledger)) := by
              refine .counted before first (tail ++ [c]) fun d hd => ?_
              rw [← List.cons_append] at hd
              rcases List.mem_append.1 hd with hd | hd
              · exact hwithin d hd
              · rw [List.mem_singleton.1 hd]
                simp only [Option.getD_some] at hrestart
                exact ⟨hle, by omega⟩
            rw [List.length_append, List.length_singleton, ← List.cons_append, ← List.append_assoc] at hwindow
            exact hwindow

/-- A full window ends in a burst. -/
theorem InWindow.burst (h : InWindow config xs (some (n, start))) (hfull : config.failureThreshold ≤ n) :
    ∃ before burst, xs = before ++ burst ∧ Burst config burst := by
  cases h with
  | counted before first tail hwithin =>
      refine ⟨before ++ (first :: tail).take (tail.length + 1 - config.failureThreshold),
        (first :: tail).drop (tail.length + 1 - config.failureThreshold), ?_, ?_, fun c hc d hd => ?_⟩
      · rw [List.append_assoc, List.take_append_drop]
      · rw [List.length_drop, List.length_cons]
        omega
      · have hfirst := (hwithin c (List.mem_of_mem_drop hc)).1
        have hlast := (hwithin d (List.mem_of_mem_drop hd)).2
        omega

/-! ## Runs of reports -/

theorem WhileClosed.of_isPrefix (h : WhileClosed s calls) (hxs : xs <+: calls) : WhileClosed s xs where
  permitted c hc := h.permitted c (hxs.subset hc)
  ordered := h.ordered.sublist hxs.sublist
  closed ys c hys := h.closed ys c (hys.trans hxs)

/-- After the reports the breaker is open at the end of a burst, or it is closed and has counted them. -/
theorem WhileClosed.counting (hfresh : Fresh config s) (h : WhileClosed s calls) :
    (reported s calls).loadState = .open ∧ (∃ before burst, calls = before ++ burst ∧ Burst config burst) ∨
      Counting config calls (reported s calls) := by
  induction calls using List.reverseRecOn with
  | nil =>
      refine .inr ⟨hfresh.closed, hfresh.loads, ?_, ?_⟩
      · unfold BreakerStore.count
        rw [reported, runAll_nil, hfresh.failures]
        exact hfresh.threshold.1
      · rw [reported, runAll_nil, hfresh.failures]
        exact .empty
  | append_singleton xs c ih =>
      have hclosed := h.closed xs c (List.prefix_refl _)
      rcases ih (h.of_isPrefix (List.prefix_append _ _)) with ⟨hopen, -⟩ | hcounting
      · rw [hclosed] at hopen
        cases hopen
      · have hthreshold : (reported s xs).loadConfig.failureThreshold = config.failureThreshold := by
          rw [hcounting.loads]
        have hordered : ∀ d ∈ xs, d.ledger ≤ c.ledger := fun d hd =>
          (List.pairwise_append.1 h.ordered).2.2 d hd c (List.mem_singleton_self c)
        have hwindow := hcounting.window.snoc hfresh.window hcounting.loads
          (hcounting.few.trans_le hfresh.threshold.2) hordered
        have hstep := reportStep_closed (h.permitted c (by simp)) hclosed
          (by rw [hthreshold]; exact hfresh.threshold.1)
        rw [hthreshold] at hstep
        rw [reported, runAll_snoc, hstep]
        split_ifs with hfull
        · exact .inl ⟨rfl, hwindow.burst hfull⟩
        · exact .inr ⟨hclosed, hcounting.loads, not_le.1 hfull, hwindow⟩

/-- The last report of a run opens the breaker or is counted. -/
theorem WhileClosed.snoc_eq (hfresh : Fresh config s) (h : WhileClosed s (xs ++ [c])) :
    Counting config xs (reported s xs) ∧ reported s (xs ++ [c]) =
      if config.failureThreshold ≤ ((reported s xs).countFailure c.ledger).1
        then (reported s xs).transition c.1 .open c.2.1 c.2.2
        else { reported s xs with failures := some ((reported s xs).countFailure c.ledger) } := by
  have hclosed := h.closed xs c (List.prefix_refl _)
  have hcounting : Counting config xs (reported s xs) := by
    refine ((h.of_isPrefix (List.prefix_append _ _)).counting hfresh).resolve_left fun hopen => ?_
    rw [hclosed] at hopen
    cases hopen.1
  have hstep := reportStep_closed (h.permitted c (by simp)) hclosed
    (by rw [hcounting.loads]; exact hfresh.threshold.1)
  rw [hcounting.loads] at hstep
  exact ⟨hcounting, (runAll_snoc _ _ _ _).trans hstep⟩

/-- Reports that start no new window add up. -/
theorem WhileClosed.le_count (hfresh : Fresh config s) (h : WhileClosed s (before ++ first :: xs))
    (huncut : ∀ ys c zs, xs = ys ++ c :: zs → ¬(reported s (before ++ first :: ys)).Restarts c.ledger)
    (hclosed : (reported s (before ++ first :: xs)).loadState = .closed) :
    xs.length + 1 ≤ (reported s (before ++ first :: xs)).count := by
  induction xs using List.reverseRecOn with
  | nil =>
      obtain ⟨hcounting, hstep⟩ := h.snoc_eq hfresh
      have hone : 1 ≤ ((reported s before).countFailure first.ledger).1 := by
        by_cases hrestart : (reported s before).Restarts first.ledger
        · rw [countFailure_restart hrestart]
        · rw [countFailure_count hrestart (hcounting.few.trans_le hfresh.threshold.2)]
          omega
      rw [hstep] at hclosed ⊢
      split_ifs at hclosed ⊢ with hfull
      · cases hclosed
      · exact hone
  | append_singleton xs c ih =>
      rw [← List.cons_append, ← List.append_assoc] at h hclosed ⊢
      obtain ⟨hcounting, hstep⟩ := h.snoc_eq hfresh
      have hbefore := ih (h.of_isPrefix (List.prefix_append _ _))
        (fun ys d zs hxs => huncut ys d (zs ++ [c]) (by rw [hxs]; simp)) hcounting.closed
      have hnext := countFailure_count (huncut xs c [] rfl) (hcounting.few.trans_le hfresh.threshold.2)
      rw [hstep] at hclosed ⊢
      split_ifs at hclosed ⊢ with hfull
      · cases hclosed
      · rw [List.length_append, List.length_singleton]
        change _ ≤ ((reported s (before ++ first :: xs)).countFailure c.ledger).1
        omega

/-- The reports since the last start of a window are not enough to open the breaker while they are few. -/
theorem WhileClosed.count_le (hfresh : Fresh config s) (h : WhileClosed s (xs ++ c :: ys))
    (hrestart : (reported s xs).Restarts c.ledger) (hfew : ys.length + 1 < config.failureThreshold) :
    (reported s (xs ++ c :: ys)).loadState = .closed ∧ (reported s (xs ++ c :: ys)).count ≤ ys.length + 1 := by
  induction ys using List.reverseRecOn with
  | nil =>
      obtain ⟨hcounting, hstep⟩ := h.snoc_eq hfresh
      rw [countFailure_restart hrestart, if_neg (by simpa using hfew)] at hstep
      rw [hstep]
      exact ⟨hcounting.closed, le_rfl⟩
  | append_singleton ys d ih =>
      rw [List.length_append, List.length_singleton] at hfew ⊢
      rw [← List.cons_append, ← List.append_assoc] at h ⊢
      obtain ⟨hcounting, hstep⟩ := h.snoc_eq hfresh
      obtain ⟨-, hle⟩ := ih (h.of_isPrefix (List.prefix_append _ _)) (by omega)
      have hnext := countFailure_le (s := reported s (xs ++ c :: ys)) (n := d.ledger)
      rw [if_neg (by omega)] at hstep
      rw [hstep]
      exact ⟨hcounting.closed, hnext.trans (by omega)⟩

/-! ## The law of the bursts -/

/-- The breaker opens on every burst exactly if no burst has a new window start inside it. -/
theorem trips_on_bursts_iff (hfresh : Fresh config s) (h : WhileClosed s calls) :
    TripsOnBursts config s calls ↔ Uncut config s calls := by
  constructor
  · intro htrips before first xs c ys hprefix hburst hrestart
    have hlength := hburst.length
    have hopen := htrips.trips before _ hprefix hburst
    rw [List.length_cons, List.length_append, List.length_cons] at hlength
    rw [← List.cons_append, ← List.append_assoc] at hprefix hopen
    obtain ⟨hclosed, -⟩ := (h.of_isPrefix hprefix).count_le hfresh hrestart (by omega)
    rw [hclosed] at hopen
    cases hopen
  · refine fun huncut => ⟨fun before burst hprefix hburst => ?_, fun xs c hprefix hopen => ?_⟩
    · cases burst with
      | nil => exact absurd hburst.length hfresh.threshold.1.ne
      | cons first xs =>
          have hrun := h.of_isPrefix hprefix
          rcases hrun.counting hfresh with ⟨hopen, -⟩ | hcounting
          · exact hopen
          · have hle := hrun.le_count hfresh (fun ys c zs hxs => huncut before first ys c zs
              (hxs ▸ hprefix) (hxs ▸ hburst)) hcounting.closed
            have hlength : xs.length + 1 = config.failureThreshold := hburst.length
            have hfew := hcounting.few
            omega
    · rcases (h.of_isPrefix hprefix).counting hfresh with ⟨-, hburst⟩ | hcounting
      · exact hburst
      · rw [hcounting.closed] at hopen
        cases hopen

/-- Three failures within ten ledgers open the breaker. -/
def watchful : BreakerStore := { config := some ⟨3, 10, 120⟩ }

def reportsAt (ledgers : List ℕ) : List Report := ledgers.map fun n => (ledgerEnv n, 5, "failure")

theorem watchful_fresh : Fresh ⟨3, 10, 120⟩ watchful := ⟨rfl, rfl, rfl, by decide, by decide⟩

theorem whileClosed_reportsAt {ledgers : List ℕ} (hordered : ledgers.Pairwise (· ≤ ·))
    (hclosed : ∀ n < ledgers.length, (reported watchful (reportsAt (ledgers.take n))).loadState = .closed) :
    WhileClosed watchful (reportsAt ledgers) where
  permitted c hc := by
    obtain ⟨n, -, rfl⟩ := List.mem_map.1 hc
    exact ⟨rfl, ⟨rfl, (by decide : (5 : Address) ≠ currentContract)⟩, _, rfl, .superAdmin, rfl, .inl rfl⟩
  ordered := List.pairwise_map.2 hordered
  closed xs c hxs := by
    have hlength : xs.length + 1 ≤ ledgers.length := by simpa [reportsAt] using hxs.length_le
    have htake : xs = (reportsAt ledgers).take xs.length :=
      List.prefix_iff_eq_take.1 ((List.prefix_append _ _).trans hxs)
    rw [htake, reportsAt, ← List.map_take]
    exact hclosed _ hlength

theorem trips_on_bursts_sample :
    (reported watchful (reportsAt [0, 4, 9])).loadState = .open ∧
      (TripsOnBursts ⟨3, 10, 120⟩ watchful (reportsAt [0, 4, 9]) ↔
        Uncut ⟨3, 10, 120⟩ watchful (reportsAt [0, 4, 9])) :=
  ⟨by decide +kernel, trips_on_bursts_iff watchful_fresh
    (whileClosed_reportsAt (by decide) (by decide +kernel))⟩

/-- A window that starts in the middle of a burst forgets its first report. -/
theorem burst_across_windows :
    Fresh ⟨3, 10, 120⟩ watchful ∧ WhileClosed watchful (reportsAt [0, 9, 10, 11]) ∧
      Burst ⟨3, 10, 120⟩ (reportsAt [9, 10, 11]) ∧
      (reported watchful (reportsAt [0] ++ reportsAt [9, 10, 11])).loadState ≠ .open :=
  ⟨watchful_fresh, whileClosed_reportsAt (by decide) (by decide +kernel), ⟨rfl, by decide +kernel⟩,
    by decide +kernel⟩

end StellarSplit.Split.Breaker
