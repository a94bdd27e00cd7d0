import Mathlib.Data.List.DropRight
import StellarSplit.Lib.Numbered
import StellarSplit.Lib.Runs
import StellarSplit.Split.Lock

/-!
# Alerts of the monitor

Rules compare a metric with a threshold and raise alerts, which are numbered and kept in a
history of 50. The counters are held in a local copy while the rules are evaluated; every
rule is accounted for as if the copy were stored after it. A rule raises no alert within its
cooldown, whose end is a saturating sum: at the last timestamp it is always over.
-/

namespace StellarSplit.Split.Alerts

open Exec Function Machine Numbered

/-! ## Rules, alerts and counters -/

inductive MetricKind where
  | dailyInvoicesCreated | dailyPayments | dailyPaymentVolume | dailyRefunds | dailyRefundVolume
  | refundRateBps | paymentAmount
deriving DecidableEq, Repr

inductive Comparator where
  | above | below
deriving DecidableEq, Repr

inductive AlertSeverity where
  | info | warning | critical
deriving DecidableEq, Repr

inductive UsageKind where
  | invoiceCreated | paymentReceived | invoiceReleased | invoiceRefunded
deriving DecidableEq, Repr

structure AlertRule where
  id : ℕ
  metric : MetricKind
  comparator : Comparator
  threshold : ℤ
  severity : AlertSeverity
  cooldownSecs : ℕ
  enabled : Bool
  lastTriggeredAt : ℕ
  triggerCount : ℕ
deriving DecidableEq, Repr

structure Alert where
  id : ℕ
  ruleId : ℕ
  metric : MetricKind
  severity : AlertSeverity
  value : ℤ
  threshold : ℤ
  triggeredAt : ℕ
  acknowledged : Bool
  delivered : Option Bool
deriving DecidableEq, Repr

/-- The event that publishes an alert, with the time of its ledger. -/
structure Raised where
  ruleId : ℕ
  id : ℕ
  metric : MetricKind
  severity : AlertSeverity
  value : ℤ
  threshold : ℤ
  time : ℕ
deriving DecidableEq, Repr

structure MonitoringStats where
  evaluations : ℕ := 0
  totalAlerts : ℕ := 0
  infoAlerts : ℕ := 0
  warningAlerts : ℕ := 0
  criticalAlerts : ℕ := 0
  unacknowledged : ℕ := 0
  failedDeliveries : ℕ := 0
  lastAlertAt : ℕ := 0
deriving DecidableEq, Repr

/-- What the metrics read of the day's analytics. -/
structure DailyUsage where
  invoicesCreated : ℕ := 0
  payments : ℕ := 0
  paymentVolume : ℤ := 0
  refunds : ℕ := 0
  refundVolume : ℤ := 0

structure UsageTotals where
  invoicesCreated : ℕ := 0
  refunds : ℕ := 0

/-- The ledger's time, the analytics at it, and whether a receiver takes an alert. -/
structure MonitorEnv where
  now : ℕ
  today : DailyUsage := {}
  totals : UsageTotals := {}
  receives : Address → Alert → Bool := fun _ _ => true

/-- The storage of the monitor, and the events it publishes of new rules and of alerts. -/
structure AlertStore where
  rules : Option (List AlertRule) := none
  nextRuleId : Option ℕ := none
  nextAlertId : Option ℕ := none
  stats : Option MonitoringStats := none
  receiver : Option Address := none
  alerts : ℕ → Option Alert := fun _ => none
  added : List ℕ := []
  raised : List Raised := []

abbrev AlertM (α : Type) := Call AlertStore SplitFault α

def maxAlertRules : ℕ := 20

def maxAlertHistory : ℕ := 50

def Alert.raised (a : Alert) : Raised := ⟨a.ruleId, a.id, a.metric, a.severity, a.value, a.threshold, a.triggeredAt⟩

def MonitoringStats.countOf (stats : MonitoringStats) : AlertSeverity → ℕ
  | .info => stats.infoAlerts
  | .warning => stats.warningAlerts
  | .critical => stats.criticalAlerts

namespace AlertStore

def getRules (s : AlertStore) : List AlertRule := s.rules.getD []

def getStats (s : AlertStore) : MonitoringStats := s.stats.getD {}

def getAlert (s : AlertStore) (alertId : ℕ) : Option Alert := s.alerts alertId

end AlertStore

/-! ## Rule changes -/

def addRule (rule : AlertRule) : AlertM ℕ := do
  require (¬(rule.metric = .refundRateBps ∧ 10000 < rule.threshold)) (.error .invalidArgument)
  require (0 ≤ rule.threshold) (.error .invalidArgument)
  let s ← get
  require (s.getRules.length < maxAlertRules) (.error .batchLimitExceeded)
  let id := s.nextRuleId.getD 1
  set { s with
    nextRuleId := some (satAddU32 id 1)
    rules := some (s.getRules ++ [{ rule with id := id, lastTriggeredAt := 0, triggerCount := 0 }])
    added := s.added ++ [id] }
  pure id

def findRule (rules : List AlertRule) (ruleId : ℕ) : Option ℕ := rules.findIdx? fun rule => rule.id = ruleId

def removeRule (ruleId : ℕ) : AlertM Unit := do
  let s ← get
  let index ← orError (findRule s.getRules ruleId) .missingStorageEntry
  set { s with rules := some (s.getRules.eraseIdx index) }

def setRuleEnabled (ruleId : ℕ) (enabled : Bool) : AlertM Unit := do
  let s ← get
  let index ← orError (findRule s.getRules ruleId) .missingStorageEntry
  set { s with rules := some (s.getRules.modify index fun rule => { rule with enabled := enabled }) }

def setReceiver (receiver : Option Address) : AlertM Unit := modify fun s => { s with receiver := receiver }

/-! ## Evaluation -/

def collectMetric (env : MonitorEnv) : MetricKind → Option ℤ
  | .dailyInvoicesCreated => some env.today.invoicesCreated
  | .dailyPayments => some env.today.payments
  | .dailyPaymentVolume => some env.today.paymentVolume
  | .dailyRefunds => some env.today.refunds
  | .dailyRefundVolume => some env.today.refundVolume
  | .refundRateBps =>
      if env.totals.invoicesCreated = 0 then some 0
      else some (env.totals.refunds * 10000 / env.totals.invoicesCreated)
  | .paymentAmount => none

/-- The metrics that a usage event can change. -/
def affects : UsageKind → MetricKind → Bool
  | .invoiceCreated, .dailyInvoicesCreated | .invoiceCreated, .refundRateBps => true
  | .paymentReceived, .dailyPayments | .paymentReceived, .dailyPaymentVolume
  | .paymentReceived, .paymentAmount => true
  | .invoiceRefunded, .dailyRefunds | .invoiceRefunded, .dailyRefundVolume
  | .invoiceRefunded, .refundRateBps => true
  | _, _ => false

def breaches : Comparator → ℤ → ℤ → Bool
  | .above, value, threshold => decide (threshold < value)
  | .below, value, threshold => decide (value < threshold)

/-- The value a rule is checked against, unless it is skipped. -/
def ruleValue (env : MonitorEnv) (trigger : Option (UsageKind × ℤ)) (rule : AlertRule) : Option ℤ :=
  if rule.enabled = false then none
  else match trigger with
    | some (kind, amount) =>
        if affects kind rule.metric = false then none
        else if rule.metric = .paymentAmount then some amount
        else collectMetric env rule.metric
    | none => collectMetric env rule.metric

def CooledDown (rule : AlertRule) (now : ℕ) : Prop :=
  rule.triggerCount = 0 ∨ satAddU64 rule.lastTriggeredAt rule.cooldownSecs ≤ now

instance (rule : AlertRule) (now : ℕ) : Decidable (CooledDown rule now) := inferInstanceAs (Decidable (_ ∨ _))

/-- Push an alert to the receiver, if there is one. -/
def deliver (env : MonitorEnv) (receiver : Option Address) (alert : Alert) (stats : MonitoringStats) :
    Alert × MonitoringStats :=
  match receiver with
  | none => (alert, stats)
  | some address =>
      let ok := env.receives address alert
      ({ alert with delivered := some ok },
        if ok then stats else { stats with failedDeliveries := satAddU64 stats.failedDeliveries 1 })

/-- Store an alert and drop the one that is too old now: the table and the unacknowledged alerts. -/
def keepAlert (alerts : ℕ → Option Alert) (alert : Alert) (unacknowledged : ℕ) : (ℕ → Option Alert) × ℕ :=
  let alerts := update alerts alert.id (some alert)
  if maxAlertHistory < alert.id then
    match alerts (alert.id - maxAlertHistory) with
    | some old =>
        (update alerts (alert.id - maxAlertHistory) none,
          if old.acknowledged then unacknowledged else unacknowledged - 1)
    | none => (alerts, unacknowledged)
  else (alerts, unacknowledged)

def countAlert (now : ℕ) (severity : AlertSeverity) (stats : MonitoringStats) : MonitoringStats :=
  let stats := { stats with
    totalAlerts := satAddU64 stats.totalAlerts 1
    unacknowledged := satAddU64 stats.unacknowledged 1
    lastAlertAt := now }
  match severity with
  | .info => { stats with infoAlerts := satAddU64 stats.infoAlerts 1 }
  | .warning => { stats with warningAlerts := satAddU64 stats.warningAlerts 1 }
  | .critical => { stats with criticalAlerts := satAddU64 stats.criticalAlerts 1 }

def newAlert (env : MonitorEnv) (rule : AlertRule) (value : ℤ) (id : ℕ) : Alert where
  id := id
  ruleId := rule.id
  metric := rule.metric
  severity := rule.severity
  value := value
  threshold := rule.threshold
  triggeredAt := env.now
  acknowledged := false
  delivered := none

/-- Store, publish and deliver one alert. -/
def raise (env : MonitorEnv) (rule : AlertRule) (value : ℤ) (s : AlertStore) (stats : MonitoringStats) :
    AlertStore × MonitoringStats :=
  let alert := newAlert env rule value (s.nextAlertId.getD 1)
  let sent := deliver env s.receiver alert stats
  let kept := keepAlert s.alerts sent.1 sent.2.unacknowledged
  ({ s with
      nextAlertId := some (satAddU64 alert.id 1)
      alerts := kept.1
      raised := s.raised ++ [alert.raised] },
    countAlert env.now rule.severity { sent.2 with unacknowledged := kept.2 })

/-- What a rule becomes when it raises an alert. -/
def AlertRule.triggered (rule : AlertRule) (now : ℕ) : AlertRule :=
  { rule with
    lastTriggeredAt := now
    triggerCount := satAddU32 rule.triggerCount 1 }

/-- What an evaluation holds in local variables, and the storage beside them. -/
structure Scan where
  rules : List AlertRule
  store : AlertStore
  stats : MonitoringStats
  raised : ℕ
  changed : Bool

/-- One round of the loop over the rules. -/
def evaluateRule (env : MonitorEnv) (trigger : Option (UsageKind × ℤ)) (c : Scan) (rule : AlertRule) : Scan :=
  match ruleValue env trigger rule with
  | none => { c with rules := c.rules ++ [rule] }
  | some value =>
      let stats := { c.stats with evaluations := satAddU64 c.stats.evaluations 1 }
      if breaches rule.comparator value rule.threshold = true ∧ CooledDown rule env.now then
        let rule := rule.triggered env.now
        let p := raise env rule value c.store stats
        ⟨c.rules ++ [rule], p.1, p.2, c.raised + 1, true⟩
      else { c with rules := c.rules ++ [rule], stats := stats, changed := true }

def evaluate (env : MonitorEnv) (trigger : Option (UsageKind × ℤ)) (s : AlertStore) : AlertStore × ℕ :=
  if s.getRules = [] then (s, 0)
  else
    let c := s.getRules.foldl (evaluateRule env trigger) ⟨[], s, s.getStats, 0, false⟩
    let s := if 0 < c.raised then { c.store with rules := some c.rules } else c.store
    (if c.changed then { s with stats := some c.stats } else s, c.raised)

def onUsage (env : MonitorEnv) (kind : UsageKind) (amount : ℤ) : AlertM Unit :=
  modify fun s => if s.rules.isNone then s else (evaluate env (some (kind, amount)) s).1

def checkAll (env : MonitorEnv) : AlertM ℕ := fun s => .ok ((evaluate env none s).2, (evaluate env none s).1)

/-! ## Alerts -/

def acknowledge (alertId : ℕ) : AlertM Unit := do
  let s ← get
  let alert ← orError (s.getAlert alertId) .missingStorageEntry
  if alert.acknowledged then pure ()
  else set { s with
    alerts := update s.alerts alertId (some { alert with acknowledged := true })
    stats := some { s.getStats with unacknowledged := s.getStats.unacknowledged - 1 } }

/-- The alerts under a number and those below it, as long as there are any. -/
def alertsDown (s : AlertStore) : ℕ → ℕ → List Alert
  | 0, _ => []
  | _ + 1, 0 => []
  | id + 1, limit + 1 =>
      match s.getAlert (id + 1) with
      | some alert => alert :: alertsDown s id limit
      | none => []

def recentAlerts (s : AlertStore) (limit : ℕ) : List Alert :=
  alertsDown s (s.nextAlertId.getD 1 - 1) (min limit maxAlertHistory)

/-! ## The history -/

section History

variable {env : MonitorEnv} {s t : AlertStore} {stats : MonitoringStats} {rule : AlertRule} {alert : Alert}
  {value : ℤ} {kept : List Alert} {now : ℕ} {severity v : AlertSeverity}

/-- The stored alerts and the counters against the alerts that were raised. -/
structure Recorded (s : AlertStore) (stats : MonitoringStats) (kept : List Alert) : Prop where
  next : s.nextAlertId.getD 1 = s.raised.length + 1
  holds : Holds s.alerts (s.raised.length + 1 - kept.length) kept
  recent : kept.map Alert.raised = s.raised.rtake maxAlertHistory
  total : stats.totalAlerts = s.raised.length
  severities : ∀ v, stats.countOf v = s.raised.countP fun r => r.severity = v
  unacknowledged : stats.unacknowledged = kept.countP fun a => a.acknowledged = false

theorem recorded_empty : Recorded {} {} [] where
  next := rfl
  holds := Holds.nil
  recent := rfl
  total := rfl
  severities v := by cases v <;> rfl
  unacknowledged := rfl

@[simp] theorem deliver_raised (env : MonitorEnv) (receiver : Option Address) (alert : Alert)
    (stats : MonitoringStats) : (deliver env receiver alert stats).1.raised = alert.raised := by
  cases receiver <;> rfl

@[simp] theorem deliver_id (env : MonitorEnv) (receiver : Option Address) (alert : Alert)
    (stats : MonitoringStats) : (deliver env receiver alert stats).1.id = alert.id := by
  cases receiver <;> rfl

@[simp] theorem deliver_acknowledged (env : MonitorEnv) (receiver : Option Address) (alert : Alert)
    (stats : MonitoringStats) : (deliver env receiver alert stats).1.acknowledged = alert.acknowledged := by
  cases receiver <;> rfl

/-- A delivery counts only its failure. -/
theorem deliver_stats (env : MonitorEnv) (receiver : Option Address) (alert : Alert) (stats : MonitoringStats) :
    ∃ n, (deliver env receiver alert stats).2 = { stats with failedDeliveries := n } := by
  cases receiver with
  | none => exact ⟨_, rfl⟩
  | some address =>
      unfold deliver
      dsimp only
      split_ifs
      · exact ⟨_, rfl⟩
      · exact ⟨_, rfl⟩

@[simp] theorem countAlert_totalAlerts :
    (countAlert now severity stats).totalAlerts = satAddU64 stats.totalAlerts 1 := by
  cases severity <;> rfl

@[simp] theorem countAlert_unacknowledged :
    (countAlert now severity stats).unacknowledged = satAddU64 stats.unacknowledged 1 := by
  cases severity <;> rfl

theorem countAlert_countOf : (countAlert now severity stats).countOf v =
    if severity = v then satAddU64 (stats.countOf v) 1 else stats.countOf v := by
  cases severity <;> cases v <;> rfl

theorem countOf_congr {failures unacknowledged : ℕ} (v : AlertSeverity) :
    ({ stats with failedDeliveries := failures, unacknowledged := unacknowledged } : MonitoringStats).countOf v =
      stats.countOf v := by
  cases v <;> rfl

theorem satAddU64_succ {n : ℕ} (h : n + 1 ≤ u64Max) : satAddU64 n 1 = n + 1 := min_eq_left h

theorem rtake_eq_self {α : Type} {l : List α} {n : ℕ} (h : l.length ≤ n) : l.rtake n = l := by
  rw [List.rtake, Nat.sub_eq_zero_of_le h, List.drop_zero]

theorem length_rtake {α : Type} (l : List α) (n : ℕ) : (l.rtake n).length = min l.length n := by
  rw [List.rtake, List.length_drop]
  omega

theorem tail_rtake_succ {α : Type} {l : List α} {n : ℕ} (h : n < l.length) :
    (l.rtake (n + 1)).tail = l.rtake n := by
  rw [List.rtake, List.rtake, List.tail_drop]
  congr 1
  omega

theorem Recorded.length (h : Recorded s stats kept) : kept.length = min s.raised.length maxAlertHistory := by
  rw [← length_rtake, ← h.recent, List.length_map]

/-- A new alert in a history with room, and in a full one, where the oldest alert goes. -/
theorem keepAlert_holds (h : Recorded s stats kept) (hid : alert.id = s.raised.length + 1)
    {p : (ℕ → Option Alert) × ℕ} (hp : keepAlert s.alerts alert stats.unacknowledged = p) :
    ∃ kept', Holds p.1 (s.raised.length + 2 - (kept'.length + 1)) (kept' ++ [alert]) ∧
      kept'.map Alert.raised = s.raised.rtake (maxAlertHistory - 1) ∧
      p.2 = kept'.countP fun a => a.acknowledged = false := by
  have hlength := h.length
  have hadd : Holds (update s.alerts alert.id (some alert)) (s.raised.length + 1 - kept.length) (kept ++ [alert]) := by
    have happend := h.holds.append (a := alert)
    rwa [show s.raised.length + 1 - kept.length + kept.length = alert.id by omega] at happend
  unfold keepAlert at hp
  dsimp only at hp
  by_cases hfull : maxAlertHistory < alert.id
  · have hmost : kept.length = maxAlertHistory := by omega
    have hfirst : alert.id - maxAlertHistory = s.raised.length + 1 - kept.length := by omega
    obtain ⟨old, kept', rfl⟩ := List.exists_cons_of_length_pos (show 0 < kept.length by rw [hmost]; decide)
    rw [if_pos hfull, hfirst, hadd.head] at hp
    obtain rfl := hp
    have htail := hadd.tail
    have hrecent := congrArg List.tail h.recent
    have hunacknowledged := h.unacknowledged
    rw [List.length_cons] at hmost
    refine ⟨kept', ?_, ?_, ?_⟩
    · rwa [List.length_cons, show s.raised.length + 1 - (kept'.length + 1) + 1 =
        s.raised.length + 2 - (kept'.length + 1) by omega] at htail
    · rwa [List.map_cons, List.tail_cons, show maxAlertHistory = maxAlertHistory - 1 + 1 from rfl,
        tail_rtake_succ (by omega)] at hrecent
    · dsimp only
      rw [hunacknowledged]
      cases hack : old.acknowledged with
      | false => rw [List.countP_cons_of_pos (by simpa using hack), if_neg (by decide), Nat.add_sub_cancel]
      | true => rw [List.countP_cons_of_neg (by simp [hack]), if_pos rfl]
  · rw [if_neg hfull] at hp
    obtain rfl := hp
    have hroom : s.raised.length ≤ maxAlertHistory - 1 := by omega
    refine ⟨kept, ?_, ?_, h.unacknowledged⟩
    · rwa [show s.raised.length + 2 - (kept.length + 1) = s.raised.length + 1 - kept.length by omega]
    · rw [h.recent, rtake_eq_self hroom, rtake_eq_self (hroom.trans (by decide))]

/-- One alert more. -/
theorem Recorded.raise (env : MonitorEnv) (rule : AlertRule) (value : ℤ) (h : Recorded s stats kept)
    (hroom : s.raised.length + 1 < u64Max) :
    ∃ kept', Recorded (raise env rule value s stats).1 (raise env rule value s stats).2 kept' := by
  obtain ⟨failures, hfailures⟩ := deliver_stats env s.receiver (newAlert env rule value (s.nextAlertId.getD 1)) stats
  have hid : (newAlert env rule value (s.nextAlertId.getD 1)).id = s.raised.length + 1 := h.next
  unfold Alerts.raise
  dsimp only
  rw [hfailures]
  dsimp only
  generalize hsent : deliver env s.receiver (newAlert env rule value (s.nextAlertId.getD 1)) stats = sent at *
  have hraised : sent.1.raised = (newAlert env rule value (s.nextAlertId.getD 1)).raised := by
    rw [← hsent, deliver_raised]
  have hsentid : sent.1.id = s.raised.length + 1 := by
    rw [← hsent, deliver_id, hid]
  have hnew : sent.1.acknowledged = false := by
    rw [← hsent, deliver_acknowledged]
    rfl
  obtain ⟨kept', hholds, hrecent, hcount⟩ := keepAlert_holds h hsentid rfl
  have hlast : (newAlert env rule value (s.nextAlertId.getD 1)).raised.severity = rule.severity := rfl
  refine ⟨kept' ++ [sent.1], ?_, ?_, ?_, ?_, fun v => ?_, ?_⟩
  · rw [List.length_append, List.length_singleton, Option.getD_some, hid, satAddU64_succ (by omega)]
  · rwa [List.length_append, List.length_append, List.length_singleton, List.length_singleton]
  · rw [List.map_append, hrecent, List.map_singleton, hraised]
    exact (List.rtake_concat_succ _ _ _).symm
  · rw [countAlert_totalAlerts, List.length_append, List.length_singleton]
    exact (satAddU64_succ (h.total ▸ hroom.le)).trans (congrArg (· + 1) h.total)
  · have hle : s.raised.countP (fun r => r.severity = v) ≤ s.raised.length := List.countP_le_length
    rw [countAlert_countOf, countOf_congr, h.severities, List.countP_append, List.countP_singleton, hlast]
    by_cases hv : rule.severity = v
    · rw [if_pos hv, if_pos (by simpa using hv), satAddU64_succ (by omega)]
    · rw [if_neg hv, if_neg (by simpa using hv), add_zero]
  · have hlength := congrArg List.length hrecent
    rw [List.length_map, length_rtake] at hlength
    have hle : kept'.countP (fun a => a.acknowledged = false) ≤ kept'.length := List.countP_le_length
    have hfew : kept'.countP (fun a => a.acknowledged = false) + 1 ≤ u64Max := by omega
    rw [countAlert_unacknowledged, List.countP_append, List.countP_singleton, hnew, if_pos (by decide)]
    dsimp only
    rw [hcount, satAddU64_succ hfew]

/-- A stored alert is acknowledged. -/
theorem Recorded.acknowledge {alertId : ℕ} (h : Recorded s stats kept) (halert : s.alerts alertId = some alert)
    (hopen : alert.acknowledged = false) :
    ∃ kept', Recorded { s with alerts := update s.alerts alertId (some { alert with acknowledged := true }) }
      { stats with unacknowledged := stats.unacknowledged - 1 } kept' := by
  obtain ⟨i, rfl, hi⟩ := h.holds.mem halert
  obtain ⟨hlt, rfl⟩ := List.getElem?_eq_some_iff.1 hi
  refine ⟨kept.set i { kept[i] with acknowledged := true }, h.next, ?_, ?_, h.total, fun v => ?_, ?_⟩
  · rw [List.length_set]
    exact h.holds.set hlt
  · have hltmap : i < (kept.map Alert.raised).length := by rwa [List.length_map]
    have hsame : (kept.map Alert.raised).set i (kept.map Alert.raised)[i] = kept.map Alert.raised :=
      List.set_getElem_self hltmap
    rw [List.getElem_map] at hsame
    rw [List.map_set, ← h.recent]
    exact hsame
  · rw [← h.severities v]
    cases v <;> rfl
  · rw [List.countP_set hlt, hopen, ← h.unacknowledged]
    rfl

theorem recorded_congr {stats' : MonitoringStats} (h : Recorded s stats kept) (hnext : t.nextAlertId = s.nextAlertId)
    (halerts : t.alerts = s.alerts) (hraised : t.raised = s.raised) (htotal : stats'.totalAlerts = stats.totalAlerts)
    (hcount : ∀ v, stats'.countOf v = stats.countOf v) (hopen : stats'.unacknowledged = stats.unacknowledged) :
    Recorded t stats' kept := by
  refine ⟨?_, ?_, ?_, ?_, fun v => ?_, ?_⟩
  · rw [hnext, hraised]
    exact h.next
  · rw [halerts, hraised]
    exact h.holds
  · rw [hraised]
    exact h.recent
  · rw [htotal, hraised]
    exact h.total
  · rw [hcount, hraised]
    exact h.severities v
  · rw [hopen]
    exact h.unacknowledged

/-- Reading down from a number finds the entries up to it, the last one first. -/
theorem alertsDown_eq {first : ℕ} (hfirst : 0 < first) (hholds : Holds s.alerts first kept) (j limit : ℕ)
    (hj : j ≤ kept.length) : alertsDown s (first - 1 + j) limit = (kept.take j).reverse.take limit := by
  induction j generalizing limit with
  | zero =>
      rw [add_zero, List.take_zero, List.reverse_nil, List.take_nil]
      cases hn : first - 1 with
      | zero => cases limit <;> rfl
      | succ n =>
          cases limit with
          | zero => rfl
          | succ limit =>
              have hnone : s.getAlert (n + 1) = none := by
                rw [AlertStore.getAlert, hholds, if_neg (by omega)]
              rw [alertsDown, hnone]
  | succ j ih =>
      have hget : s.getAlert (first - 1 + j + 1) = kept[j]? := by
        rw [AlertStore.getAlert, show first - 1 + j + 1 = first + j by omega, hholds.at]
      rw [List.getElem?_eq_getElem hj] at hget
      cases limit with
      | zero => rfl
      | succ limit =>
          rw [← add_assoc, alertsDown, hget, List.take_succ_eq_append_getElem hj, List.reverse_append,
            List.reverse_singleton, List.singleton_append, List.take_succ_cons, ih limit (by omega)]

theorem Recorded.recentAlerts (h : Recorded s stats kept) (limit : ℕ) :
    recentAlerts s limit = kept.reverse.take limit := by
  have hlength := h.length
  have hdown := alertsDown_eq (by omega) h.holds kept.length (min limit maxAlertHistory) le_rfl
  unfold Alerts.recentAlerts
  rw [h.next, show s.raised.length + 1 - 1 = s.raised.length + 1 - kept.length - 1 + kept.length by omega, hdown,
    List.take_length, List.take_eq_take_iff]
  rw [List.length_reverse]
  omega

end History

/-! ## The pace of a rule -/

section Pace

variable {env : MonitorEnv} {s t : AlertStore} {rule : AlertRule} {es : List Raised} {e : Raised} {now : ℕ}

def alertsOf (s : AlertStore) (ruleId : ℕ) : List Raised := s.raised.filter fun e => e.ruleId = ruleId

/-- The alerts of a rule keep its cooldown, unless they come at the last timestamp. -/
def Spaced (rule : AlertRule) (es : List Raised) : Prop :=
  es.Pairwise fun e f => f.time < u64Max → e.time + rule.cooldownSecs ≤ f.time

/-- A rule knows whether it raised an alert and when the last one was. -/
structure RulePaced (rule : AlertRule) (es : List Raised) : Prop where
  untriggered : rule.triggerCount = 0 → es = []
  last : rule.lastTriggeredAt < u64Max → ∀ e ∈ es, e.time ≤ rule.lastTriggeredAt
  spaced : Spaced rule es

/-- The rules have numbers of their own, and each keeps its pace. -/
structure Paced (s : AlertStore) : Prop where
  next : s.nextRuleId.getD 1 = s.added.length + 1
  fresh : ∀ r ∈ s.getRules, r.id ≤ s.added.length
  known : ∀ e ∈ s.raised, e.ruleId ≤ s.added.length
  nodup : (s.getRules.map AlertRule.id).Nodup
  rules : ∀ r ∈ s.getRules, RulePaced r (alertsOf s r.id)

theorem paced_empty : Paced {} where
  next := rfl
  fresh := by simp [AlertStore.getRules]
  known := by simp
  nodup := List.nodup_nil
  rules := by simp [AlertStore.getRules]

theorem rulePaced_nil (rule : AlertRule) : RulePaced rule [] :=
  ⟨fun _ => rfl, by simp, List.Pairwise.nil⟩

theorem triggered_count (rule : AlertRule) (now : ℕ) : (rule.triggered now).triggerCount ≠ 0 := by
  have hpos : 0 < min (rule.triggerCount + 1) u32Max := lt_min (Nat.succ_pos _) (by decide)
  exact hpos.ne'

theorem RulePaced.raise (h : RulePaced rule es) (hcool : CooledDown rule e.time) :
    RulePaced (rule.triggered e.time) (es ++ [e]) := by
  have hgap : e.time < u64Max → ∀ f ∈ es, f.time + rule.cooldownSecs ≤ e.time := by
    intro hlate f hf
    rcases hcool with hnone | hover
    · rw [h.untriggered hnone] at hf
      cases hf
    · have hsum : rule.lastTriggeredAt + rule.cooldownSecs ≤ e.time := by
        unfold satAddU64 at hover
        omega
      have hlast := h.last (by omega) f hf
      omega
  refine ⟨fun hzero => absurd hzero (triggered_count rule e.time), fun hlate f hf => ?_, ?_⟩
  · rcases List.mem_append.1 hf with hf | hf
    · exact (Nat.le_add_right _ _).trans (hgap hlate f hf)
    · rw [List.mem_singleton.1 hf]
      exact le_rfl
  · refine List.pairwise_append.2 ⟨h.spaced, List.pairwise_singleton _ _, fun f hf g hg hlate => ?_⟩
    rw [List.mem_singleton.1 hg] at hlate ⊢
    exact hgap hlate f hf

theorem alertsOf_concat (hraised : t.raised = s.raised ++ [e]) (ruleId : ℕ) :
    alertsOf t ruleId = alertsOf s ruleId ++ if e.ruleId = ruleId then [e] else [] := by
  unfold alertsOf
  rw [hraised, List.filter_append]
  by_cases he : e.ruleId = ruleId
  · rw [if_pos he, List.filter_cons_of_pos (by simpa using he), List.filter_nil]
  · rw [if_neg he, List.filter_cons_of_neg (by simpa using he), List.filter_nil]

/-- A rule in the middle of the list raises an alert. -/
theorem Paced.raise {before after : List AlertRule} (h : Paced s) (hrules : s.getRules = before ++ rule :: after)
    (he : e.ruleId = rule.id) (hcool : CooledDown rule e.time) (hnext : t.nextRuleId = s.nextRuleId)
    (hadded : t.added = s.added) (hraised : t.raised = s.raised ++ [e])
    (hnew : t.getRules = before ++ rule.triggered e.time :: after) : Paced t := by
  have hids : t.getRules.map AlertRule.id = s.getRules.map AlertRule.id := by
    rw [hnew, hrules, List.map_append, List.map_append, List.map_cons, List.map_cons]
    rfl
  have hmem : rule ∈ s.getRules := by
    rw [hrules]
    exact List.mem_append_right _ List.mem_cons_self
  refine ⟨by rw [hnext, hadded, h.next], fun r hr => ?_, fun f hf => ?_, hids ▸ h.nodup, fun r hr => ?_⟩
  · obtain ⟨r', hr', hid⟩ := List.mem_map.1 (hids ▸ List.mem_map_of_mem (f := AlertRule.id) hr)
    rw [hadded, ← hid]
    exact h.fresh r' hr'
  · rw [hadded]
    rw [hraised] at hf
    rcases List.mem_append.1 hf with hf | hf
    · exact h.known f hf
    · rw [List.mem_singleton.1 hf, he]
      exact h.fresh rule hmem
  · rw [alertsOf_concat hraised]
    have hnodup := h.nodup
    rw [hrules, List.map_append, List.map_cons, List.nodup_append] at hnodup
    obtain ⟨-, hcons, hapart⟩ := hnodup
    have hfresh := (List.nodup_cons.1 hcons).1
    have hother : ∀ r ∈ s.getRules, r.id ≠ rule.id →
        RulePaced r (alertsOf s r.id ++ if e.ruleId = r.id then [e] else []) := by
      intro r hr hne
      rw [if_neg (fun heq => hne (heq.symm.trans he)), List.append_nil]
      exact h.rules r hr
    rw [hnew] at hr
    rcases List.mem_append.1 hr with hr | hr
    · refine hother r (hrules ▸ List.mem_append_left _ hr) (hapart _ (List.mem_map_of_mem hr) _ List.mem_cons_self)
    · rcases List.mem_cons.1 hr with rfl | hr
      · rw [show (rule.triggered e.time).id = rule.id from rfl, if_pos he]
        exact (h.rules rule hmem).raise hcool
      · refine hother r (hrules ▸ List.mem_append_right _ (List.mem_cons_of_mem _ hr)) fun heq => hfresh ?_
        exact heq ▸ List.mem_map_of_mem hr

end Pace

/-! ## One evaluation -/

section Evaluation

variable {env : MonitorEnv} {trigger : Option (UsageKind × ℤ)} {s t : AlertStore} {c d e : Scan} {rule : AlertRule}
  {rules more : List AlertRule}

/-- Both parts of the bookkeeping, each as long as its numbers last. -/
structure Sound (s : AlertStore) : Prop where
  recorded : s.raised.length < u64Max → ∃ kept, Recorded s s.getStats kept
  paced : s.added.length < u32Max → Paced s

/-- What a storage says, where an entry that is missing reads as its default. -/
def AlertStore.normal (s : AlertStore) : AlertStore :=
  { s with
    rules := some s.getRules
    stats := some s.getStats
    receiver := none }

theorem Sound.of_normal (h : Sound s.normal) : Sound s where
  recorded hroom := by
    obtain ⟨kept, hkept⟩ := h.recorded hroom
    exact ⟨kept, recorded_congr hkept rfl rfl rfl rfl (fun _ => rfl) rfl⟩
  paced hroom := ⟨(h.paced hroom).next, (h.paced hroom).fresh, (h.paced hroom).known, (h.paced hroom).nodup,
    (h.paced hroom).rules⟩

theorem Sound.normal (h : Sound s) : Sound s.normal where
  recorded hroom := by
    obtain ⟨kept, hkept⟩ := h.recorded hroom
    exact ⟨kept, recorded_congr hkept rfl rfl rfl rfl (fun _ => rfl) rfl⟩
  paced hroom := ⟨(h.paced hroom).next, (h.paced hroom).fresh, (h.paced hroom).known, (h.paced hroom).nodup,
    (h.paced hroom).rules⟩

theorem Sound.congr (h : Sound s) (hnormal : t.normal = s.normal) : Sound t :=
  .of_normal (hnormal ▸ h.normal)

/-- The storage as if the local variables were saved now, with the rules that are still to come. -/
def Scan.view (c : Scan) (more : List AlertRule) : AlertStore :=
  { c.store with
    rules := some (c.rules ++ more)
    stats := some c.stats }

/-- Evaluating one rule keeps the books. -/
theorem evaluateRule_sound (h : Sound (c.view (rule :: more))) :
    Sound ((evaluateRule env trigger c rule).view more) := by
  have happend : ∀ r : AlertRule, c.rules ++ [r] ++ more = c.rules ++ r :: more := fun r => by simp
  unfold evaluateRule
  cases ruleValue env trigger rule with
  | none =>
      dsimp only [Scan.view]
      rw [happend]
      exact h
  | some value =>
      dsimp only
      split_ifs with hfires
      · refine ⟨fun hroom => ?_, fun hroom => ?_⟩
        · have hlonger : c.store.raised.length + 1 < u64Max := by
            simpa [Scan.view, Alerts.raise] using hroom
          obtain ⟨kept, hkept⟩ := h.recorded (show c.store.raised.length < u64Max by omega)
          have hcounted : Recorded c.store { c.stats with evaluations := satAddU64 c.stats.evaluations 1 } kept :=
            recorded_congr hkept rfl rfl rfl rfl (fun v => by cases v <;> rfl) rfl
          obtain ⟨kept', hkept'⟩ := hcounted.raise env (rule.triggered env.now) value hlonger
          exact ⟨kept', recorded_congr hkept' rfl rfl rfl rfl (fun _ => rfl) rfl⟩
        · exact (h.paced hroom).raise rfl rfl hfires.2 rfl rfl rfl (happend _)
      · refine ⟨fun hroom => ?_, fun hroom => ?_⟩
        · obtain ⟨kept, hkept⟩ := h.recorded hroom
          exact ⟨kept, recorded_congr hkept rfl rfl rfl rfl (fun v => by cases v <;> rfl) rfl⟩
        · dsimp only [Scan.view]
          rw [happend]
          have hpaced := h.paced hroom
          exact ⟨hpaced.next, hpaced.fresh, hpaced.known, hpaced.nodup, hpaced.rules⟩

theorem scan_sound (h : Sound (c.view rules)) :
    Sound ((rules.foldl (evaluateRule env trigger) c).view []) := by
  induction rules generalizing c with
  | nil => exact h
  | cons rule rules ih => exact ih (evaluateRule_sound h)

/-- What the loop leaves as it was: the stored copies, and the local ones unless they are saved. -/
structure Scanned (rules : List AlertRule) (c d : Scan) : Prop where
  stored : d.store.rules = c.store.rules ∧ d.store.stats = c.store.stats
  raised : c.raised ≤ d.raised
  changed : c.changed = true → d.changed = true
  quiet : d.raised = c.raised → d.rules = c.rules ++ rules
  unchanged : d.changed = false → d.stats = c.stats

theorem Scanned.trans (h : Scanned rules c d) (h' : Scanned more d e) : Scanned (rules ++ more) c e where
  stored := ⟨h'.stored.1.trans h.stored.1, h'.stored.2.trans h.stored.2⟩
  raised := h.raised.trans h'.raised
  changed hc := h'.changed (h.changed hc)
  quiet heq := by
    have hle := h.raised
    have hle' := h'.raised
    rw [h'.quiet (by omega), h.quiet (by omega), List.append_assoc]
  unchanged hno := by
    have hbefore : d.changed = false := by
      rw [← Bool.not_eq_true]
      intro hyes
      rw [h'.changed hyes] at hno
      cases hno
    rw [h'.unchanged hno, h.unchanged hbefore]

theorem evaluateRule_scanned : Scanned [rule] c (evaluateRule env trigger c rule) := by
  unfold evaluateRule
  cases ruleValue env trigger rule with
  | none => exact ⟨⟨rfl, rfl⟩, le_rfl, id, fun _ => rfl, fun _ => rfl⟩
  | some value =>
      dsimp only
      split_ifs
      · exact ⟨⟨rfl, rfl⟩, Nat.le_succ _, fun _ => rfl, fun heq => absurd heq (Nat.succ_ne_self _),
          fun hno => Bool.noConfusion hno⟩
      · exact ⟨⟨rfl, rfl⟩, le_rfl, fun _ => rfl, fun _ => rfl, fun hno => Bool.noConfusion hno⟩

theorem scan_scanned : Scanned rules c (rules.foldl (evaluateRule env trigger) c) := by
  induction rules generalizing c with
  | nil => exact ⟨⟨rfl, rfl⟩, le_rfl, id, fun _ => (List.append_nil _).symm, fun _ => rfl⟩
  | cons rule rules ih => exact evaluateRule_scanned.trans ih

theorem evaluate_sound (h : Sound s) : Sound (evaluate env trigger s).1 := by
  unfold evaluate
  split_ifs with hempty
  · exact h
  · dsimp only
    have hscan : Sound ((s.getRules.foldl (evaluateRule env trigger) ⟨[], s, s.getStats, 0, false⟩).view []) :=
      scan_sound (h.congr rfl)
    have hkeeps : Scanned s.getRules ⟨[], s, s.getStats, 0, false⟩
        (s.getRules.foldl (evaluateRule env trigger) ⟨[], s, s.getStats, 0, false⟩) := scan_scanned
    generalize s.getRules.foldl (evaluateRule env trigger) ⟨[], s, s.getStats, 0, false⟩ = d at hscan hkeeps
    have hrules : ¬0 < d.raised → d.rules = d.store.getRules := by
      intro hnone
      have hquiet := hkeeps.quiet (Nat.eq_zero_of_not_pos hnone)
      rw [hquiet, AlertStore.getRules, AlertStore.getRules, hkeeps.stored.1]
      rfl
    have hstats : d.changed = false → d.stats = d.store.getStats := by
      intro hno
      rw [hkeeps.unchanged hno, AlertStore.getStats, AlertStore.getStats, hkeeps.stored.2]
    refine hscan.congr ?_
    unfold AlertStore.normal Scan.view
    rw [List.append_nil]
    cases hchanged : d.changed with
    | true =>
        rw [if_pos rfl]
        split_ifs with hraised
        · rfl
        · rw [hrules hraised]
          rfl
    | false =>
        rw [if_neg (by decide), hstats hchanged]
        split_ifs with hraised
        · rfl
        · rw [hrules hraised]
          rfl

end Evaluation

/-! ## Runs -/

inductive AlertCall where
  | addRule (rule : AlertRule)
  | removeRule (ruleId : ℕ)
  | setRuleEnabled (ruleId : ℕ) (enabled : Bool)
  | setReceiver (receiver : Option Address)
  | onUsage (kind : UsageKind) (amount : ℤ)
  | checkAll
  | acknowledge (alertId : ℕ)

def alertStep (c : MonitorEnv × AlertCall) : AlertM Unit :=
  match c.2 with
  | .addRule rule => ignore (addRule rule)
  | .removeRule ruleId => removeRule ruleId
  | .setRuleEnabled ruleId enabled => setRuleEnabled ruleId enabled
  | .setReceiver receiver => setReceiver receiver
  | .onUsage kind amount => onUsage c.1 kind amount
  | .checkAll => ignore (checkAll c.1)
  | .acknowledge alertId => acknowledge alertId

/-- The storage after calls on a monitor that was never used. -/
abbrev after (calls : List (MonitorEnv × AlertCall)) : AlertStore := runAll alertStep {} calls

section Run

variable {env : MonitorEnv} {s t : AlertStore} {v : Unit} {rule : AlertRule} {id : ℕ}

/-- A change of the rules alone, which keeps the numbers and the pace of those that stay. -/
theorem Sound.rules {rules : List AlertRule} (h : Sound s) (hids : (rules.map AlertRule.id).Sublist (s.getRules.map AlertRule.id))
    (hsame : ∀ r ∈ rules, ∃ r' ∈ s.getRules, r.id = r'.id ∧ (∀ es, RulePaced r' es → RulePaced r es)) :
    Sound { s with rules := some rules } := by
  refine ⟨fun hroom => ?_, fun hroom => ?_⟩
  · obtain ⟨kept, hkept⟩ := h.recorded hroom
    exact ⟨kept, recorded_congr hkept rfl rfl rfl rfl (fun _ => rfl) rfl⟩
  · have hpaced := h.paced hroom
    refine ⟨hpaced.next, fun r hr => ?_, hpaced.known, hpaced.nodup.sublist hids, fun r hr => ?_⟩
    · obtain ⟨r', hr', hid, -⟩ := hsame r hr
      rw [hid]
      exact hpaced.fresh r' hr'
    · obtain ⟨r', hr', hid, hkeep⟩ := hsame r hr
      rw [hid]
      exact hkeep _ (hpaced.rules r' hr')

theorem addRule_sound (h : Sound s) (hrun : addRule rule s = .ok (id, t)) : Sound t := by
  simp only [addRule, require_bind, get_bind] at hrun
  obtain ⟨-, -, -, hrun⟩ := hrun
  obtain ⟨_, u, hset, hpure⟩ := bind_ok.1 hrun
  obtain ⟨-, rfl⟩ := pure_ok.1 hpure
  obtain rfl := set_ok.1 hset
  refine ⟨fun hroom => ?_, fun hroom => ?_⟩
  · obtain ⟨kept, hkept⟩ := h.recorded hroom
    exact ⟨kept, recorded_congr hkept rfl rfl rfl rfl (fun _ => rfl) rfl⟩
  · rw [List.length_append, List.length_singleton] at hroom
    have hpaced := h.paced (Nat.lt_of_succ_lt hroom)
    have hlength : (s.added ++ [s.nextRuleId.getD 1]).length = s.added.length + 1 := by
      rw [List.length_append, List.length_singleton]
    have hunused : alertsOf s (s.nextRuleId.getD 1) = [] := by
      rw [alertsOf, List.filter_eq_nil_iff]
      intro e he
      have hknown := hpaced.known e he
      have hnext := hpaced.next
      simpa using (show e.ruleId ≠ s.nextRuleId.getD 1 by omega)
    refine ⟨?_, fun r hr => ?_, fun e he => ?_, ?_, fun r hr => ?_⟩
    · rw [hlength, Option.getD_some, hpaced.next]
      exact min_eq_left hroom
    · rw [hlength]
      rcases List.mem_append.1 hr with hr | hr
      · exact (hpaced.fresh r hr).trans (Nat.le_succ _)
      · rw [List.mem_singleton.1 hr]
        exact hpaced.next.le
    · rw [hlength]
      exact (hpaced.known e he).trans (Nat.le_succ _)
    · change ((s.getRules ++ [_]).map AlertRule.id).Nodup
      rw [List.map_append, List.map_singleton]
      refine List.Nodup.append hpaced.nodup (List.nodup_singleton _) fun x hx hnew => ?_
      obtain ⟨r, hr, rfl⟩ := List.mem_map.1 hx
      have hold := hpaced.fresh r hr
      have hnext := hpaced.next
      have hid : r.id = s.nextRuleId.getD 1 := List.mem_singleton.1 hnew
      omega
    · rcases List.mem_append.1 hr with hr | hr
      · exact hpaced.rules r hr
      · rw [List.mem_singleton.1 hr]
        change RulePaced _ (alertsOf s (s.nextRuleId.getD 1))
        rw [hunused]
        exact rulePaced_nil _

theorem removeRule_sound (h : Sound s) (hrun : removeRule id s = .ok (v, t)) : Sound t := by
  simp only [removeRule, get_bind] at hrun
  obtain ⟨index, u, hfind, hset⟩ := bind_ok.1 hrun
  obtain ⟨-, rfl⟩ := orError_ok.1 hfind
  obtain rfl := set_ok.1 hset
  have hsub : (s.getRules.eraseIdx index).Sublist s.getRules := List.eraseIdx_sublist _ _
  exact h.rules (hsub.map _) fun r hr => ⟨r, hsub.mem hr, rfl, fun _ hes => hes⟩

theorem setRuleEnabled_sound {enabled : Bool} (h : Sound s) (hrun : setRuleEnabled id enabled s = .ok (v, t)) :
    Sound t := by
  simp only [setRuleEnabled, get_bind] at hrun
  obtain ⟨index, u, hfind, hset⟩ := bind_ok.1 hrun
  obtain ⟨-, rfl⟩ := orError_ok.1 hfind
  obtain rfl := set_ok.1 hset
  have hget : ∀ i, (s.getRules.modify index fun rule => { rule with enabled := enabled })[i]? =
      s.getRules[i]?.map fun rule => if index = i then { rule with enabled := enabled } else rule := by
    intro i
    rw [List.getElem?_modify]
    cases s.getRules[i]? with
    | none => rfl
    | some r => split_ifs <;> rfl
  have hids : (s.getRules.modify index fun rule => { rule with enabled := enabled }).map AlertRule.id =
      s.getRules.map AlertRule.id := by
    refine List.ext_getElem? fun i => ?_
    rw [List.getElem?_map, List.getElem?_map, hget]
    cases s.getRules[i]? with
    | none => rfl
    | some r =>
        rw [Option.map_some, Option.map_some, Option.map_some]
        split_ifs <;> rfl
  refine h.rules (by rw [hids]) fun r hr => ?_
  obtain ⟨i, hi⟩ := List.mem_iff_getElem?.1 hr
  rw [hget] at hi
  obtain ⟨r', hr', rfl⟩ := Option.map_eq_some_iff.1 hi
  refine ⟨r', List.mem_of_getElem? hr', ?_, fun es hes => ?_⟩
  · split_ifs <;> rfl
  · split_ifs
    · exact ⟨hes.untriggered, hes.last, hes.spaced⟩
    · exact hes

theorem acknowledge_sound (h : Sound s) (hrun : acknowledge id s = .ok (v, t)) : Sound t := by
  simp only [acknowledge, get_bind] at hrun
  obtain ⟨alert, u, hget, hrun⟩ := bind_ok.1 hrun
  obtain ⟨halert, rfl⟩ := orError_ok.1 hget
  split_ifs at hrun with hopen
  · obtain ⟨-, rfl⟩ := pure_ok.1 hrun
    exact h
  · obtain rfl := set_ok.1 hrun
    refine ⟨fun hroom => ?_, fun hroom => ?_⟩
    · obtain ⟨kept, hkept⟩ := h.recorded hroom
      obtain ⟨kept', hkept'⟩ := hkept.acknowledge halert (by simpa using hopen)
      exact ⟨kept', recorded_congr hkept' rfl rfl rfl rfl (fun _ => rfl) rfl⟩
    · have hpaced := h.paced hroom
      exact ⟨hpaced.next, hpaced.fresh, hpaced.known, hpaced.nodup, hpaced.rules⟩

theorem alertStep_sound {c : MonitorEnv × AlertCall} (h : Sound s) (hrun : alertStep c s = .ok (v, t)) : Sound t := by
  obtain ⟨env, call⟩ := c
  cases call with
  | addRule rule =>
      obtain ⟨id, hrun⟩ := ignore_ok.1 hrun
      exact addRule_sound h hrun
  | removeRule ruleId => exact removeRule_sound h hrun
  | setRuleEnabled ruleId enabled => exact setRuleEnabled_sound h hrun
  | setReceiver receiver =>
      obtain rfl := modify_ok.1 hrun
      exact h.congr rfl
  | onUsage kind amount =>
      obtain rfl := modify_ok.1 hrun
      split_ifs
      · exact h
      · exact evaluate_sound h
  | checkAll =>
      obtain ⟨n, hrun⟩ := ignore_ok.1 hrun
      cases hrun
      exact evaluate_sound h
  | acknowledge alertId => exact acknowledge_sound h hrun

theorem sound_after (calls : List (MonitorEnv × AlertCall)) : Sound (after calls) :=
  runAll_invariant (I := Sound) (fun _ _ _ _ h hrun => alertStep_sound h hrun)
    ⟨fun _ => ⟨[], recorded_empty⟩, fun _ => paced_empty⟩ calls

end Run

/-! ## The law -/

/-- The stored alerts are the most recent ones that were raised, under their numbers, the counters
agree with them, and reading gives the newest first. -/
structure Exact (s : AlertStore) (kept : List Alert) : Prop where
  stored : Holds s.alerts (s.getStats.totalAlerts + 1 - kept.length) kept
  recent : kept.map Alert.raised = s.raised.rtake maxAlertHistory
  length : kept.length = min s.getStats.totalAlerts maxAlertHistory
  total : s.getStats.totalAlerts = s.raised.length
  severities : s.getStats.totalAlerts =
    s.getStats.infoAlerts + s.getStats.warningAlerts + s.getStats.criticalAlerts
  unacknowledged : s.getStats.unacknowledged = (kept.filter fun a => a.acknowledged = false).length
  newest : ∀ limit, recentAlerts s limit = kept.reverse.take limit

theorem countP_severities (rs : List Raised) :
    rs.length = (rs.countP fun r => r.severity = .info) + (rs.countP fun r => r.severity = .warning) +
      rs.countP fun r => r.severity = .critical := by
  induction rs with
  | nil => rfl
  | cons r rs ih =>
      rw [List.length_cons, List.countP_cons, List.countP_cons, List.countP_cons]
      cases hr : r.severity <;> simp <;> omega

theorem Recorded.exact {s : AlertStore} {kept : List Alert} (h : Recorded s s.getStats kept) : Exact s kept where
  stored := by
    rw [h.total]
    exact h.holds
  recent := h.recent
  length := by rw [h.length, h.total]
  total := h.total
  severities := by
    have hinfo : s.getStats.infoAlerts = _ := h.severities .info
    have hwarning : s.getStats.warningAlerts = _ := h.severities .warning
    have hcritical : s.getStats.criticalAlerts = _ := h.severities .critical
    rw [h.total, hinfo, hwarning, hcritical]
    exact countP_severities _
  unacknowledged := by rw [h.unacknowledged, List.countP_eq_length_filter]
  newest := h.recentAlerts

/-- After any calls, as long as the numbers of the alerts and of the rules last, the books are exact,
and no rule in force has raised two alerts within its cooldown, the later one before the last
timestamp. -/
theorem alert_law {calls : List (MonitorEnv × AlertCall)} (halerts : (after calls).raised.length < u64Max)
    (hrules : (after calls).added.length < u32Max) :
    (∃ kept, Exact (after calls) kept) ∧
      ∀ rule ∈ (after calls).getRules, Spaced rule (alertsOf (after calls) rule.id) := by
  have hsound := sound_after calls
  obtain ⟨kept, hkept⟩ := hsound.recorded halerts
  exact ⟨⟨kept, hkept.exact⟩, fun rule hrule => ((hsound.paced hrules).rules rule hrule).spaced⟩

/-- A rule that watches for a day without payments. -/
def quietRule : AlertRule where
  id := 0
  metric := .dailyPayments
  comparator := .below
  threshold := 1
  severity := .warning
  cooldownSecs := 10
  enabled := true
  lastTriggeredAt := 0
  triggerCount := 0

def quietCalls : List (MonitorEnv × AlertCall) :=
  [({ now := 90 }, .addRule quietRule), ({ now := 100 }, .checkAll), ({ now := 105 }, .checkAll),
    ({ now := 110 }, .checkAll), ({ now := 111 }, .acknowledge 1)]

/-- Two of the three evaluations raise an alert, and the first alert is acknowledged. -/
theorem alert_sample :
    (after quietCalls).raised.map Raised.time = [100, 110] ∧ (after quietCalls).getStats.unacknowledged = 1 ∧
      (∃ kept, Exact (after quietCalls) kept) ∧
      ∀ rule ∈ (after quietCalls).getRules, Spaced rule (alertsOf (after quietCalls) rule.id) :=
  ⟨by decide +kernel, by decide +kernel, alert_law (by decide +kernel) (by decide +kernel)⟩

def lastCalls : List (MonitorEnv × AlertCall) :=
  [({ now := 90 }, .addRule quietRule), ({ now := u64Max }, .checkAll), ({ now := u64Max }, .checkAll)]

/-- At the last timestamp a rule with a cooldown of 10 seconds raises two alerts. -/
theorem alert_law_fails :
    ∃ rule ∈ (after lastCalls).getRules, rule.cooldownSecs = 10 ∧
      (alertsOf (after lastCalls) rule.id).map Raised.time = [u64Max, u64Max] ∧
      ¬(alertsOf (after lastCalls) rule.id).Pairwise fun e f => e.time + rule.cooldownSecs ≤ f.time := by
  have hrules : (after lastCalls).getRules =
      [{ quietRule with id := 1, lastTriggeredAt := u64Max, triggerCount := 2 }] := by decide +kernel
  have htimes : (alertsOf (after lastCalls) 1).map Raised.time = [u64Max, u64Max] := by decide +kernel
  refine ⟨_, hrules ▸ List.mem_singleton_self _, rfl, htimes, fun h => ?_⟩
  have hmapped : ((alertsOf (after lastCalls) 1).map Raised.time).Pairwise fun m n => m + 10 ≤ n :=
    List.pairwise_map.2 h
  rw [htimes] at hmapped
  exact absurd hmapped (by decide)

end StellarSplit.Split.Alerts
