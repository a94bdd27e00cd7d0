import StellarSplit.Lib.Numbered
import StellarSplit.Lib.Runs
import StellarSplit.Lib.Trim
import StellarSplit.Split.Lock

/-!
# The compliance log

A log of numbered entries that loses its oldest one beyond 500 and, on a purge, those
older than the retention window. The list of the live entries is what the log means:
it is extended at its end, cut at its front and filtered by time, and the storage holds
it under consecutive numbers. The sequence counter is a `u64`, and with its last value
in use the reads that reach the tail trap as the appends do.
-/

namespace StellarSplit.Split.AuditLog

open Exec Function Machine Numbered Trim

/-! ## The log -/

inductive LogEventKind where
  | adminAction
  | invoiceLifecycle
  | payment
  | securityEvent
  | upgradeEvent
  | rateLimitEvent
  | other
deriving DecidableEq, Repr

/-- `kind as u32`. -/
def LogEventKind.disc : LogEventKind → ℕ
  | adminAction => 0
  | invoiceLifecycle => 1
  | payment => 2
  | securityEvent => 3
  | upgradeEvent => 4
  | rateLimitEvent => 5
  | other => 6

structure ComplianceLogEntry where
  seq : ℕ
  kind : LogEventKind
  action : Symbol
  actor : Address
  invoiceId : ℕ
  timestamp : ℕ
  ledger : ℕ
  dataHash : Option Hash
  note : String
deriving DecidableEq

structure AuditStats where
  totalAppended : ℕ := 0
  totalPurged : ℕ := 0
  countsByKind : ℕ → Option ℕ := fun _ => none

structure LogStore where
  seq : Option ℕ := none
  head : Option ℕ := none
  retentionSecs : Option ℕ := none
  stats : Option AuditStats := none
  entries : ℕ → Option ComplianceLogEntry := fun _ => none

abbrev LogM (α : Type) := Call LogStore SplitFault α

def maxLogEntries : ℕ := 500

def defaultRetentionSecs : ℕ := 90 * 24 * 60 * 60

namespace LogStore

def getSeq (s : LogStore) : ℕ := s.seq.getD 0

def getHead (s : LogStore) : ℕ := s.head.getD 1

def getRetentionSecs (s : LogStore) : ℕ := s.retentionSecs.getD defaultRetentionSecs

def getStats (s : LogStore) : AuditStats := s.stats.getD {}

def getEntry (s : LogStore) (seq : ℕ) : Option ComplianceLogEntry := s.entries seq

def getLiveRange (s : LogStore) : ℕ × ℕ := (s.getHead, s.getSeq)

end LogStore

/-- What an append is given. -/
structure Record where
  kind : LogEventKind
  action : Symbol
  actor : Address
  invoiceId : ℕ
  dataHash : Option Hash
  note : String
deriving DecidableEq

/-- The entry written for a record under a sequence number. -/
def Record.entry (r : Record) (env : Env) (seq : ℕ) : ComplianceLogEntry where
  seq := seq
  kind := r.kind
  action := r.action
  actor := r.actor
  invoiceId := r.invoiceId
  timestamp := env.now
  ledger := env.sequence
  dataHash := r.dataHash
  note := r.note

def incrementSeq : LogM ℕ := do
  let s ← get
  require (s.getSeq + 1 ≤ u64Max) .overflow
  set { s with seq := some (s.getSeq + 1) }
  pure (s.getSeq + 1)

/-- The part of `append` that updates the stats. -/
def countEvent (kind : LogEventKind) : LogM Unit := do
  let s ← get
  let stats := s.getStats
  require (stats.totalAppended + 1 ≤ u64Max) .overflow
  let count := (stats.countsByKind kind.disc).getD 0
  require (count + 1 ≤ u64Max) .overflow
  set { s with stats := some { stats with
    totalAppended := stats.totalAppended + 1
    countsByKind := update stats.countsByKind kind.disc (some (count + 1)) } }

/-- The part of `append` that evicts the oldest entry over the cap. -/
def evictOldest (seq : ℕ) : LogM Unit := do
  let s ← get
  let head := s.getHead
  require (seq - head + 1 ≤ u64Max) .overflow
  onlyIf (maxLogEntries < seq - head + 1) do
    require (head + 1 ≤ u64Max) .overflow
    set { s with entries := update s.entries head none, head := some (head + 1) }

def append (env : Env) (r : Record) : LogM ℕ := do
  let seq ← incrementSeq
  modify fun s => { s with entries := update s.entries seq (some (r.entry env seq)) }
  countEvent r.kind
  evictOldest seq
  pure seq

/-- The rounds of `entries_in_range` from `seq`, with the number of rounds until `seq` passes the
tail: each adds one to `seq`, which must not overflow. -/
def scanRange (s : LogStore) (fromTs toTs maxResults : ℕ) :
    ℕ → ℕ → List ComplianceLogEntry → Except SplitFault (List ComplianceLogEntry)
  | 0, _, result => .ok result
  | rounds + 1, seq, result =>
      if result.length < maxResults then
        if seq + 1 ≤ u64Max then
          match s.getEntry seq with
          | some entry =>
              if fromTs ≤ entry.timestamp ∧ entry.timestamp ≤ toTs then
                scanRange s fromTs toTs maxResults rounds (seq + 1) (result ++ [entry])
              else scanRange s fromTs toTs maxResults rounds (seq + 1) result
          | none => scanRange s fromTs toTs maxResults rounds (seq + 1) result
        else .error .overflow
      else .ok result

def entriesInRange (fromTs toTs maxResults : ℕ) : LogM (List ComplianceLogEntry) := do
  let s ← get
  let (head, tail) := s.getLiveRange
  ofResult (scanRange s fromTs toTs maxResults (tail + 1 - head) head [])

/-- The rounds of `purge_expired` from `seq`, counted like those of a scan, with the number of
entries purged so far and the new head. -/
def purgeRounds (cutoffTs : ℕ) : ℕ → ℕ → ℕ → ℕ → LogM (ℕ × ℕ)
  | 0, _, purged, newHead => pure (purged, newHead)
  | rounds + 1, seq, purged, newHead => do
      let s ← get
      match s.getEntry seq with
      | some entry =>
          if entry.timestamp < cutoffTs then do
            modify fun s => { s with entries := update s.entries seq none }
            require (purged + 1 ≤ u64Max) .overflow
            require (seq + 1 ≤ u64Max) .overflow
            purgeRounds cutoffTs rounds (seq + 1) (purged + 1) (seq + 1)
          else pure (purged, newHead)
      | none => pure (purged, newHead)

def purgeExpired (env : Env) : LogM ℕ := do
  let s ← get
  let cutoffTs := env.now - s.getRetentionSecs
  let (head, tail) := s.getLiveRange
  let (purged, newHead) ← purgeRounds cutoffTs (tail + 1 - head) head 0 head
  onlyIf (0 < purged) do
    modify fun s => { s with head := some newHead }
    let s ← get
    let stats := s.getStats
    require (stats.totalPurged + purged ≤ u64Max) .overflow
    modify fun s => { s with stats := some { stats with totalPurged := stats.totalPurged + purged } }
  pure purged

def setRetentionSecs (secs : ℕ) : LogM Unit := do
  require (0 < secs) (.panic "retention window must be positive")
  modify fun s => { s with retentionSecs := some secs }

/-! ## The live entries -/

/-- What the storage holds: the entries `l`, under the numbers from the head to the last one given. -/
structure Keeps (l : List ComplianceLogEntry) (s : LogStore) : Prop where
  holds : Holds s.entries s.getHead l
  tail : s.getHead + l.length = s.getSeq + 1
  numbered : ∀ i e, l[i]? = some e → e.seq = s.getHead + i
  appended : s.getStats.totalAppended = s.getSeq
  counted : ∀ k, (s.getStats.countsByKind k).getD 0 ≤ s.getSeq
  purged : s.getStats.totalPurged + 1 ≤ s.getHead

variable {s t : LogStore} {l : List ComplianceLogEntry} {env : Env} {r : Record}

theorem keeps_empty : Keeps [] {} where
  holds := Holds.nil
  tail := rfl
  numbered := by simp
  appended := rfl
  counted := by simp [LogStore.getStats]
  purged := le_rfl

/-! ### Appending -/

/-- The storage once an entry is written and counted, before the oldest one is evicted. -/
def LogStore.written (s : LogStore) (env : Env) (r : Record) : LogStore :=
  { s with
    seq := some (s.getSeq + 1)
    entries := update s.entries (s.getSeq + 1) (some (r.entry env (s.getSeq + 1)))
    stats := some { s.getStats with
      totalAppended := s.getStats.totalAppended + 1
      countsByKind := update s.getStats.countsByKind r.kind.disc
        (some ((s.getStats.countsByKind r.kind.disc).getD 0 + 1)) } }

def LogStore.evicted (s : LogStore) : LogStore :=
  { s with entries := update s.entries s.getHead none, head := some (s.getHead + 1) }

theorem evictOldest_run {seq live : ℕ} (hlive : seq - s.getHead + 1 = live) (hlen : live ≤ u64Max)
    (hnext : maxLogEntries < live → s.getHead + 1 ≤ u64Max) :
    evictOldest seq s = .ok ((), if live ≤ maxLogEntries then s else s.evicted) := by
  subst hlive
  rw [evictOldest, bind_run (get_ok.2 ⟨rfl, rfl⟩), bind_run (require_run hlen _ _)]
  by_cases hover : maxLogEntries < seq - s.getHead + 1
  · rw [if_neg (Nat.not_le_of_lt hover)]
    refine onlyIf_ok.2 (.inl ⟨hover, ?_⟩)
    exact (bind_run (require_run (hnext hover) _ _)).trans rfl
  · rw [if_pos (Nat.le_of_not_lt hover)]
    exact onlyIf_ok.2 (.inr ⟨hover, rfl⟩)

theorem append_run (hroom : s.getSeq + 1 ≤ u64Max) (h : Keeps l s) :
    append env r s = .ok (s.getSeq + 1,
      if l.length + 1 ≤ maxLogEntries then s.written env r else (s.written env r).evicted) := by
  have htotal : s.getStats.totalAppended + 1 ≤ u64Max := h.appended ▸ hroom
  have hcount : (s.getStats.countsByKind r.kind.disc).getD 0 + 1 ≤ u64Max :=
    (Nat.succ_le_succ (h.counted _)).trans hroom
  have htail := h.tail
  have hhead : 1 ≤ s.getHead := le_trans (Nat.le_add_left _ _) h.purged
  have hevict : evictOldest (s.getSeq + 1) (s.written env r) =
      .ok ((), if l.length + 1 ≤ maxLogEntries then s.written env r else (s.written env r).evicted) := by
    apply evictOldest_run
    · change s.getSeq + 1 - s.getHead + 1 = l.length + 1
      omega
    · omega
    · intro hover
      unfold maxLogEntries at hover
      change s.getHead + 1 ≤ u64Max
      omega
  have hstats : countEvent r.kind { s with
      seq := some (s.getSeq + 1)
      entries := update s.entries (s.getSeq + 1) (some (r.entry env (s.getSeq + 1))) } =
      .ok ((), s.written env r) := by
    rw [countEvent, bind_run (get_ok.2 ⟨rfl, rfl⟩)]
    exact (bind_run (require_run htotal _ _)).trans ((bind_run (require_run hcount _ _)).trans rfl)
  rw [append, incrementSeq, bind_assoc, bind_run (get_ok.2 ⟨rfl, rfl⟩), bind_assoc,
    bind_run (require_run hroom _ _), bind_assoc, bind_run (a := ()) (set_ok.2 rfl),
    bind_run (pure_ok.2 ⟨rfl, rfl⟩), bind_run (a := ()) (modify_ok.2 rfl)]
  exact (bind_run hstats).trans ((bind_run hevict).trans rfl)

theorem Keeps.written (h : Keeps l s) : Keeps (l ++ [r.entry env (s.getSeq + 1)]) (s.written env r) where
  holds := by
    have hplace := h.holds.append (a := r.entry env (s.getSeq + 1))
    rwa [h.tail] at hplace
  tail := by
    change s.getHead + (l ++ [_]).length = s.getSeq + 1 + 1
    rw [List.length_append, List.length_singleton, ← h.tail, Nat.add_assoc]
  numbered := by
    intro i e he
    change e.seq = s.getHead + i
    rcases Nat.lt_trichotomy i l.length with hlt | rfl | hgt
    · rw [List.getElem?_append_left hlt] at he
      exact h.numbered i e he
    · rw [List.getElem?_concat_length] at he
      rw [← Option.some.inj he]
      exact h.tail.symm
    · rw [List.getElem?_eq_none (by simpa using Nat.succ_le_of_lt hgt)] at he
      cases he
  appended := congrArg (· + 1) h.appended
  counted := by
    intro k
    change (update s.getStats.countsByKind r.kind.disc _ k).getD 0 ≤ s.getSeq + 1
    by_cases hk : k = r.kind.disc
    · subst hk
      rw [update_self]
      exact Nat.succ_le_succ (h.counted _)
    · rw [update_of_ne hk]
      exact (h.counted k).trans (Nat.le_succ _)
  purged := h.purged

theorem Keeps.evicted {a : ComplianceLogEntry} (h : Keeps (a :: l) s) : Keeps l s.evicted where
  holds := h.holds.tail
  tail := by
    change s.getHead + 1 + l.length = s.getSeq + 1
    rw [← h.tail, List.length_cons]
    omega
  numbered := by
    intro i e he
    change e.seq = s.getHead + 1 + i
    rw [h.numbered (i + 1) e (by simpa using he)]
    omega
  appended := h.appended
  counted := h.counted
  purged := h.purged.trans (Nat.le_succ _)

/-- The entry goes to the end, and the oldest one leaves a log that was full. -/
theorem append_spec (env : Env) (r : Record) (hroom : s.getSeq < u64Max) (hfew : l.length ≤ maxLogEntries) (h : Keeps l s) :
    ∃ t, append env r s = .ok (s.getSeq + 1, t) ∧ t.getSeq = s.getSeq + 1 ∧
      Keeps (popFront maxLogEntries (l ++ [r.entry env (s.getSeq + 1)])) t := by
  refine ⟨_, append_run hroom h, ?_⟩
  rw [popFront_push (by decide) hfew]
  by_cases hfull : l.length < maxLogEntries
  · rw [if_pos hfull, if_pos (Nat.succ_le_of_lt hfull)]
    exact ⟨rfl, h.written⟩
  · rw [if_neg hfull, if_neg (show ¬l.length + 1 ≤ maxLogEntries from hfull)]
    cases l with
    | nil => exact absurd (by decide) hfull
    | cons a l => exact ⟨rfl, Keeps.evicted (a := a) h.written⟩

/-! ### Reading -/

theorem scanRange_run {fromTs toTs maxResults seq : ℕ} {result : List ComplianceLogEntry}
    (hplaces : ∀ i < l.length, s.entries (seq + i) = l[i]?) (hend : seq + l.length ≤ u64Max)
    (henough : result.length +
      (l.filter fun e => decide (fromTs ≤ e.timestamp ∧ e.timestamp ≤ toTs)).length ≤ maxResults) :
    scanRange s fromTs toTs maxResults l.length seq result =
      .ok (result ++ l.filter fun e => decide (fromTs ≤ e.timestamp ∧ e.timestamp ≤ toTs)) := by
  induction l generalizing seq result with
  | nil => simp [scanRange]
  | cons e l ih =>
      have hfirst : s.getEntry seq = some e := hplaces 0 (by simp)
      have hrest : ∀ i < l.length, s.entries (seq + 1 + i) = l[i]? := by
        intro i hi
        have hplace := hplaces (i + 1) (by simpa using hi)
        rwa [List.getElem?_cons_succ, show seq + (i + 1) = seq + 1 + i by omega] at hplace
      have hend' : seq + 1 + l.length ≤ u64Max := by
        rw [List.length_cons] at hend
        omega
      rw [List.length_cons, scanRange]
      split_ifs with hmore hseq
      · rw [hfirst]
        dsimp only
        by_cases hin : fromTs ≤ e.timestamp ∧ e.timestamp ≤ toTs
        · rw [List.filter_cons_of_pos (by simpa using hin)] at henough ⊢
          rw [if_pos hin, ih hrest hend', List.append_assoc, List.singleton_append]
          rw [List.length_append, List.length_singleton]
          rw [List.length_cons] at henough
          omega
        · rw [List.filter_cons_of_neg (by simpa using hin)] at henough ⊢
          rw [if_neg hin, ih hrest hend' henough]
      · omega
      · -- the limit is reached, and no entry in the range is left
        have hnone : (List.filter (fun e => decide (fromTs ≤ e.timestamp ∧ e.timestamp ≤ toTs)) (e :: l)) = [] :=
          List.eq_nil_of_length_eq_zero (by omega)
        rw [hnone, List.append_nil]

/-- A scan that has room for every entry reaches the tail, and the step past the last number there
is traps. -/
theorem scanRange_trap {fromTs toTs maxResults rounds seq : ℕ} {result : List ComplianceLogEntry}
    (hend : seq + rounds = u64Max) (hroom : result.length + rounds < maxResults) :
    scanRange s fromTs toTs maxResults (rounds + 1) seq result = .error .overflow := by
  induction rounds generalizing seq result with
  | zero =>
      rw [scanRange, if_pos (by omega), if_neg (by omega)]
  | succ rounds ih =>
      have hskip : scanRange s fromTs toTs maxResults (rounds + 1) (seq + 1) result = .error .overflow :=
        ih (by omega) (by omega)
      have htake : ∀ e, scanRange s fromTs toTs maxResults (rounds + 1) (seq + 1) (result ++ [e]) =
          .error .overflow := by
        intro e
        apply ih (by omega)
        rw [List.length_append, List.length_singleton]
        omega
      rw [scanRange, if_pos (by omega), if_pos (by omega)]
      cases s.getEntry seq with
      | none => exact hskip
      | some e =>
          dsimp only
          rw [htake, hskip, ite_self]

/-! ### Purging -/

/-- The number of entries at the front that are older than the cutoff. -/
def expired (cutoffTs : ℕ) (l : List ComplianceLogEntry) : ℕ :=
  (l.takeWhile fun e => decide (e.timestamp < cutoffTs)).length

theorem expired_cons_of_lt {cutoffTs : ℕ} {e : ComplianceLogEntry} (h : e.timestamp < cutoffTs) :
    expired cutoffTs (e :: l) = expired cutoffTs l + 1 := by
  rw [expired, List.takeWhile_cons_of_pos (by simpa using h), List.length_cons, expired]

theorem expired_cons_of_le {cutoffTs : ℕ} {e : ComplianceLogEntry} (h : ¬e.timestamp < cutoffTs) :
    expired cutoffTs (e :: l) = 0 := by
  rw [expired, List.takeWhile_cons_of_neg (by simpa using h), List.length_nil]

theorem expired_le (cutoffTs : ℕ) (l : List ComplianceLogEntry) : expired cutoffTs l ≤ l.length :=
  (List.takeWhile_sublist _).length_le

theorem timestamp_lt_of_lt_expired {cutoffTs i : ℕ} {e : ComplianceLogEntry} (he : l[i]? = some e)
    (hi : i < expired cutoffTs l) : e.timestamp < cutoffTs := by
  rw [← List.takeWhile_append_dropWhile (p := fun e => decide (e.timestamp < cutoffTs)) (l := l),
    List.getElem?_append_left hi] at he
  simpa using List.mem_takeWhile_imp (List.mem_of_getElem? he)

theorem drop_expired (cutoffTs : ℕ) (l : List ComplianceLogEntry) :
    l.drop (expired cutoffTs l) = l.dropWhile fun e => decide (e.timestamp < cutoffTs) := by
  induction l with
  | nil => rfl
  | cons e l ih =>
      by_cases h : e.timestamp < cutoffTs
      · rw [expired_cons_of_lt h, List.drop_succ_cons, ih, List.dropWhile_cons_of_pos (by simpa using h)]
      · rw [expired_cons_of_le h, List.drop_zero, List.dropWhile_cons_of_neg (by simpa using h)]

theorem purgeRounds_run {cutoffTs seq purged : ℕ} (h : Holds s.entries seq l) (hpurged : purged ≤ seq)
    (hend : seq + expired cutoffTs l ≤ u64Max) :
    ∃ table, purgeRounds cutoffTs l.length seq purged seq s =
        .ok ((purged + expired cutoffTs l, seq + expired cutoffTs l), { s with entries := table }) ∧
      Holds table (seq + expired cutoffTs l) (l.drop (expired cutoffTs l)) := by
  induction l generalizing s seq purged with
  | nil => exact ⟨s.entries, rfl, h⟩
  | cons e l ih =>
      have hfirst : s.getEntry seq = some e := h.head
      rw [List.length_cons, purgeRounds, bind_run (get_ok.2 ⟨rfl, rfl⟩), hfirst]
      dsimp only
      by_cases hold : e.timestamp < cutoffTs
      · have hseq : seq + (expired cutoffTs l + 1) = seq + 1 + expired cutoffTs l := by omega
        have hcount : purged + (expired cutoffTs l + 1) = purged + 1 + expired cutoffTs l := by omega
        rw [expired_cons_of_lt hold, hseq] at hend
        rw [expired_cons_of_lt hold, hseq, hcount]
        obtain ⟨table, hrun, htable⟩ := ih (s := { s with entries := update s.entries seq none })
          h.tail (show purged + 1 ≤ seq + 1 from Nat.succ_le_succ hpurged) hend
        rw [if_pos hold, bind_run (a := ()) (modify_ok.2 rfl), bind_run (require_run (by omega) _ _),
          bind_run (require_run (by omega) _ _), hrun, List.drop_succ_cons]
        exact ⟨table, rfl, htable⟩
      · rw [expired_cons_of_le hold, if_neg hold]
        exact ⟨s.entries, rfl, h⟩

/-- A purge that comes to the last number there is traps on the step past it. -/
theorem purgeRounds_trap {cutoffTs seq purged : ℕ} (h : Holds s.entries seq l) (hpurged : purged ≤ seq)
    (hseq : seq ≤ u64Max) (hend : u64Max < seq + expired cutoffTs l) :
    purgeRounds cutoffTs l.length seq purged seq s = .error .overflow := by
  induction l generalizing s seq purged with
  | nil => exact absurd hend (Nat.not_lt_of_le hseq)
  | cons e l ih =>
      have hfirst : s.getEntry seq = some e := h.head
      rw [List.length_cons, purgeRounds, bind_run (get_ok.2 ⟨rfl, rfl⟩), hfirst]
      dsimp only
      by_cases hold : e.timestamp < cutoffTs
      · rw [expired_cons_of_lt hold] at hend
        rw [if_pos hold, bind_run (a := ()) (modify_ok.2 rfl)]
        by_cases hlast : seq + 1 ≤ u64Max
        · rw [bind_run (require_run (by omega) _ _), bind_run (require_run hlast _ _)]
          exact ih (s := { s with entries := update s.entries seq none }) h.tail (Nat.succ_le_succ hpurged)
            hlast (by omega)
        · by_cases hcount : purged + 1 ≤ u64Max
          · rw [bind_run (require_run hcount _ _), bind_trap (require_trap hlast _ _)]
          · rw [bind_trap (require_trap hcount _ _)]
      · rw [expired_cons_of_le hold] at hend
        exact absurd hend (Nat.not_lt_of_le hseq)

theorem Keeps.cut {k : ℕ} {table : ℕ → Option ComplianceLogEntry} {stats : AuditStats} (h : Keeps l s)
    (hk : k ≤ l.length) (htable : Holds table (s.getHead + k) (l.drop k))
    (hstats : stats = { s.getStats with totalPurged := s.getStats.totalPurged + k }) :
    Keeps (l.drop k) { s with entries := table, head := some (s.getHead + k), stats := some stats } where
  holds := htable
  tail := by
    change s.getHead + k + (l.drop k).length = s.getSeq + 1
    rw [List.length_drop, ← h.tail]
    omega
  numbered := by
    intro i e he
    change e.seq = s.getHead + k + i
    rw [List.getElem?_drop] at he
    rw [h.numbered (k + i) e he, Nat.add_assoc]
  appended := by
    subst hstats
    exact h.appended
  counted := by
    subst hstats
    exact h.counted
  purged := by
    subst hstats
    have hbefore := h.purged
    change s.getStats.totalPurged + k + 1 ≤ s.getHead + k
    omega

theorem purgeExpired_run (h : Keeps l s)
    (hend : s.getHead + expired (env.now - s.getRetentionSecs) l ≤ u64Max) :
    ∃ t, purgeExpired env s = .ok (expired (env.now - s.getRetentionSecs) l, t) ∧ t.getSeq = s.getSeq ∧
      t.getHead = s.getHead + expired (env.now - s.getRetentionSecs) l ∧
      Keeps (l.drop (expired (env.now - s.getRetentionSecs) l)) t := by
  have hle := expired_le (env.now - s.getRetentionSecs) l
  have hrounds : s.getSeq + 1 - s.getHead = l.length := by
    rw [← h.tail]
    omega
  obtain ⟨table, hrun, htable⟩ := purgeRounds_run h.holds (Nat.zero_le _) hend
  rw [Nat.zero_add] at hrun
  rw [purgeExpired, bind_run (get_ok.2 ⟨rfl, rfl⟩)]
  dsimp only [LogStore.getLiveRange]
  rw [hrounds, bind_run hrun]
  dsimp only
  generalize expired (env.now - s.getRetentionSecs) l = k at hle hend htable ⊢
  by_cases hpos : 0 < k
  · have hcount : s.getStats.totalPurged + k ≤ u64Max := by
      have hbefore := h.purged
      omega
    refine ⟨{ s with
      entries := table
      head := some (s.getHead + k)
      stats := some { s.getStats with totalPurged := s.getStats.totalPurged + k } },
      bind_run (a := ()) (onlyIf_ok.2 (.inl ⟨hpos, ?_⟩)), rfl, rfl, h.cut hle htable rfl⟩
    rw [bind_run (a := ()) (modify_ok.2 rfl), bind_run (get_ok.2 ⟨rfl, rfl⟩)]
    exact (bind_run (require_run hcount _ _)).trans rfl
  · obtain rfl : k = 0 := Nat.eq_zero_of_not_pos hpos
    obtain rfl := h.holds.unique htable
    exact ⟨s, bind_run (a := ()) (onlyIf_ok.2 (.inr ⟨lt_irrefl 0, rfl⟩)), rfl, rfl, h⟩

/-- A purge that returns stayed within the numbers there are. -/
theorem purgeExpired_ok {purged : ℕ} (h : Keeps l s) (hhead : s.getHead ≤ u64Max)
    (hrun : purgeExpired env s = .ok (purged, t)) :
    s.getHead + expired (env.now - s.getRetentionSecs) l ≤ u64Max := by
  by_contra hover
  have hrounds : s.getSeq + 1 - s.getHead = l.length := by
    rw [← h.tail]
    omega
  have htrap := purgeRounds_trap h.holds (Nat.zero_le s.getHead) hhead (Nat.lt_of_not_le hover)
  rw [purgeExpired, bind_run (get_ok.2 ⟨rfl, rfl⟩)] at hrun
  dsimp only [LogStore.getLiveRange] at hrun
  rw [hrounds, bind_trap htrap] at hrun
  cases hrun

/-! ## Runs -/

inductive LogCall where
  | append (r : Record)
  | purgeExpired
  | setRetentionSecs (secs : ℕ)
deriving DecidableEq

def logStep (c : Env × LogCall) : LogM Unit :=
  match c.2 with
  | .append r => ignore (append c.1 r)
  | .purgeExpired => ignore (purgeExpired c.1)
  | .setRetentionSecs secs => setRetentionSecs secs

/-- The storage after calls on a contract whose log was never used. -/
abbrev after (calls : List (Env × LogCall)) : LogStore := runAll logStep {} calls

/-- The storage at a time: it holds a list of at most 500 entries in the order of their times, none
later than now, and its counters are `u64`. -/
structure Window (l : List ComplianceLogEntry) (now : ℕ) (s : LogStore) : Prop where
  keeps : Keeps l s
  few : l.length ≤ maxLogEntries
  ordered : l.Pairwise fun e f => e.timestamp ≤ f.timestamp
  past : ∀ e ∈ l, e.timestamp ≤ now
  seq_le : s.getSeq ≤ u64Max
  head_le : s.getHead ≤ u64Max

theorem window_empty (now : ℕ) : Window [] now {} :=
  ⟨keeps_empty, Nat.zero_le _, List.Pairwise.nil, by simp, Nat.zero_le _, by decide⟩

theorem append_seq_lt {seq : ℕ} (hrun : append env r s = .ok (seq, t)) : s.getSeq < u64Max := by
  rw [append] at hrun
  obtain ⟨_, _, hincrement, -⟩ := bind_ok.1 hrun
  rw [incrementSeq, get_bind, require_bind] at hincrement
  exact hincrement.1

theorem Window.append {seq : ℕ} (h : Window l env.now s) (hrun : append env r s = .ok (seq, t)) :
    Window (popFront maxLogEntries (l ++ [r.entry env (s.getSeq + 1)])) env.now t := by
  have hroom := append_seq_lt hrun
  obtain ⟨t', hrun', hseq, hkeeps⟩ := append_spec env r hroom h.few h.keeps
  rw [hrun'] at hrun
  cases hrun
  have hsuffix := popFront_suffix maxLogEntries (l ++ [r.entry env (s.getSeq + 1)])
  have hpast : ∀ e ∈ l ++ [r.entry env (s.getSeq + 1)], e.timestamp ≤ env.now := by
    intro e he
    rcases List.mem_append.1 he with he | he
    · exact h.past e he
    · rw [List.mem_singleton.1 he]
      exact le_rfl
  have hlast : (popFront maxLogEntries (l ++ [r.entry env (s.getSeq + 1)])).length ≠ 0 := by
    intro hzero
    have hlast : (popFront maxLogEntries (l ++ [r.entry env (s.getSeq + 1)])).getLast? =
        (l ++ [r.entry env (s.getSeq + 1)]).getLast? := getLast?_popFront (by decide) _
    rw [List.eq_nil_of_length_eq_zero hzero, List.getLast?_concat] at hlast
    cases hlast
  refine ⟨hkeeps, length_popFront _ _, ?_, fun e he => hpast e (hsuffix.mem he), hseq ▸ hroom, ?_⟩
  · refine List.Pairwise.sublist hsuffix.sublist (List.pairwise_append.2 ⟨h.ordered, List.pairwise_singleton _ _, ?_⟩)
    intro e he f hf
    rw [List.mem_singleton.1 hf]
    exact h.past e he
  · have htail := hkeeps.tail
    omega

theorem Window.purge {purged : ℕ} (h : Window l env.now s) (hrun : purgeExpired env s = .ok (purged, t)) :
    Window (l.drop (expired (env.now - s.getRetentionSecs) l)) env.now t := by
  have hend := purgeExpired_ok h.keeps h.head_le hrun
  obtain ⟨t', hrun', hseq, hhead, hkeeps⟩ := purgeExpired_run h.keeps hend
  rw [hrun'] at hrun
  cases hrun
  refine ⟨hkeeps, ?_, h.ordered.sublist (List.drop_sublist _ _), ?_, hseq ▸ h.seq_le, hhead ▸ hend⟩
  · rw [List.length_drop]
    exact (Nat.sub_le _ _).trans h.few
  · exact fun e he => h.past e (List.mem_of_mem_drop he)

theorem window_step {c : Env × LogCall} {u : Unit} (h : ∃ l, Window l c.1.now s)
    (hrun : logStep c s = .ok (u, t)) : ∃ l, Window l c.1.now t := by
  obtain ⟨l, h⟩ := h
  obtain ⟨env, call⟩ := c
  cases call with
  | append r =>
      obtain ⟨seq, hrun⟩ := ignore_ok.1 hrun
      exact ⟨_, h.append hrun⟩
  | purgeExpired =>
      obtain ⟨purged, hrun⟩ := ignore_ok.1 hrun
      exact ⟨_, h.purge hrun⟩
  | setRetentionSecs secs =>
      change setRetentionSecs secs s = .ok (u, t) at hrun
      rw [setRetentionSecs, require_bind] at hrun
      rw [← modify_ok.1 hrun.2]
      exact ⟨l, ⟨h.keeps.holds, h.keeps.tail, h.keeps.numbered, h.keeps.appended, h.keeps.counted,
        h.keeps.purged⟩, h.few, h.ordered, h.past, h.seq_le, h.head_le⟩

theorem window_after {calls : List (Env × LogCall)} {now : ℕ}
    (hordered : calls.Pairwise fun c d => c.1.now ≤ d.1.now) (huntil : ∀ c ∈ calls, c.1.now ≤ now) :
    ∃ l, Window l now (after calls) := by
  have hwait : ∀ m n s, m ≤ n → (∃ l, Window l m s) → ∃ l, Window l n s := by
    rintro m n s hle ⟨l, h⟩
    exact ⟨l, h.keeps, h.few, h.ordered, fun e he => (h.past e he).trans hle, h.seq_le, h.head_le⟩
  have hstep : ∀ s (c : Env × LogCall) u t, (∃ l, Window l c.1.now s) → logStep c s = .ok (u, t) →
      ∃ l, Window l c.1.now t := fun _ _ _ _ h hrun => window_step h hrun
  exact runAll_clocked hwait hstep ⟨[], window_empty 0⟩ hordered (fun _ _ => Nat.zero_le _) huntil
    (Nat.zero_le _)

/-! ## The law -/

/-- The live entries, from the oldest to the newest. -/
def LogStore.live (s : LogStore) : List ComplianceLogEntry :=
  (List.range' s.getHead (s.getSeq + 1 - s.getHead)).filterMap s.getEntry

/-- The stored entries are a window of the log: those numbered from the head to the tail, at most
500, and in the order of their times. -/
structure GapFree (s : LogStore) : Prop where
  stored_iff : ∀ n, (s.getEntry n).isSome ↔ s.getHead ≤ n ∧ n ≤ s.getSeq
  few : s.getSeq + 1 - s.getHead ≤ maxLogEntries
  numbered : ∀ n e, s.getEntry n = some e → e.seq = n
  ordered : ∀ m n e f, m ≤ n → s.getEntry m = some e → s.getEntry n = some f → e.timestamp ≤ f.timestamp

/-- An append returns the next number, writes the entry under it, and takes the oldest entry out
exactly when there are 500. -/
def AppendsNext (s : LogStore) : Prop :=
  ∀ env r, ∃ t, append env r s = .ok (s.getSeq + 1, t) ∧ t.getSeq = s.getSeq + 1 ∧
    ∀ n, t.getEntry n =
      if n = s.getSeq + 1 then some (r.entry env (s.getSeq + 1))
      else if n = s.getHead ∧ s.getSeq + 1 - s.getHead = maxLogEntries then none else s.getEntry n

/-- A purge removes the entries older than the cutoff, and counts them. -/
def PurgesExpired (s : LogStore) : Prop :=
  ∀ env, ∃ t,
    purgeExpired env s =
      .ok ((s.live.filter fun e => decide (e.timestamp < env.now - s.getRetentionSecs)).length, t) ∧
    t.getSeq = s.getSeq ∧
    ∀ n, t.getEntry n = (s.getEntry n).filter fun e => decide (env.now - s.getRetentionSecs ≤ e.timestamp)

/-- A read with room for all the live entries of a time range returns them, from the oldest to the newest. -/
def ReadsRange (s : LogStore) : Prop :=
  ∀ fromTs toTs maxResults,
    (s.live.filter fun e => decide (fromTs ≤ e.timestamp ∧ e.timestamp ≤ toTs)).length ≤ maxResults →
    entriesInRange fromTs toTs maxResults s =
      .ok (s.live.filter fun e => decide (fromTs ≤ e.timestamp ∧ e.timestamp ≤ toTs), s)

section Law

variable {now : ℕ}

theorem Keeps.live_eq (h : Keeps l s) : s.live = l := by
  have hlen : s.getSeq + 1 - s.getHead = l.length := by
    rw [← h.tail]
    omega
  rw [LogStore.live, hlen]
  exact h.holds.read

theorem Window.gapFree (h : Window l now s) : GapFree s where
  stored_iff n := by
    have htail := h.keeps.tail
    rw [LogStore.getEntry, h.keeps.holds.isSome_iff]
    omega
  few := by
    have htail := h.keeps.tail
    have hfew := h.few
    omega
  numbered n e he := by
    obtain ⟨i, rfl, hi⟩ := h.keeps.holds.mem he
    exact h.keeps.numbered i e hi
  ordered m n e f hle he hf := by
    obtain ⟨i, rfl, hi⟩ := h.keeps.holds.mem he
    obtain ⟨j, rfl, hj⟩ := h.keeps.holds.mem hf
    obtain ⟨hilt, rfl⟩ := List.getElem?_eq_some_iff.1 hi
    obtain ⟨hjlt, rfl⟩ := List.getElem?_eq_some_iff.1 hj
    rcases Nat.lt_or_eq_of_le (Nat.le_of_add_le_add_left hle) with hlt | heq
    · exact List.pairwise_iff_getElem.1 h.ordered i j hilt hjlt hlt
    · subst heq
      exact le_rfl

theorem Window.appendsNext (h : Window l now s) (hroom : s.getSeq < u64Max) : AppendsNext s := by
  intro env r
  have htail := h.keeps.tail
  have hfew := h.few
  refine ⟨_, append_run hroom h.keeps, ?_, fun n => ?_⟩
  · split_ifs <;> rfl
  · by_cases hfull : l.length + 1 ≤ maxLogEntries
    · rw [if_pos hfull]
      change update s.entries (s.getSeq + 1) (some (r.entry env (s.getSeq + 1))) n = _
      by_cases hlast : n = s.getSeq + 1
      · rw [if_pos hlast, hlast, update_self]
      · rw [if_neg hlast, if_neg (by omega), update_of_ne hlast, LogStore.getEntry]
    · rw [if_neg hfull]
      change update (update s.entries (s.getSeq + 1) (some (r.entry env (s.getSeq + 1)))) s.getHead none n = _
      have hne : s.getHead ≠ s.getSeq + 1 := by
        unfold maxLogEntries at hfull
        omega
      by_cases hfirst : n = s.getHead
      · rw [if_neg (hfirst ▸ hne), if_pos ⟨hfirst, by omega⟩, hfirst, update_self]
      · rw [update_of_ne hfirst]
        by_cases hlast : n = s.getSeq + 1
        · rw [if_pos hlast, hlast, update_self]
        · rw [if_neg hlast, if_neg (fun hand => hfirst hand.1), update_of_ne hlast, LogStore.getEntry]

theorem Window.purgesExpired (h : Window l now s) (hroom : s.getSeq < u64Max) : PurgesExpired s := by
  intro env
  have htail := h.keeps.tail
  have hend : s.getHead + expired (env.now - s.getRetentionSecs) l ≤ u64Max := by
    have hle := expired_le (env.now - s.getRetentionSecs) l
    omega
  obtain ⟨t, hrun, hseq, hhead, hkeeps⟩ := purgeExpired_run h.keeps hend
  have hold := List.takeWhile_lt_eq_filter (c := env.now - s.getRetentionSecs) h.ordered
  have hkept := List.dropWhile_lt_eq_filter (c := env.now - s.getRetentionSecs) h.ordered
  rw [← drop_expired] at hkept
  refine ⟨t, ?_, hseq, fun n => ?_⟩
  · rw [h.keeps.live_eq, ← hold]
    exact hrun
  have hplaces := hkeeps.holds
  rw [hhead] at hplaces
  rw [LogStore.getEntry, LogStore.getEntry]
  by_cases hn : s.getHead + expired (env.now - s.getRetentionSecs) l ≤ n
  · -- behind the cut nothing is old, and nothing changes
    have hafter := hplaces n
    rw [if_pos hn] at hafter
    rw [hplaces.of_drop hn, h.keeps.holds n, if_pos (by omega)]
    cases he : l[n - s.getHead]? with
    | none => rfl
    | some e =>
        have hmem : e ∈ l.drop (expired (env.now - s.getRetentionSecs) l) := by
          rw [hplaces.of_drop hn, he] at hafter
          exact List.mem_of_getElem? hafter.symm
        rw [hkept] at hmem
        rw [Option.filter_some, if_pos (List.mem_filter.1 hmem).2]
  · rw [hplaces n, if_neg hn, h.keeps.holds n]
    split_ifs with hle
    · cases he : l[n - s.getHead]? with
      | none => rfl
      | some e =>
          have hlt : e.timestamp < env.now - s.getRetentionSecs := timestamp_lt_of_lt_expired he (by omega)
          rw [Option.filter_some, if_neg (by simpa only [decide_eq_true_eq, not_le] using hlt)]
    · rfl

theorem Window.readsRange (h : Window l now s) (hroom : s.getSeq < u64Max) : ReadsRange s := by
  intro fromTs toTs maxResults henough
  rw [h.keeps.live_eq] at henough ⊢
  have htail := h.keeps.tail
  have hlen : s.getSeq + 1 - s.getHead = l.length := by omega
  rw [entriesInRange, bind_run (get_ok.2 ⟨rfl, rfl⟩)]
  dsimp only [LogStore.getLiveRange]
  refine ofResult_ok.2 ⟨?_, rfl⟩
  rw [hlen]
  exact scanRange_run (fun i _ => h.keeps.holds.at i) (by omega) (by simpa using henough)

end Law

/-- The storage after any calls in the order of time is a window of the log. Until the last number
there is has been given, an append adds exactly the next entry, a purge removes exactly the old
ones, and a read returns exactly those of its range. -/
theorem compliance_log_law {calls : List (Env × LogCall)}
    (hordered : calls.Pairwise fun c d => c.1.now ≤ d.1.now) :
    GapFree (after calls) ∧
      ((after calls).getSeq < u64Max →
        AppendsNext (after calls) ∧ PurgesExpired (after calls) ∧ ReadsRange (after calls)) := by
  have huntil : ∀ c ∈ calls, c.1.now ≤ (calls.map fun c => c.1.now).sum := by
    intro c hc
    exact List.single_le_sum (fun n _ => Nat.zero_le n) _ (List.mem_map_of_mem hc)
  obtain ⟨l, h⟩ := window_after hordered huntil
  exact ⟨h.gapFree, fun hroom => ⟨h.appendsNext hroom, h.purgesExpired hroom, h.readsRange hroom⟩⟩

def sampleRecord : Record := ⟨.payment, 1, 20, 1, none, ""⟩

def sampleCalls : List (Env × LogCall) :=
  [(sampleEnv 10 0, .append sampleRecord), (sampleEnv 20 0, .setRetentionSecs 5),
    (sampleEnv 20 0, .purgeExpired), (sampleEnv 30 0, .append sampleRecord)]

/-- The first entry is purged, and the next one stands alone under its number. -/
theorem compliance_log_sample :
    (after sampleCalls).getLiveRange = (2, 2) ∧
      GapFree (after sampleCalls) ∧
      ((after sampleCalls).getSeq < u64Max →
        AppendsNext (after sampleCalls) ∧ PurgesExpired (after sampleCalls) ∧ ReadsRange (after sampleCalls)) :=
  ⟨by decide +kernel, compliance_log_law (by decide)⟩

/-! ### The last number there is -/

theorem ordered_replicate (c : Env) (r : Record) (n : ℕ) :
    (List.replicate n (c, LogCall.append r)).Pairwise fun c d => c.1.now ≤ d.1.now :=
  List.pairwise_replicate.2 (.inr le_rfl)

theorem window_replicate (c : Env) (r : Record) (n : ℕ) :
    ∃ l, Window l c.now (after (List.replicate n (c, .append r))) :=
  window_after (ordered_replicate c r n) fun d hd => by rw [List.eq_of_mem_replicate hd]

theorem seq_replicate (c : Env) (r : Record) {n : ℕ} (hn : n ≤ u64Max) :
    (after (List.replicate n (c, .append r))).getSeq = n := by
  induction n with
  | zero => rfl
  | succ n ih =>
      have hbefore := ih (Nat.le_of_succ_le hn)
      obtain ⟨l, h⟩ := window_replicate c r n
      obtain ⟨t, hrun, hseq, -⟩ := append_spec c r (by omega) h.few h.keeps
      have hstep : logStep (c, .append r) (after (List.replicate n (c, .append r))) = .ok ((), t) :=
        ignore_ok.2 ⟨_, hrun⟩
      rw [after, List.replicate_succ', runAll_snoc, commit_ok hstep, hseq, hbefore]

/-- With every number given, a read of everything traps. -/
theorem compliance_log_law_fails :
    (List.replicate u64Max (sampleEnv 10 0, LogCall.append sampleRecord)).Pairwise
        (fun c d => c.1.now ≤ d.1.now) ∧
      ¬ReadsRange (after (List.replicate u64Max (sampleEnv 10 0, .append sampleRecord))) := by
  have hseq := seq_replicate (sampleEnv 10 0) sampleRecord (le_refl u64Max)
  obtain ⟨l, h⟩ := window_replicate (sampleEnv 10 0) sampleRecord u64Max
  generalize after (List.replicate u64Max (sampleEnv 10 0, LogCall.append sampleRecord)) = s at hseq h ⊢
  refine ⟨ordered_replicate _ _ _, fun hreads => ?_⟩
  have htail := h.keeps.tail
  have hhead := h.head_le
  have hfew : l.length < u32Max := Nat.lt_of_le_of_lt h.few (by decide)
  have henough : (s.live.filter fun e => decide (0 ≤ e.timestamp ∧ e.timestamp ≤ 0)).length ≤ u32Max := by
    rw [h.keeps.live_eq]
    exact (List.length_filter_le _ _).trans hfew.le
  have hread := hreads 0 0 u32Max henough
  rw [entriesInRange, bind_run (get_ok.2 ⟨rfl, rfl⟩)] at hread
  dsimp only [LogStore.getLiveRange] at hread
  obtain ⟨hscan, -⟩ := ofResult_ok.1 hread
  have htrap : scanRange s 0 0 u32Max (s.getSeq - s.getHead + 1) s.getHead [] = .error .overflow := by
    apply scanRange_trap (by omega)
    rw [List.length_nil]
    omega
  rw [show s.getSeq + 1 - s.getHead = s.getSeq - s.getHead + 1 by omega, htrap] at hscan
  cases hscan

end StellarSplit.Split.AuditLog
