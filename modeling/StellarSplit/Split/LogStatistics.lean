import StellarSplit.Split.AuditLog

/-!
# The statistics of the compliance log

An entry leaves the log when it is evicted by an append to a full log or swept by a
purge. The statistics count what was appended, in all and of each kind, and what the
sweeps removed. What is kept here beside the log is the list of the entries that left it.
-/

namespace StellarSplit.Split.AuditLog

open Exec Function Machine Numbered Trim

/-! ## What leaves the log -/

def LogStore.countByKind (s : LogStore) (kind : LogEventKind) : ℕ :=
  (s.getStats.countsByKind kind.disc).getD 0

/-- An append that finds the log full. -/
def Evicts (s : LogStore) : LogCall → Prop
  | .append _ => maxLogEntries ≤ s.live.length
  | _ => False

instance (s : LogStore) (call : LogCall) : Decidable (Evicts s call) := by
  unfold Evicts
  split <;> infer_instance

/-- A purge that finds the oldest entry expired. -/
def Sweeps (s : LogStore) (c : Env × LogCall) : Prop :=
  c.2 = .purgeExpired ∧ 0 < expired (c.1.now - s.getRetentionSecs) s.live

/-- How many entries the appends of a run evict. -/
def evictions : LogStore → List (Env × LogCall) → ℕ
  | _, [] => 0
  | s, c :: calls =>
      match logStep c s with
      | .ok (_, t) => (if Evicts s c.2 then 1 else 0) + evictions t calls
      | .error _ => evictions s calls

theorem evictions_cons_ok {s t : LogStore} {c : Env × LogCall} {u : Unit} {calls : List (Env × LogCall)}
    (h : logStep c s = .ok (u, t)) :
    evictions s (c :: calls) = (if Evicts s c.2 then 1 else 0) + evictions t calls := by
  rw [evictions, h]

theorem evictions_cons_error {s : LogStore} {c : Env × LogCall} {e : SplitFault} {calls : List (Env × LogCall)}
    (h : logStep c s = .error e) : evictions s (c :: calls) = evictions s calls := by
  rw [evictions, h]

theorem disc_injective : Injective LogEventKind.disc := by
  intro a b h
  cases a <;> cases b <;> first | rfl | exact absurd h (by decide)

/-! ## The statistics against the log -/

/-- The storage with the entries that left it, `n` of them evicted. -/
structure Recorded (gone l : List ComplianceLogEntry) (n : ℕ) (s : LogStore) : Prop where
  keeps : Keeps l s
  few : l.length ≤ maxLogEntries
  head_eq : s.getHead = gone.length + 1
  head_le : s.getHead ≤ u64Max
  kinds : ∀ kind, s.countByKind kind = (gone ++ l).countP fun e => e.kind = kind
  left : gone.length = s.getStats.totalPurged + n

variable {s t : LogStore} {l gone : List ComplianceLogEntry} {env : Env} {r : Record} {n : ℕ}

theorem recorded_empty : Recorded [] [] 0 {} :=
  ⟨keeps_empty, Nat.zero_le _, rfl, by decide, fun _ => rfl, rfl⟩

theorem countByKind_written (kind : LogEventKind) :
    (s.written env r).countByKind kind = s.countByKind kind + if r.kind = kind then 1 else 0 := by
  change (update s.getStats.countsByKind r.kind.disc _ kind.disc).getD 0 = _
  by_cases h : r.kind = kind
  · subst h
    rw [update_self, if_pos rfl]
    rfl
  · rw [update_of_ne fun hdisc => h (disc_injective hdisc.symm), if_neg h]
    rfl

theorem countP_kind_concat (l : List ComplianceLogEntry) (seq : ℕ) (kind : LogEventKind) :
    (l ++ [r.entry env seq]).countP (fun e => e.kind = kind) =
      l.countP (fun e => e.kind = kind) + if r.kind = kind then 1 else 0 := by
  have hkind : (r.entry env seq).kind = r.kind := rfl
  rw [List.countP_append, List.countP_singleton, hkind]
  simp only [decide_eq_true_eq]

/-- An append to a log with room. -/
theorem Recorded.written (h : Recorded gone l n s) (hroom : l.length < maxLogEntries) :
    Recorded gone (l ++ [r.entry env (s.getSeq + 1)]) n (s.written env r) where
  keeps := h.keeps.written
  few := by
    rw [List.length_append, List.length_singleton]
    exact hroom
  head_eq := h.head_eq
  head_le := h.head_le
  kinds := by
    intro kind
    rw [countByKind_written, h.kinds, ← List.append_assoc, countP_kind_concat]
  left := h.left

/-- An append to a full log. -/
theorem Recorded.evicted {a : ComplianceLogEntry} (h : Recorded gone (a :: l) n s)
    (hfull : (a :: l).length = maxLogEntries) (hseq : s.getSeq < u64Max) :
    Recorded (gone ++ [a]) (l ++ [r.entry env (s.getSeq + 1)]) (n + 1) (s.written env r).evicted where
  keeps := Keeps.evicted (a := a) h.keeps.written
  few := by
    rw [List.length_append, List.length_singleton]
    exact hfull.le
  head_eq := by
    change s.getHead + 1 = (gone ++ [a]).length + 1
    rw [h.head_eq, List.length_append, List.length_singleton]
  head_le := by
    have htail := h.keeps.tail
    rw [hfull] at htail
    unfold maxLogEntries at htail
    change s.getHead + 1 ≤ u64Max
    omega
  kinds := by
    intro kind
    have hsame : (s.written env r).evicted.countByKind kind = (s.written env r).countByKind kind := rfl
    rw [hsame, countByKind_written, h.kinds, ← List.append_assoc, countP_kind_concat, List.append_assoc,
      List.singleton_append]
  left := by
    rw [List.length_append, h.left]
    rfl

theorem append_recorded {seq : ℕ} (h : Recorded gone l n s) (hrun : append env r s = .ok (seq, t)) :
    ∃ gone' l', Recorded (gone ++ gone') l' (n + if Evicts s (.append r) then 1 else 0) t ∧
      (¬Evicts s (.append r) → gone' = []) := by
  have hroom := append_seq_lt hrun
  rw [append_run hroom h.keeps] at hrun
  cases hrun
  have hevicts : Evicts s (.append r) ↔ maxLogEntries ≤ l.length := by
    rw [← h.keeps.live_eq]
    rfl
  by_cases hfull : maxLogEntries ≤ l.length
  · rw [if_neg (Nat.not_le.2 (Nat.lt_succ_of_le hfull)), if_pos (hevicts.2 hfull)]
    cases l with
    | nil => exact absurd hfull (by decide)
    | cons a l => exact ⟨[a], _, h.evicted (h.few.antisymm hfull) hroom, fun hnot => absurd (hevicts.2 hfull) hnot⟩
  · rw [if_pos (Nat.succ_le_of_lt (Nat.lt_of_not_le hfull)), if_neg (mt hevicts.1 hfull)]
    refine ⟨[], l ++ [r.entry env (s.getSeq + 1)], ?_, fun _ => rfl⟩
    rw [List.append_nil]
    exact h.written (Nat.lt_of_not_le hfull)

theorem purgeRounds_stats {cutoffTs rounds seq purged newHead : ℕ} {p : ℕ × ℕ}
    (hrun : purgeRounds cutoffTs rounds seq purged newHead s = .ok (p, t)) :
    t.stats = s.stats ∧ t.retentionSecs = s.retentionSecs := by
  induction rounds generalizing s seq purged newHead with
  | zero =>
      obtain ⟨-, rfl⟩ := pure_ok.1 hrun
      exact ⟨rfl, rfl⟩
  | succ rounds ih =>
      rw [purgeRounds, get_bind] at hrun
      cases hentry : s.getEntry seq with
      | none =>
          rw [hentry] at hrun
          obtain ⟨-, rfl⟩ := pure_ok.1 hrun
          exact ⟨rfl, rfl⟩
      | some entry =>
        rw [hentry] at hrun
        dsimp only at hrun
        split_ifs at hrun
        · obtain ⟨_, u, hset, hrest⟩ := bind_ok.1 hrun
          have hu := modify_ok.1 hset
          subst hu
          rw [require_bind] at hrest
          have hlast := hrest.2
          rw [require_bind] at hlast
          have hkept := ih hlast.2
          exact hkept
        · obtain ⟨-, rfl⟩ := pure_ok.1 hrun
          exact ⟨rfl, rfl⟩

/-- A purge counts what it removes, and nothing else. -/
theorem purgeExpired_stats {purged : ℕ} (hrun : purgeExpired env s = .ok (purged, t)) :
    t.getStats = { s.getStats with totalPurged := s.getStats.totalPurged + purged } := by
  rw [purgeExpired, get_bind] at hrun
  obtain ⟨⟨k, newHead⟩, u, hrounds, hrun⟩ := bind_ok.1 hrun
  obtain ⟨_, v, hcount, hlast⟩ := bind_ok.1 hrun
  obtain ⟨rfl, rfl⟩ := pure_ok.1 hlast
  have hstats : u.getStats = s.getStats := by
    rw [LogStore.getStats, LogStore.getStats, (purgeRounds_stats hrounds).1]
  obtain ⟨-, hcount⟩ | ⟨hzero, rfl⟩ := onlyIf_ok.1 hcount
  · obtain ⟨_, w, hset, hcount⟩ := bind_ok.1 hcount
    have hw := modify_ok.1 hset
    subst hw
    rw [get_bind, require_bind] at hcount
    rw [← modify_ok.1 hcount.2, ← hstats]
    rfl
  · rw [hstats, Nat.eq_zero_of_not_pos hzero, Nat.add_zero]

theorem purge_recorded {purged : ℕ} (h : Recorded gone l n s) (hrun : purgeExpired env s = .ok (purged, t)) :
    Recorded (gone ++ l.take (expired (env.now - s.getRetentionSecs) l))
      (l.drop (expired (env.now - s.getRetentionSecs) l)) n t := by
  have hend := purgeExpired_ok h.keeps h.head_le hrun
  have hle := expired_le (env.now - s.getRetentionSecs) l
  have hstats := purgeExpired_stats hrun
  obtain ⟨t', hrun', -, hhead, hkeeps⟩ := purgeExpired_run h.keeps hend
  rw [hrun'] at hrun
  cases hrun
  refine ⟨hkeeps, ?_, ?_, hhead ▸ hend, fun kind => ?_, ?_⟩
  · rw [List.length_drop]
    exact (Nat.sub_le _ _).trans h.few
  · rw [hhead, h.head_eq, List.length_append, List.length_take_of_le hle]
    omega
  · rw [List.append_assoc, List.take_append_drop, ← h.kinds, LogStore.countByKind, hstats]
    rfl
  · rw [hstats, List.length_append, List.length_take_of_le hle, h.left]
    exact Nat.add_right_comm _ _ _

theorem Recorded.step {c : Env × LogCall} {u : Unit} (h : Recorded gone l n s) (hrun : logStep c s = .ok (u, t)) :
    ∃ gone' l', Recorded (gone ++ gone') l' (n + if Evicts s c.2 then 1 else 0) t ∧
      (¬Evicts s c.2 ∧ ¬Sweeps s c → gone' = []) := by
  obtain ⟨env, call⟩ := c
  cases call with
  | append r =>
      obtain ⟨seq, hrun⟩ := ignore_ok.1 hrun
      obtain ⟨gone', l', hnext, hnone⟩ := append_recorded h hrun
      exact ⟨gone', l', hnext, fun hnot => hnone hnot.1⟩
  | purgeExpired =>
      obtain ⟨purged, hrun⟩ := ignore_ok.1 hrun
      refine ⟨_, _, purge_recorded h hrun, fun hnot => ?_⟩
      have hzero : ¬0 < expired (env.now - s.getRetentionSecs) l := by
        have hsweep := hnot.2
        rw [Sweeps, h.keeps.live_eq] at hsweep
        exact fun hpos => hsweep ⟨rfl, hpos⟩
      rw [Nat.eq_zero_of_not_pos hzero, List.take_zero]
  | setRetentionSecs secs =>
      change setRetentionSecs secs s = .ok (u, t) at hrun
      rw [setRetentionSecs, require_bind] at hrun
      rw [← modify_ok.1 hrun.2]
      refine ⟨[], l, ?_, fun _ => rfl⟩
      rw [List.append_nil]
      exact ⟨⟨h.keeps.holds, h.keeps.tail, h.keeps.numbered, h.keeps.appended, h.keeps.counted,
        h.keeps.purged⟩, h.few, h.head_eq, h.head_le, h.kinds, h.left⟩

theorem Recorded.run (h : Recorded gone l n s) (calls : List (Env × LogCall)) :
    ∃ gone' l', Recorded (gone ++ gone') l' (n + evictions s calls) (runAll logStep s calls) ∧
      (Along (fun s c => ¬Evicts s c.2 ∧ ¬Sweeps s c) logStep s calls → gone' = []) := by
  induction calls generalizing gone l n s with
  | nil => exact ⟨[], l, by rwa [List.append_nil], fun _ => rfl⟩
  | cons c calls ih =>
      rw [runAll_cons]
      rcases hstep : logStep c s with e | ⟨u, t⟩
      · obtain ⟨gone', l', hrest, hnone⟩ := ih h
        rw [commit_error hstep, evictions_cons_error hstep]
        refine ⟨gone', l', hrest, fun hall => hnone ?_⟩
        rw [← commit_error hstep]
        exact hall.2
      · obtain ⟨gone₁, l₁, hfirst, hnone₁⟩ := h.step hstep
        obtain ⟨gone₂, l₂, hrest, hnone₂⟩ := ih hfirst
        rw [commit_ok hstep, evictions_cons_ok hstep, ← Nat.add_assoc]
        refine ⟨gone₁ ++ gone₂, l₂, by rwa [← List.append_assoc], fun hall => ?_⟩
        have htail := hall.2
        rw [commit_ok hstep] at htail
        rw [hnone₁ (hall.1 ⟨_, hstep⟩), hnone₂ htail, List.append_nil]

/-- What was appended is what is live, what was swept and what was evicted. As long as nothing left
the log, the counts of the kinds are those of the live entries. -/
theorem log_statistics_law (calls : List (Env × LogCall)) :
    (after calls).getStats.totalAppended =
        (after calls).live.length + (after calls).getStats.totalPurged + evictions {} calls ∧
      (Along (fun s c => ¬Evicts s c.2 ∧ ¬Sweeps s c) logStep {} calls → ∀ kind,
        (after calls).countByKind kind = (after calls).live.countP fun e => e.kind = kind) := by
  obtain ⟨gone, l, h, hnone⟩ := recorded_empty.run calls
  rw [List.nil_append, Nat.zero_add] at h
  change Recorded gone l (evictions {} calls) (after calls) at h
  rw [h.keeps.live_eq]
  refine ⟨?_, fun hall kind => ?_⟩
  · have htail := h.keeps.tail
    have hhead := h.head_eq
    have hleft := h.left
    have happended := h.keeps.appended
    omega
  · rw [h.kinds, hnone hall, List.nil_append]

def keptCalls : List (Env × LogCall) :=
  [(sampleEnv 10 0, .append sampleRecord), (sampleEnv 20 0, .setRetentionSecs 15), (sampleEnv 20 0, .purgeExpired)]

/-- One entry, which a purge leaves. -/
theorem log_statistics_sample :
    (after keptCalls).getStats.totalAppended =
        (after keptCalls).live.length + (after keptCalls).getStats.totalPurged + evictions {} keptCalls ∧
      ∀ kind, (after keptCalls).countByKind kind = (after keptCalls).live.countP fun e => e.kind = kind := by
  have hkeeps : Along (fun s c => ¬Evicts s c.2 ∧ ¬Sweeps s c) logStep {} keptCalls := by
    refine ⟨fun _ => ⟨by decide +kernel, nofun⟩, fun _ => ⟨nofun, nofun⟩, fun _ => ⟨nofun, fun h => ?_⟩, trivial⟩
    exact absurd h.2 (by decide +kernel)
  exact ⟨(log_statistics_law keptCalls).1, (log_statistics_law keptCalls).2 hkeeps⟩

/-! ### A log that is full -/

theorem purged_replicate (c : Env) (r : Record) (n : ℕ) :
    (after (List.replicate n (c, .append r))).getStats.totalPurged = 0 := by
  induction n with
  | zero => rfl
  | succ n ih =>
      rw [after, List.replicate_succ', runAll_snoc]
      rcases hstep : logStep (c, .append r) (runAll logStep {} (List.replicate n (c, .append r))) with e | ⟨u, t⟩
      · rw [commit_error hstep]
        exact ih
      · obtain ⟨seq, hrun⟩ := ignore_ok.1 hstep
        have hroom := append_seq_lt hrun
        obtain ⟨l, h⟩ := window_replicate c r n
        rw [append_run hroom h.keeps] at hrun
        have ht := congrArg Prod.snd (Except.ok.inj hrun)
        dsimp only at ht
        rw [commit_ok hstep, ← ht]
        split_ifs <;> exact ih

/-- Of 501 entries appended, 500 are live and none was swept. -/
theorem log_statistics_evicted :
    (after (List.replicate 501 (sampleEnv 10 0, .append sampleRecord))).getStats.totalAppended -
        (after (List.replicate 501 (sampleEnv 10 0, .append sampleRecord))).getStats.totalPurged ≠
      (after (List.replicate 501 (sampleEnv 10 0, .append sampleRecord))).live.length := by
  have hseq := seq_replicate (sampleEnv 10 0) sampleRecord (show 501 ≤ u64Max by decide)
  obtain ⟨l, h⟩ := window_replicate (sampleEnv 10 0) sampleRecord 501
  have hfew : l.length ≤ 500 := h.few
  rw [purged_replicate, h.keeps.live_eq, h.keeps.appended, hseq]
  omega

end StellarSplit.Split.AuditLog
