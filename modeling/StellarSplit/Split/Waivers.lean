import StellarSplit.Lib.Runs
import StellarSplit.Lib.Trim
import StellarSplit.Split.Multisig

/-!
# Fee waivers

The creators without a fee are a list, and a record for each of them says when the
waiver lapses. Creators that were listed before there were records have none, and
their waiver never lapses. Each grant first drops the lapsed waivers, to make room.
What the two entries mean together is a registry: the time until which a creator is
waived, as the last grant has it.
-/

namespace StellarSplit.Split.Waivers

open Exec Function Multisig Trim

/-! ## The contract -/

structure FeeWaiver where
  creator : Address
  grantedBy : Address
  grantedAt : ℕ
  expiresAt : ℕ
  reason : String
deriving DecidableEq, Repr

inductive FeeWaiverAction where
  | granted | extended | revoked | expired
deriving DecidableEq, Repr

structure FeeWaiverAuditEntry where
  action : FeeWaiverAction
  creator : Address
  actor : Address
  timestamp : ℕ
  ledger : ℕ
  expiresAt : ℕ
deriving DecidableEq, Repr

structure WaiverStore where
  waivers : List Address := []
  record : Address → Option FeeWaiver := fun _ => none
  audit : List FeeWaiverAuditEntry := []

abbrev WaiverM (α : Type) := Call WaiverStore SplitFault α

def maxFeeWaiverEntries : ℕ := 100

def maxFeeWaiverAuditEntries : ℕ := 200

def feeWaiverIsExpired (now : ℕ) (waiver : FeeWaiver) : Bool :=
  waiver.expiresAt ≠ 0 ∧ waiver.expiresAt ≤ now

namespace WaiverStore

def creatorHasActiveFeeWaiver (now : ℕ) (s : WaiverStore) (creator : Address) : Bool :=
  if creator ∉ s.waivers then false
  else
    match s.record creator with
    | some waiver => !feeWaiverIsExpired now waiver
    | none => true

def recordFeeWaiverAudit (env : AdminEnv) (action : FeeWaiverAction) (creator actor : Address)
    (expiresAt : ℕ) (s : WaiverStore) : WaiverStore :=
  { s with
    audit := popFront maxFeeWaiverAuditEntries (s.audit ++
      [{ action := action, creator := creator, actor := actor, timestamp := env.now,
         ledger := env.sequence, expiresAt := expiresAt }]) }

/-- One round of the purge, with the creators kept and the number removed so far. -/
def purgeOne (env : AdminEnv) (actor : Address) (p : WaiverStore × List Address × ℕ)
    (creator : Address) : WaiverStore × List Address × ℕ :=
  match p.1.record creator with
  | some waiver =>
      if feeWaiverIsExpired env.now waiver then
        (recordFeeWaiverAudit env .expired creator actor waiver.expiresAt
          { p.1 with record := update p.1.record creator none }, p.2.1, p.2.2 + 1)
      else (p.1, p.2.1 ++ [creator], p.2.2)
  | none => (p.1, p.2.1 ++ [creator], p.2.2)

def purgeExpiredFeeWaiversInternal (env : AdminEnv) (actor : Address) (s : WaiverStore) :
    WaiverStore × ℕ :=
  let (t, kept, removed) := s.waivers.foldl (purgeOne env actor) (s, [], 0)
  (if 0 < removed then { t with waivers := kept } else t, removed)

end WaiverStore

def grantFeeWaiverInternal (env : AdminEnv) (admin creator : Address) (expiresAt : ℕ)
    (reason : String) : WaiverM Unit := do
  require (expiresAt = 0 ∨ env.now < expiresAt) (.panic "waiver expiry must be in the future")
  modify fun s => (s.purgeExpiredFeeWaiversInternal env admin).1
  let s ← get
  onlyIf (creator ∉ s.waivers) do
    require (s.waivers.length < maxFeeWaiverEntries) (.panic "fee waiver list full")
    modify fun s => { s with waivers := s.waivers ++ [creator] }
  modify fun s => { s with
    record := update s.record creator (some
      { creator := creator, grantedBy := admin, grantedAt := env.now, expiresAt := expiresAt,
        reason := reason }) }
  modify (WaiverStore.recordFeeWaiverAudit env .granted creator admin expiresAt)

def addFeeWaiver (env : AdminEnv) (admin creator : Address) : WaiverM Unit := do
  requireAdminRole env admin .superAdmin
  let s ← get
  if s.creatorHasActiveFeeWaiver env.now creator then pure ()
  else grantFeeWaiverInternal env admin creator 0 ""

def grantFeeWaiver (env : AdminEnv) (admin creator : Address) (expiresAt : ℕ) (reason : String) :
    WaiverM Unit := do
  requireAdminRole env admin .superAdmin
  grantFeeWaiverInternal env admin creator expiresAt reason

def extendFeeWaiver (env : AdminEnv) (admin creator : Address) (expiresAt : ℕ) : WaiverM Unit := do
  requireAdminRole env admin .superAdmin
  let s ← get
  require (s.creatorHasActiveFeeWaiver env.now creator = true) (.panic "no active fee waiver")
  require (expiresAt = 0 ∨ env.now < expiresAt) (.panic "waiver expiry must be in the future")
  let waiver := (s.record creator).getD
    { creator := creator, grantedBy := admin, grantedAt := env.now, expiresAt := 0, reason := "" }
  modify fun s => { s with
    record := update s.record creator (some { waiver with expiresAt := expiresAt }) }
  modify (WaiverStore.recordFeeWaiverAudit env .extended creator admin expiresAt)

def removeFeeWaiver (env : AdminEnv) (admin creator : Address) : WaiverM Unit := do
  requireAdminRole env admin .superAdmin
  let s ← get
  let expiresAt := ((s.record creator).map (·.expiresAt)).getD 0
  modify fun s => { s with
    waivers := s.waivers.filter (· ≠ creator)
    record := update s.record creator none }
  modify (WaiverStore.recordFeeWaiverAudit env .revoked creator admin expiresAt)

def purgeExpiredFeeWaivers (env : AdminEnv) (caller : Address) : WaiverM ℕ := do
  requireAuth env.toLedger caller
  let s ← get
  let (t, removed) := s.purgeExpiredFeeWaiversInternal env caller
  set t
  pure removed

/-- The view: the creator is waived. -/
def hasFeeWaiver (now : ℕ) (s : WaiverStore) (creator : Address) : Bool :=
  s.creatorHasActiveFeeWaiver now creator

/-! ## Runs -/

inductive WaiverCall where
  | add (admin creator : Address)
  | grant (admin creator : Address) (expiresAt : ℕ) (reason : String)
  | extend (admin creator : Address) (expiresAt : ℕ)
  | remove (admin creator : Address)
  | purge (caller : Address)
deriving DecidableEq

def waiverStep (c : AdminEnv × WaiverCall) : WaiverM Unit :=
  match c.2 with
  | .add admin creator => addFeeWaiver c.1 admin creator
  | .grant admin creator expiresAt reason => grantFeeWaiver c.1 admin creator expiresAt reason
  | .extend admin creator expiresAt => extendFeeWaiver c.1 admin creator expiresAt
  | .remove admin creator => removeFeeWaiver c.1 admin creator
  | .purge caller => ignore (purgeExpiredFeeWaivers c.1 caller)

/-! ## The registry -/

/-- Until when a creator is waived by the last grant; zero is for ever. -/
abbrev Registry := Address → Option ℕ

namespace Registry

def Active (r : Registry) (now : ℕ) (creator : Address) : Prop :=
  ∃ expiresAt, r creator = some expiresAt ∧ (expiresAt = 0 ∨ now < expiresAt)

instance (r : Registry) (now : ℕ) (creator : Address) : Decidable (r.Active now creator) :=
  decidable_of_iff ((r creator).any fun e => e = 0 ∨ now < e) (by
    unfold Active
    cases r creator <;> simp)

/-- A call replaces what was said about its creator. Adding a creator that is waived changes
nothing. -/
def apply (c : AdminEnv × WaiverCall) (r : Registry) : Registry :=
  match c.2 with
  | .add _ creator => if r.Active c.1.now creator then r else update r creator (some 0)
  | .grant _ creator expiresAt _ => update r creator (some expiresAt)
  | .extend _ creator expiresAt => update r creator (some expiresAt)
  | .remove _ creator => update r creator none
  | .purge _ => r

/-- The creators that were listed before there were records. -/
def listed (waivers : List Address) : Registry :=
  fun creator => if creator ∈ waivers then some 0 else none

end Registry

/-- The storage and the registry after a run; a call that traps changes neither. -/
def after (next : AdminEnv × WaiverCall → Registry → Registry) (s : WaiverStore)
    (calls : List (AdminEnv × WaiverCall)) : WaiverStore × Registry :=
  runAll (fun c => beside (fun r _ _ => next c r) (waiverStep c)) (s, Registry.listed s.waivers) calls

/-- A list from before there were records. -/
structure Legacy (s : WaiverStore) : Prop where
  nodup : s.waivers.Nodup
  length : s.waivers.length ≤ maxFeeWaiverEntries
  unrecorded : ∀ creator, s.record creator = none

/-- The calls come in the order of their times. -/
def Ordered (calls : List (AdminEnv × WaiverCall)) : Prop := calls.Pairwise fun c d => c.1.now ≤ d.1.now

/-- The list is short and without duplicates; the creators that are waived at a time that no call
comes after are the active ones of the registry; and a purge changes no waiver from its time on. -/
structure WaiverLaw (next : AdminEnv × WaiverCall → Registry → Registry) (s : WaiverStore)
    (calls : List (AdminEnv × WaiverCall)) : Prop where
  nodup : (after next s calls).1.waivers.Nodup
  length : (after next s calls).1.waivers.length ≤ maxFeeWaiverEntries
  waived : ∀ now creator, (∀ c ∈ calls, c.1.now ≤ now) →
    (hasFeeWaiver now (after next s calls).1 creator = true ↔
      (after next s calls).2.Active now creator)
  purged : ∀ env caller removed t, purgeExpiredFeeWaivers env caller (after next s calls).1 = .ok (removed, t) →
    ∀ now creator, env.now ≤ now →
      hasFeeWaiver now t creator = hasFeeWaiver now (after next s calls).1 creator

/-! ## Purging -/

variable {env : AdminEnv} {s t : WaiverStore} {v : Unit} {admin creator : Address} {now expiresAt : ℕ}
  {reason : String} {r : Registry} {c : AdminEnv × WaiverCall} {calls : List (AdminEnv × WaiverCall)}

/-- The creator has a record, and it has expired. -/
def lapsed (now : ℕ) (s : WaiverStore) (creator : Address) : Bool :=
  (s.record creator).any (feeWaiverIsExpired now)

theorem hasFeeWaiver_iff :
    hasFeeWaiver now s creator = true ↔ creator ∈ s.waivers ∧ lapsed now s creator = false := by
  unfold hasFeeWaiver WaiverStore.creatorHasActiveFeeWaiver lapsed
  by_cases hmem : creator ∈ s.waivers
  · cases s.record creator <;> simp [hmem]
  · simp [hmem]

/-- A waiver that is not active now is not active later. -/
theorem lapsed_mono {later : ℕ} (hle : now ≤ later) (h : lapsed later s creator = false) :
    lapsed now s creator = false := by
  unfold lapsed at h ⊢
  cases hrecord : s.record creator with
  | none => rfl
  | some waiver =>
      rw [hrecord] at h
      simp only [Option.any_some, feeWaiverIsExpired, decide_eq_false_iff_not, not_and, not_le] at h ⊢
      exact fun hexpires => hle.trans_lt (h hexpires)

theorem lapsed_congr (h : t.record creator = s.record creator) :
    lapsed now t creator = lapsed now s creator := by
  unfold lapsed
  rw [h]

/-- A round of the purge drops a creator whose waiver has lapsed and keeps the others. -/
theorem purgeOne_cases (env : AdminEnv) (actor : Address) (p : WaiverStore × List Address × ℕ) (creator : Address) :
    (lapsed env.now p.1 creator = true ∧ ∃ u, WaiverStore.purgeOne env actor p creator = (u, p.2.1, p.2.2 + 1) ∧
      u.waivers = p.1.waivers ∧ u.record = update p.1.record creator none) ∨
    (lapsed env.now p.1 creator = false ∧
      WaiverStore.purgeOne env actor p creator = (p.1, p.2.1 ++ [creator], p.2.2)) := by
  unfold WaiverStore.purgeOne lapsed
  cases p.1.record creator with
  | none => exact .inr ⟨rfl, rfl⟩
  | some waiver =>
      dsimp only [Option.any_some]
      split_ifs with hexpired
      · exact .inl ⟨hexpired, _, rfl, rfl, rfl⟩
      · exact .inr ⟨Bool.not_eq_true _ ▸ hexpired, rfl⟩

/-- The purge of a list without duplicates: the lapsed creators lose their record, the others are
kept. -/
theorem purge_fold (env : AdminEnv) (actor : Address) {l : List Address} (hl : l.Nodup)
    (p q : WaiverStore × List Address × ℕ) (hq : l.foldl (WaiverStore.purgeOne env actor) p = q) :
    q.1.waivers = p.1.waivers ∧
      (∀ a, q.1.record a = if a ∈ l ∧ lapsed env.now p.1 a = true then none else p.1.record a) ∧
      q.2.1 = p.2.1 ++ l.filter (fun a => !lapsed env.now p.1 a) ∧
      q.2.2 = p.2.2 + (l.filter fun a => lapsed env.now p.1 a).length := by
  induction l generalizing p with
  | nil =>
      obtain rfl : p = q := hq
      simp
  | cons a l ih =>
      obtain ⟨ha, hl⟩ := List.nodup_cons.1 hl
      rw [List.foldl_cons] at hq
      obtain ⟨hlapsed, u, hstep, hwaivers, hrecord⟩ | ⟨hkept, hstep⟩ := purgeOne_cases env actor p a
      · rw [hstep] at hq
        obtain ⟨hw, hr, hkept, hremoved⟩ := ih hl _ hq
        -- the record that was dropped belongs to none of the creators that follow
        have hsame : ∀ b ∈ l, lapsed env.now u b = lapsed env.now p.1 b := by
          intro b hb
          have hba : b ≠ a := fun h => ha (h ▸ hb)
          exact lapsed_congr (by rw [hrecord, update_of_ne hba])
        refine ⟨hw.trans hwaivers, fun b => ?_, ?_, ?_⟩
        · rw [hr b]
          by_cases hba : b = a
          · subst hba
            simp [ha, hlapsed, hrecord]
          · by_cases hb : b ∈ l
            · simp [hb, hsame b hb, hrecord, hba]
            · simp [hb, hba, hrecord]
        · rw [hkept, List.filter_cons_of_neg (by simp [hlapsed])]
          congr 1
          exact List.filter_congr fun b hb => by rw [hsame b hb]
        · rw [hremoved, List.filter_cons_of_pos (by simpa using hlapsed), List.length_cons,
            List.filter_congr fun b hb => hsame b hb]
          ring
      · rw [hstep] at hq
        obtain ⟨hw, hr, hkept', hremoved⟩ := ih hl _ hq
        refine ⟨hw, fun b => ?_, ?_, ?_⟩
        · rw [hr b]
          by_cases hba : b = a
          · subst hba
            simp [ha, hkept]
          · simp [hba]
        · rw [hkept', List.filter_cons_of_pos (by simp [hkept]), List.append_assoc, List.singleton_append]
        · rw [hremoved, List.filter_cons_of_neg (by simp [hkept])]

theorem purge_spec (env : AdminEnv) (hnodup : s.waivers.Nodup) (actor : Address) :
    (s.purgeExpiredFeeWaiversInternal env actor).1.waivers =
        s.waivers.filter (fun a => !lapsed env.now s a) ∧
      ∀ a, (s.purgeExpiredFeeWaiversInternal env actor).1.record a =
        if a ∈ s.waivers ∧ lapsed env.now s a = true then none else s.record a := by
  obtain ⟨hw, hr, hkept, hremoved⟩ := purge_fold env actor hnodup (s, [], 0) _ rfl
  unfold WaiverStore.purgeExpiredFeeWaiversInternal
  dsimp only at hw hr hkept hremoved ⊢
  split_ifs with hpos
  · exact ⟨by simpa using hkept, hr⟩
  · refine ⟨?_, hr⟩
    rw [hw, List.filter_eq_self.2]
    intro a ha
    have hnone : (s.waivers.filter fun a => lapsed env.now s a) = [] := by
      rw [hremoved, zero_add, not_lt, Nat.le_zero] at hpos
      exact List.length_eq_zero_iff.1 hpos
    rw [List.filter_eq_nil_iff] at hnone
    simpa using hnone a ha

/-- A purge changes no waiver from its time on. -/
theorem hasFeeWaiver_purge (hnodup : s.waivers.Nodup) (actor : Address) (hle : env.now ≤ now) :
    hasFeeWaiver now (s.purgeExpiredFeeWaiversInternal env actor).1 creator =
      hasFeeWaiver now s creator := by
  obtain ⟨hw, hr⟩ := purge_spec env hnodup actor
  rw [Bool.eq_iff_iff, hasFeeWaiver_iff, hasFeeWaiver_iff, hw, List.mem_filter]
  cases hlapsed : lapsed env.now s creator with
  | true =>
      have hlater : lapsed now s creator ≠ false := by
        intro h
        rw [lapsed_mono hle h] at hlapsed
        cases hlapsed
      simp [hlater]
  | false =>
      have hsame : lapsed now (s.purgeExpiredFeeWaiversInternal env actor).1 creator =
          lapsed now s creator := lapsed_congr (by rw [hr, if_neg (by simp [hlapsed])])
      simp [hsame]

/-! ## What the calls do -/

/-- The list is short and without duplicates. -/
structure Tidy (s : WaiverStore) : Prop where
  nodup : s.waivers.Nodup
  length : s.waivers.length ≤ maxFeeWaiverEntries

theorem Tidy.purge (h : Tidy s) (env : AdminEnv) (actor : Address) :
    Tidy (s.purgeExpiredFeeWaiversInternal env actor).1 := by
  obtain ⟨hw, -⟩ := purge_spec env h.nodup actor
  refine ⟨?_, ?_⟩
  · rw [hw]
    exact h.nodup.filter _
  · rw [hw]
    exact (List.length_filter_le _ _).trans h.length

/-- A waiver that is written down with this expiry. -/
structure Written (creator : Address) (expiresAt : ℕ) (s t : WaiverStore) : Prop where
  listed : creator ∈ t.waivers
  others : ∀ a, a ≠ creator → (a ∈ t.waivers ↔ a ∈ s.waivers)
  record : ∃ waiver, t.record creator = some waiver ∧ waiver.expiresAt = expiresAt
  records : ∀ a, a ≠ creator → t.record a = s.record a

theorem Written.hasFeeWaiver_self (h : Written creator expiresAt s t) :
    hasFeeWaiver now t creator = true ↔ expiresAt = 0 ∨ now < expiresAt := by
  obtain ⟨waiver, hwaiver, rfl⟩ := h.record
  rw [hasFeeWaiver_iff]
  simp only [h.listed, true_and, lapsed, hwaiver, Option.any_some, feeWaiverIsExpired]
  by_cases hzero : waiver.expiresAt = 0 <;> simp [hzero]

theorem Written.hasFeeWaiver_ne (h : Written creator expiresAt s t) {a : Address} (ha : a ≠ creator) :
    hasFeeWaiver now t a = hasFeeWaiver now s a := by
  rw [Bool.eq_iff_iff, hasFeeWaiver_iff, hasFeeWaiver_iff, h.others a ha, lapsed_congr (h.records a ha)]

/-- The grant: after a purge the creator is listed, if there is room, and gets a record. -/
theorem grantFeeWaiverInternal_ok (hs : Tidy s)
    (hrun : grantFeeWaiverInternal env admin creator expiresAt reason s = .ok (v, t)) :
    Tidy t ∧ Written creator expiresAt (s.purgeExpiredFeeWaiversInternal env admin).1 t := by
  have hpurged := hs.purge env admin
  simp only [grantFeeWaiverInternal, require_bind] at hrun
  obtain ⟨-, hrun⟩ := hrun
  obtain ⟨_, u, hu, hrun⟩ := bind_ok.1 hrun
  obtain rfl := modify_ok.1 hu
  rw [get_bind] at hrun
  obtain ⟨_, w, hw, hrun⟩ := bind_ok.1 hrun
  obtain ⟨_, x, hx, hrun⟩ := bind_ok.1 hrun
  obtain rfl := modify_ok.1 hx
  obtain rfl := modify_ok.1 hrun
  obtain ⟨hnew, hlist⟩ | ⟨hold, rfl⟩ := onlyIf_ok.1 hw
  · obtain ⟨hroom, hlist⟩ := require_bind.1 hlist
    obtain rfl := modify_ok.1 hlist
    refine ⟨⟨?_, ?_⟩, ?_, ?_, ⟨_, update_self .., rfl⟩, fun a ha => update_of_ne ha ..⟩
    · exact List.nodup_append.2 ⟨hpurged.nodup, List.nodup_singleton _, by
        rintro a ha b hb rfl
        exact hnew (List.mem_singleton.1 hb ▸ ha)⟩
    · exact (List.length_append.trans_le (Nat.succ_le_of_lt hroom))
    · exact List.mem_append_right _ (List.mem_singleton_self _)
    · intro a ha
      exact (List.mem_append.trans (or_iff_left fun h => ha (List.mem_singleton.1 h)))
  · refine ⟨⟨hpurged.nodup, hpurged.length⟩, not_not.1 hold, fun _ _ => Iff.rfl, ⟨_, update_self .., rfl⟩,
      fun a ha => update_of_ne ha ..⟩

theorem extendFeeWaiver_ok (hrun : extendFeeWaiver env admin creator expiresAt s = .ok (v, t)) :
    t.waivers = s.waivers ∧ Written creator expiresAt s t := by
  simp only [extendFeeWaiver, requireAdminRole_bind, get_bind, require_bind] at hrun
  obtain ⟨-, hactive, -, hrun⟩ := hrun
  obtain ⟨_, u, hu, hrun⟩ := bind_ok.1 hrun
  obtain rfl := modify_ok.1 hu
  obtain rfl := modify_ok.1 hrun
  refine ⟨rfl, (hasFeeWaiver_iff.1 hactive).1, fun _ _ => Iff.rfl, ⟨_, update_self .., rfl⟩,
    fun a ha => update_of_ne ha ..⟩

theorem removeFeeWaiver_ok (hrun : removeFeeWaiver env admin creator s = .ok (v, t)) :
    t.waivers = s.waivers.filter (· ≠ creator) ∧ ∀ a, a ≠ creator → t.record a = s.record a := by
  simp only [removeFeeWaiver, requireAdminRole_bind, get_bind] at hrun
  obtain ⟨-, hrun⟩ := hrun
  obtain ⟨_, u, hu, hrun⟩ := bind_ok.1 hrun
  obtain rfl := modify_ok.1 hu
  obtain rfl := modify_ok.1 hrun
  exact ⟨rfl, fun a ha => update_of_ne ha ..⟩

theorem addFeeWaiver_ok (hrun : addFeeWaiver env admin creator s = .ok (v, t)) :
    (hasFeeWaiver env.now s creator = true ∧ s = t) ∨
      (hasFeeWaiver env.now s creator = false ∧
        grantFeeWaiverInternal env admin creator 0 "" s = .ok (v, t)) := by
  simp only [addFeeWaiver, requireAdminRole_bind, get_bind] at hrun
  obtain ⟨-, hrun⟩ := hrun
  split_ifs at hrun with hactive
  · exact .inl ⟨hactive, (pure_ok.1 hrun).2⟩
  · exact .inr ⟨Bool.not_eq_true _ ▸ hactive, hrun⟩

theorem purgeExpiredFeeWaivers_ok {removed : ℕ}
    (hrun : purgeExpiredFeeWaivers env admin s = .ok (removed, t)) :
    t = (s.purgeExpiredFeeWaiversInternal env admin).1 := by
  simp only [purgeExpiredFeeWaivers, requireAuth_bind, get_bind] at hrun
  obtain ⟨-, hrun⟩ := hrun
  obtain ⟨_, u, hu, hrun⟩ := bind_ok.1 hrun
  obtain ⟨-, rfl⟩ := pure_ok.1 hrun
  exact (set_ok.1 hu).symm

/-! ## The list and the records are the registry -/

/-- From this time on, the creators that are waived are the active ones of the registry. -/
def Refines (since : ℕ) (s : WaiverStore) (r : Registry) : Prop :=
  ∀ now creator, since ≤ now → (hasFeeWaiver now s creator = true ↔ r.Active now creator)

theorem Refines.mono {since later : ℕ} (h : Refines since s r) (hle : since ≤ later) :
    Refines later s r := fun now creator hnow => h now creator (hle.trans hnow)

theorem active_update_self {entry : Option ℕ} :
    Registry.Active (update r creator entry) now creator ↔
      ∃ expiresAt, entry = some expiresAt ∧ (expiresAt = 0 ∨ now < expiresAt) := by
  unfold Registry.Active
  rw [update_self]

theorem active_update_ne {entry : Option ℕ} {a : Address} (ha : a ≠ creator) :
    Registry.Active (update r creator entry) now a ↔ r.Active now a := by
  unfold Registry.Active
  rw [update_of_ne ha]

theorem Refines.purge {since : ℕ} (h : Refines since s r) (hnodup : s.waivers.Nodup) (actor : Address)
    (hle : since ≤ env.now) : Refines env.now (s.purgeExpiredFeeWaiversInternal env actor).1 r := by
  intro now creator hnow
  rw [hasFeeWaiver_purge hnodup actor hnow]
  exact h now creator (hle.trans hnow)

theorem Refines.written {since : ℕ} (h : Refines since s r) (hwritten : Written creator expiresAt s t) :
    Refines since t (update r creator (some expiresAt)) := by
  intro now a hnow
  by_cases ha : a = creator
  · subst ha
    rw [hwritten.hasFeeWaiver_self, active_update_self]
    simp
  · rw [hwritten.hasFeeWaiver_ne ha, active_update_ne ha]
    exact h now a hnow

theorem Refines.grant {since : ℕ} (h : Refines since s r) (hs : Tidy s) (hle : since ≤ env.now)
    (hrun : grantFeeWaiverInternal env admin creator expiresAt reason s = .ok (v, t)) :
    Tidy t ∧ Refines env.now t (update r creator (some expiresAt)) := by
  obtain ⟨ht, hwritten⟩ := grantFeeWaiverInternal_ok hs hrun
  exact ⟨ht, (h.purge hs.nodup admin hle).written hwritten⟩

/-- A call that returns keeps the list tidy and changes the registry as it says. -/
theorem Refines.step {since : ℕ} (h : Refines since s r) (hs : Tidy s) (hle : since ≤ c.1.now)
    (hrun : waiverStep c s = .ok (v, t)) : Tidy t ∧ Refines c.1.now t (r.apply c) := by
  obtain ⟨env, call⟩ := c
  cases call with
  | add admin creator =>
      have hactive := h env.now creator hle
      obtain ⟨hwaived, rfl⟩ | ⟨hnot, hgrant⟩ := addFeeWaiver_ok hrun
      · have happly : r.apply (env, .add admin creator) = r := if_pos (hactive.1 hwaived)
        rw [happly]
        exact ⟨hs, h.mono hle⟩
      · have hinactive : ¬r.Active env.now creator := by
          rw [← hactive, hnot]
          simp
        have happly : r.apply (env, .add admin creator) = update r creator (some 0) := if_neg hinactive
        rw [happly]
        exact h.grant hs hle hgrant
  | grant admin creator expiresAt reason =>
      exact h.grant hs hle (requireAdminRole_bind.1 hrun).2
  | extend admin creator expiresAt =>
      obtain ⟨hwaivers, hwritten⟩ := extendFeeWaiver_ok hrun
      exact ⟨⟨hwaivers ▸ hs.nodup, hwaivers ▸ hs.length⟩, (h.mono hle).written hwritten⟩
  | remove admin creator =>
      obtain ⟨hwaivers, hrecords⟩ := removeFeeWaiver_ok hrun
      refine ⟨⟨?_, ?_⟩, fun now a hnow => ?_⟩
      · rw [hwaivers]
        exact hs.nodup.filter _
      · rw [hwaivers]
        exact (List.length_filter_le _ _).trans hs.length
      · change _ ↔ Registry.Active (update r creator none) now a
        by_cases ha : a = creator
        · subst ha
          rw [hasFeeWaiver_iff, hwaivers, active_update_self]
          simp
        · rw [active_update_ne ha, ← h now a (hle.trans hnow), hasFeeWaiver_iff, hasFeeWaiver_iff, hwaivers,
            lapsed_congr (hrecords a ha)]
          simp [ha]
  | purge caller =>
      obtain ⟨removed, hpurge⟩ := ignore_ok.1 hrun
      obtain rfl := purgeExpiredFeeWaivers_ok hpurge
      exact ⟨hs.purge _ caller, h.purge hs.nodup caller hle⟩

/-- What the calls of a run in the order of their times keep. -/
theorem Refines.run {since : ℕ} (h : Refines since s r) (hs : Tidy s) (hordered : Ordered calls)
    (hsince : ∀ c ∈ calls, since ≤ c.1.now) {p : WaiverStore × Registry}
    (hp : runAll (fun c => beside (fun r _ _ => r.apply c) (waiverStep c)) (s, r) calls = p) :
    Tidy p.1 ∧ ∀ now, since ≤ now → (∀ c ∈ calls, c.1.now ≤ now) → Refines now p.1 p.2 := by
  have hall : ∀ now, since ≤ now → (∀ c ∈ calls, c.1.now ≤ now) → Tidy p.1 ∧ Refines now p.1 p.2 := by
    intro now hnow hcalls
    rw [← hp]
    refine runAll_clocked (I := fun m (q : WaiverStore × Registry) => Tidy q.1 ∧ Refines m q.1 q.2)
      (fun m n q hmn hq => ⟨hq.1, hq.2.mono hmn⟩) ?_ ⟨hs, h⟩ hordered hsince hcalls hnow
    rintro q c v q' ⟨htidy, hrefines⟩ hrun
    obtain ⟨hstep, hnext⟩ := beside_ok.1 hrun
    rw [hnext]
    exact hrefines.step htidy le_rfl hstep
  obtain ⟨now, hnow, hcalls⟩ := exists_latest (fun c : AdminEnv × WaiverCall => c.1.now) since calls
  exact ⟨(hall now hnow hcalls).1, fun now hnow hcalls => (hall now hnow hcalls).2⟩

theorem Legacy.refines (h : Legacy s) : Refines 0 s (Registry.listed s.waivers) := by
  intro now creator _
  have hlapsed : lapsed now s creator = false := by
    unfold lapsed
    rw [h.unrecorded creator]
    rfl
  rw [hasFeeWaiver_iff]
  unfold Registry.Active Registry.listed
  by_cases hmem : creator ∈ s.waivers <;> simp [hmem, hlapsed]

/-- After every run from a list without records, in the order of the times, the list and the records
are the registry of the last grants. -/
theorem waivers_are_registry (hlegacy : Legacy s) (hordered : Ordered calls) :
    WaiverLaw (fun c r => r.apply c) s calls := by
  obtain ⟨htidy, hrefines⟩ := hlegacy.refines.run ⟨hlegacy.nodup, hlegacy.length⟩ hordered
    (fun _ _ => Nat.zero_le _) (p := after (fun c r => r.apply c) s calls) rfl
  refine ⟨htidy.nodup, htidy.length, fun now creator hnow => ?_, ?_⟩
  · exact hrefines now (Nat.zero_le _) hnow now creator le_rfl
  · intro env caller removed t hrun now creator hle
    obtain rfl := purgeExpiredFeeWaivers_ok hrun
    exact hasFeeWaiver_purge htidy.nodup caller hle

/-- Everyone is an administrator, and the call is made at this time. -/
def timeEnv (now : ℕ) : AdminEnv :=
  { sampleAdminEnv with
    now := now
    admins := some fun _ => some .superAdmin }

/-- A waiver until time 100 is granted, and the creator is added while it is active. -/
def grantedThenAdded : List (AdminEnv × WaiverCall) :=
  [(timeEnv 10, .grant 1 7 100 "launch"), (timeEnv 50, .add 1 7)]

theorem waivers_are_registry_sample :
    hasFeeWaiver 99 (after (fun c r => r.apply c) { waivers := [8] } grantedThenAdded).1 7 = true ∧
      WaiverLaw (fun c r => r.apply c) { waivers := [8] } grantedThenAdded :=
  ⟨by decide, waivers_are_registry ⟨by decide, by decide, fun _ => rfl⟩ (by unfold Ordered; decide)⟩

/-- A registry in which every addition counts, as this entry. -/
def Registry.countAdds (added : Option ℕ) (c : AdminEnv × WaiverCall) (r : Registry) : Registry :=
  match c.2 with
  | .add _ creator => update r creator added
  | _ => r.apply c

/-- The addition of a creator with an active waiver is no grant, since the waiver still lapses, and
it does not end the waiver either. -/
theorem added_waiver_lapses :
    hasFeeWaiver 200 (after (Registry.countAdds (some 0)) {} grantedThenAdded).1 7 = false ∧
      ¬WaiverLaw (Registry.countAdds (some 0)) {} grantedThenAdded ∧
      ¬WaiverLaw (Registry.countAdds none) {} grantedThenAdded := by
  refine ⟨by decide, fun h => ?_, fun h => ?_⟩
  · have hwaived := h.waived 200 7 (by decide)
    revert hwaived
    decide
  · have hwaived := h.waived 60 7 (by decide)
    revert hwaived
    decide

end StellarSplit.Split.Waivers
