import StellarSplit.Lib.Runs
import StellarSplit.Split.Types

/-!
# A pool of slots

Slots are handed out, given back, replaced when they are old or worn and repaired when they
failed too often. What is kept over any calls: the slots in use are those acquired and not
released, and a slot that can be handed out is below the failure threshold.
-/

namespace StellarSplit.Split.SlotPool

open Exec Machine

/-! ## Data -/

def maxPoolSlots : ℕ := 16

inductive PoolError where
  | invalidConfig | exhausted | invalidSlot | notInUse
deriving DecidableEq, Repr

structure PoolConfig where
  capacity : ℕ
  standby : ℕ
  maxAge : ℕ
  maxUses : ℕ
  failureThreshold : ℕ
deriving DecidableEq, Repr

inductive SlotState where
  | idle | inUse | unhealthy
deriving DecidableEq, Repr

structure Slot where
  state : SlotState
  createdAt : ℕ
  uses : ℕ
  failures : ℕ
  standby : Bool
deriving DecidableEq, Repr

def Slot.fresh (now : ℕ) (standby : Bool) : Slot := ⟨.idle, now, 0, 0, standby⟩

structure PoolStats where
  acquired : ℕ := 0
  released : ℕ := 0
  recycled : ℕ := 0
  failovers : ℕ := 0
  exhausted : ℕ := 0
  markedUnhealthy : ℕ := 0
deriving DecidableEq, Repr

structure HealthReport where
  idle : ℕ
  inUse : ℕ
  unhealthy : ℕ
  healthy : Bool
deriving DecidableEq, Repr

/-- The primary slots, then those on standby. -/
structure Pool where
  config : PoolConfig
  slots : List Slot
  stats : PoolStats
  slots_length : slots.length = config.capacity + config.standby

abbrev PoolM (α : Type) := Call Pool SplitFault α

/-! ## Operations -/

def new (config : PoolConfig) (now : ℕ) : Except PoolError Pool :=
  if config.capacity = 0 ∨ maxPoolSlots < config.capacity + config.standby then .error .invalidConfig
  else .ok
    { config := config
      slots := (List.range (config.capacity + config.standby)).map fun i =>
        Slot.fresh now (decide (config.capacity ≤ i))
      stats := {}
      slots_length := by rw [List.length_map, List.length_range] }

namespace Pool

def slot (p : Pool) (index : ℕ) : Option Slot := p.slots[index]?

def needsRecycle (p : Pool) (slot : Slot) (now : ℕ) : Prop :=
  0 < p.config.maxAge ∧ p.config.maxAge ≤ now - slot.createdAt ∨
    0 < p.config.maxUses ∧ p.config.maxUses ≤ slot.uses

instance (p : Pool) (slot : Slot) (now : ℕ) : Decidable (p.needsRecycle slot now) :=
  inferInstanceAs (Decidable (_ ∧ _ ∨ _ ∧ _))

/-- The pool with other slots in the places of the old ones. -/
def write (p : Pool) (slots : List Slot) (stats : PoolStats) (h : slots.length = p.slots.length) : Pool :=
  ⟨p.config, slots, stats, h.trans p.slots_length⟩

end Pool

/-- A loop that replaces slots by fresh ones, with the number of them. -/
def refresh (worn : Slot → Bool) (now : ℕ) : List Slot → List Slot × ℕ
  | [] => ([], 0)
  | slot :: rest =>
      let (rest, n) := refresh worn now rest
      if worn slot then (Slot.fresh now slot.standby :: rest, n + 1) else (slot :: rest, n)

theorem refresh_slots (worn : Slot → Bool) (now : ℕ) (slots : List Slot) :
    (refresh worn now slots).1 = slots.map fun slot => if worn slot then Slot.fresh now slot.standby else slot := by
  induction slots with
  | nil => rfl
  | cons slot rest ih =>
      rw [refresh, List.map_cons, ← ih]
      dsimp only
      split_ifs <;> rfl

theorem length_refresh (worn : Slot → Bool) (now : ℕ) (slots : List Slot) :
    (refresh worn now slots).1.length = slots.length := by
  rw [refresh_slots, List.length_map]

def recycle (now : ℕ) : PoolM ℕ := do
  let p ← get
  let r := refresh (fun slot => slot.state = .idle ∧ p.needsRecycle slot now) now p.slots
  require (p.stats.recycled + r.2 ≤ u32Max) .overflow
  set (p.write r.1 { p.stats with recycled := p.stats.recycled + r.2 } (length_refresh _ _ _))
  pure r.2

/-- The slot that one pass of `acquire` finds. -/
def findIdle (slots : List Slot) (passStandby : Bool) : Option ℕ :=
  slots.findIdx? fun slot => slot.standby = passStandby ∧ slot.state = .idle

def handOut (i : ℕ) (passStandby : Bool) : PoolM (Except PoolError ℕ) := do
  let p ← get
  require (p.stats.acquired + 1 ≤ u32Max) .overflow
  require (passStandby = true → p.stats.failovers + 1 ≤ u32Max) .overflow
  set (p.write (p.slots.modify i fun slot => { slot with state := .inUse })
    { p.stats with
      acquired := p.stats.acquired + 1
      failovers := if passStandby then p.stats.failovers + 1 else p.stats.failovers }
    (List.length_modify _ _ _))
  pure (.ok i)

def acquire (now : ℕ) : PoolM (Except PoolError ℕ) := do
  let _ ← recycle now
  let p ← get
  match findIdle p.slots false with
  | some i => handOut i false
  | none =>
      match findIdle p.slots true with
      | some i => handOut i true
      | none => do
          require (p.stats.exhausted + 1 ≤ u32Max) .overflow
          set (p.write p.slots { p.stats with exhausted := p.stats.exhausted + 1 } rfl)
          pure (.error .exhausted)

/-- A slot that is given back. -/
def Slot.back (slot : Slot) (threshold : ℕ) (ok : Bool) : Slot :=
  if ok then { slot with uses := slot.uses + 1, failures := 0, state := .idle }
  else
    { slot with
      uses := slot.uses + 1
      failures := slot.failures + 1
      state := if 0 < threshold ∧ threshold ≤ slot.failures + 1 then .unhealthy else .idle }

def release (index : ℕ) (ok : Bool) : PoolM (Except PoolError Unit) := do
  let p ← get
  match p.slots[index]? with
  | none => pure (.error .invalidSlot)
  | some slot =>
      if slot.state ≠ .inUse then pure (.error .notInUse)
      else do
        let returned := slot.back p.config.failureThreshold ok
        require (returned.uses ≤ u32Max ∧ returned.failures ≤ u32Max) .overflow
        let marked := if returned.state = .unhealthy then p.stats.markedUnhealthy + 1 else p.stats.markedUnhealthy
        require (marked ≤ u32Max ∧ p.stats.released + 1 ≤ u32Max) .overflow
        set (p.write (p.slots.set index returned)
          { p.stats with markedUnhealthy := marked, released := p.stats.released + 1 } List.length_set)
        pure (.ok ())

def healthCheck (now : ℕ) : PoolM HealthReport := do
  let p ← get
  let r := refresh (fun slot => slot.state = .unhealthy) now p.slots
  require (p.stats.recycled + r.2 ≤ u32Max) .overflow
  set (p.write r.1 { p.stats with recycled := p.stats.recycled + r.2 } (length_refresh _ _ _))
  pure
    { idle := r.1.countP fun slot => slot.state = .idle
      inUse := r.1.countP fun slot => slot.state = .inUse
      unhealthy := r.1.countP fun slot => slot.state = .unhealthy
      healthy := r.1.any fun slot => !slot.standby && slot.state ≠ .unhealthy }

inductive PoolCall where
  | acquire (now : ℕ)
  | release (index : ℕ) (ok : Bool)
  | recycle (now : ℕ)
  | healthCheck (now : ℕ)
deriving DecidableEq, Repr

def poolStep : PoolCall → PoolM Unit
  | .acquire now => ignore (acquire now)
  | .release index ok => ignore (release index ok)
  | .recycle now => ignore (recycle now)
  | .healthCheck now => ignore (healthCheck now)

variable {p q t : Pool} {now : ℕ} {worn : Slot → Bool}

/-! ## A pass over the slots -/

/-- The worn slots were replaced. -/
structure Refreshed (worn : Slot → Bool) (now : ℕ) (p t : Pool) : Prop where
  config : t.config = p.config
  slots : t.slots = p.slots.map fun slot => if worn slot then Slot.fresh now slot.standby else slot
  acquired : t.stats.acquired = p.stats.acquired
  released : t.stats.released = p.stats.released

theorem refreshed_write (worn : Slot → Bool) (now : ℕ) (p : Pool) (recycled : ℕ) :
    Refreshed worn now p
      (p.write (refresh worn now p.slots).1 { p.stats with recycled := recycled } (length_refresh _ _ _)) :=
  ⟨rfl, refresh_slots _ _ _, rfl, rfl⟩

/-- An idle slot that `recycle` replaces. -/
def Pool.wears (p : Pool) (now : ℕ) (slot : Slot) : Bool := slot.state = .idle ∧ p.needsRecycle slot now

theorem recycle_ok {n : ℕ} (h : recycle now p = .ok (n, t)) : Refreshed (p.wears now) now p t := by
  rw [recycle, get_bind, require_bind] at h
  simp only [bind_ok, set_ok, pure_ok] at h
  obtain ⟨-, _, _, rfl, -, rfl⟩ := h
  exact refreshed_write _ now p _

theorem healthCheck_ok {r : HealthReport} (h : healthCheck now p = .ok (r, t)) :
    Refreshed (fun slot => slot.state = .unhealthy) now p t := by
  rw [healthCheck, get_bind, require_bind] at h
  simp only [bind_ok, set_ok, pure_ok] at h
  obtain ⟨-, _, _, rfl, -, rfl⟩ := h
  exact refreshed_write _ now p _

namespace Refreshed

theorem slot_of_some {i : ℕ} {slot : Slot} (h : Refreshed worn now p t) (hslot : t.slots[i]? = some slot) :
    ∃ old, p.slots[i]? = some old ∧ slot = if worn old then Slot.fresh now old.standby else old := by
  rw [h.slots, List.getElem?_map, Option.map_eq_some_iff] at hslot
  obtain ⟨old, hold, rfl⟩ := hslot
  exact ⟨old, hold, rfl⟩

theorem kept {i : ℕ} {slot : Slot} (h : Refreshed worn now p t) (hslot : p.slots[i]? = some slot)
    (hnot : worn slot = false) : t.slots[i]? = some slot := by
  rw [h.slots, List.getElem?_map, hslot, Option.map_some, if_neg (by rw [hnot]; exact Bool.false_ne_true)]

end Refreshed

/-! ## Slots in use -/

def Pool.inUse (p : Pool) : ℕ := p.slots.countP fun slot => slot.state = .inUse

/-- The same slots are in use, as they were. -/
def SameInUse (p t : Pool) : Prop :=
  ∀ (i : ℕ) (slot : Slot), slot.state = .inUse → (t.slots[i]? = some slot ↔ p.slots[i]? = some slot)

theorem Refreshed.sameInUse (h : Refreshed worn now p t) (hworn : ∀ slot, worn slot → slot.state ≠ .inUse) :
    SameInUse p t := by
  intro i slot hstate
  constructor
  · intro hslot
    obtain ⟨old, hold, hnew⟩ := h.slot_of_some hslot
    cases hw : worn old with
    | true =>
        rw [hw, if_pos rfl] at hnew
        rw [hnew] at hstate
        cases hstate
    | false =>
        rw [hw, if_neg Bool.false_ne_true] at hnew
        rwa [hnew]
  · intro hslot
    refine h.kept hslot ?_
    rw [← Bool.not_eq_true]
    exact fun hw => hworn slot hw hstate

theorem Refreshed.inUse (h : Refreshed worn now p t) (hworn : ∀ slot, worn slot → slot.state ≠ .inUse) :
    t.inUse = p.inUse := by
  rw [Pool.inUse, h.slots, List.countP_map]
  refine List.countP_congr fun slot _ => ?_
  rw [Function.comp_apply]
  split_ifs with hw
  · exact iff_of_false Bool.false_ne_true fun hstate => hworn slot hw (of_decide_eq_true hstate)
  · rfl

theorem wears_spares {slot : Slot} (h : p.wears now slot) : slot.state ≠ .inUse := by
  obtain ⟨hidle, -⟩ := of_decide_eq_true h
  rw [hidle]
  decide

/-- The slots in use after one slot changed. -/
theorem countP_set_slot {slots : List Slot} {i : ℕ} {old : Slot} (hold : slots[i]? = some old) (slot : Slot) :
    (slots.set i slot).countP (fun slot => slot.state = .inUse) + (if old.state = .inUse then 1 else 0) =
      slots.countP (fun slot => slot.state = .inUse) + if slot.state = .inUse then 1 else 0 := by
  obtain ⟨hi, rfl⟩ := List.getElem?_eq_some_iff.1 hold
  rw [List.countP_set hi]
  simp only [decide_eq_true_eq]
  by_cases hstate : slots[i].state = .inUse
  · have hpos : 0 < slots.countP fun slot => slot.state = .inUse :=
      List.countP_pos_iff.2 ⟨slots[i], List.getElem_mem hi, decide_eq_true hstate⟩
    rw [if_pos hstate]
    omega
  · rw [if_neg hstate, Nat.sub_zero, Nat.add_zero]

/-- One slot was replaced, and nothing else about the slots changed. -/
structure Put (i : ℕ) (old slot : Slot) (p t : Pool) : Prop where
  config : t.config = p.config
  found : p.slots[i]? = some old
  slots : t.slots = p.slots.set i slot

theorem Put.inUse {i : ℕ} {old slot : Slot} (h : Put i old slot p t) :
    t.inUse + (if old.state = .inUse then 1 else 0) = p.inUse + if slot.state = .inUse then 1 else 0 := by
  rw [Pool.inUse, h.slots]
  exact countP_set_slot h.found slot

theorem Put.slot {i : ℕ} {old slot : Slot} (h : Put i old slot p t) : t.slots[i]? = some slot := by
  obtain ⟨hi, -⟩ := List.getElem?_eq_some_iff.1 h.found
  rw [h.slots, List.getElem?_set_self hi]

/-! ## Handing out -/

theorem findIdle_some {slots : List Slot} {standby : Bool} {i : ℕ} (h : findIdle slots standby = some i) :
    ∃ slot, slots[i]? = some slot ∧ slot.standby = standby ∧ slot.state = .idle := by
  obtain ⟨hi, hfound, -⟩ := List.findIdx?_eq_some_iff_getElem.1 h
  obtain ⟨hstandby, hidle⟩ := of_decide_eq_true hfound
  exact ⟨_, List.getElem?_eq_getElem hi, hstandby, hidle⟩

theorem findIdle_none {slots : List Slot} {standby : Bool} (h : findIdle slots standby = none) {slot : Slot}
    (hslot : slot ∈ slots) (hstandby : slot.standby = standby) : slot.state ≠ .idle := fun hidle =>
  of_decide_eq_false (List.findIdx?_eq_none_iff.1 h slot hslot) ⟨hstandby, hidle⟩

/-- The slot at `i` was idle and is handed out. -/
structure Given (i : ℕ) (slot : Slot) (p t : Pool) : Prop where
  put : Put i slot { slot with state := .inUse } p t
  idle : slot.state = .idle
  /-- A standby slot is the last resort. -/
  standby : slot.standby = true → ∀ primary ∈ p.slots, primary.standby = false → primary.state ≠ .idle
  acquired : t.stats.acquired = p.stats.acquired + 1
  released : t.stats.released = p.stats.released

theorem handOut_ok {i : ℕ} {standby : Bool} {slot : Slot} {a : Except PoolError ℕ}
    (h : handOut i standby p = .ok (a, t)) (hslot : p.slots[i]? = some slot) (hidle : slot.state = .idle)
    (hlast : slot.standby = true → ∀ primary ∈ p.slots, primary.standby = false → primary.state ≠ .idle) :
    a = .ok i ∧ Given i slot p t := by
  rw [handOut, get_bind, require_bind, require_bind] at h
  simp only [bind_ok, set_ok, pure_ok] at h
  obtain ⟨-, -, _, _, rfl, rfl, rfl⟩ := h
  refine ⟨rfl, ⟨⟨rfl, hslot, ?_⟩, hidle, hlast, rfl, rfl⟩⟩
  change p.slots.modify i _ = _
  rw [List.modify_eq_set_getElem?, hslot]
  rfl

theorem acquire_ok {a : Except PoolError ℕ} (h : acquire now p = .ok (a, t)) :
    ∃ q, Refreshed (p.wears now) now p q ∧
      ((∃ i slot, a = .ok i ∧ Given i slot q t) ∨
        (a = .error .exhausted ∧ (∀ slot ∈ q.slots, slot.state ≠ .idle) ∧ t.config = q.config ∧
          t.slots = q.slots ∧ t.stats.acquired = q.stats.acquired ∧ t.stats.released = q.stats.released)) := by
  obtain ⟨_, q, hrecycle, h⟩ := bind_ok.1 h
  refine ⟨q, recycle_ok hrecycle, ?_⟩
  rw [get_bind] at h
  cases hprimary : findIdle q.slots false with
  | some i =>
      rw [hprimary] at h
      obtain ⟨slot, hslot, hstandby, hidle⟩ := findIdle_some hprimary
      exact .inl ⟨i, slot, handOut_ok h hslot hidle fun htrue => nomatch hstandby.symm.trans htrue⟩
  | none =>
      rw [hprimary] at h
      cases hstandby : findIdle q.slots true with
      | some i =>
          rw [hstandby] at h
          obtain ⟨slot, hslot, -, hidle⟩ := findIdle_some hstandby
          exact .inl ⟨i, slot, handOut_ok h hslot hidle fun _ primary => findIdle_none hprimary⟩
      | none =>
          rw [hstandby] at h
          simp only [bind_ok, set_ok, pure_ok] at h
          obtain ⟨_, _, -, _, _, rfl, rfl, rfl⟩ := h
          refine .inr ⟨rfl, fun slot hslot => ?_, rfl, rfl, rfl, rfl⟩
          cases hkind : slot.standby with
          | false => exact findIdle_none hprimary hslot hkind
          | true => exact findIdle_none hstandby hslot hkind

/-! ## Giving back -/

theorem release_ok {index : ℕ} {ok : Bool} {a : Except PoolError Unit} (h : release index ok p = .ok (a, t)) :
    (∃ slot, a = .ok () ∧ slot.state = .inUse ∧ Put index slot (slot.back p.config.failureThreshold ok) p t ∧
        t.stats.acquired = p.stats.acquired ∧ t.stats.released = p.stats.released + 1) ∨
      (∃ e, a = .error e) ∧ t = p := by
  rw [release, get_bind] at h
  cases hslot : p.slots[index]? with
  | none =>
      rw [hslot] at h
      obtain ⟨rfl, rfl⟩ := pure_ok.1 h
      exact .inr ⟨⟨_, rfl⟩, rfl⟩
  | some slot =>
      rw [hslot] at h
      dsimp only at h
      by_cases hstate : slot.state = .inUse
      · rw [if_neg (not_not_intro hstate), require_bind, require_bind] at h
        simp only [bind_ok, set_ok, pure_ok] at h
        obtain ⟨-, -, _, _, rfl, rfl, rfl⟩ := h
        exact .inl ⟨slot, rfl, hstate, ⟨rfl, hslot, rfl⟩, rfl, rfl⟩
      · rw [if_pos hstate] at h
        obtain ⟨rfl, rfl⟩ := pure_ok.1 h
        exact .inr ⟨⟨_, rfl⟩, rfl⟩

theorem Slot.back_not_inUse (slot : Slot) (threshold : ℕ) (ok : Bool) : (slot.back threshold ok).state ≠ .inUse := by
  unfold Slot.back
  split_ifs <;> exact nofun

theorem Slot.back_failures (slot : Slot) {threshold : ℕ} (ok : Bool) (hpos : 0 < threshold)
    (h : (slot.back threshold ok).state ≠ .unhealthy) : (slot.back threshold ok).failures < threshold := by
  unfold Slot.back at h ⊢
  split_ifs at h ⊢ with hok hfails
  · exact hpos
  · exact absurd rfl h
  · exact Nat.lt_of_not_le fun hle => hfails ⟨hpos, hle⟩

/-! ## What any calls keep -/

/-- The slots in use are those acquired and not released, and only an unhealthy slot may have
reached the failure threshold. -/
structure Kept (config : PoolConfig) (p : Pool) : Prop where
  configured : p.config = config
  balance : p.stats.acquired = p.stats.released + p.inUse
  streaks : 0 < config.failureThreshold →
    ∀ slot ∈ p.slots, slot.state ≠ .unhealthy → slot.failures < config.failureThreshold

variable {config : PoolConfig}

theorem kept_new (h : new config now = .ok p) : Kept config p := by
  unfold new at h
  split_ifs at h with hbad
  cases h
  refine ⟨rfl, ?_, fun hpos slot hslot _ => ?_⟩
  · change 0 = 0 + List.countP _ (List.map _ _)
    rw [List.countP_map, Nat.zero_add, eq_comm, List.countP_eq_zero]
    exact fun _ _ => Bool.false_ne_true
  · obtain ⟨i, -, rfl⟩ := List.mem_map.1 hslot
    exact hpos

namespace Kept

theorem refreshed (h : Kept config p) (hpass : Refreshed worn now p t)
    (hworn : ∀ slot, worn slot → slot.state ≠ .inUse) : Kept config t := by
  refine ⟨hpass.config.trans h.configured, ?_, fun hpos slot hslot hhealthy => ?_⟩
  · rw [hpass.acquired, hpass.released, hpass.inUse hworn]
    exact h.balance
  · rw [hpass.slots] at hslot
    obtain ⟨old, hold, rfl⟩ := List.mem_map.1 hslot
    split_ifs at hhealthy ⊢ with hw
    · exact hpos
    · exact h.streaks hpos old hold hhealthy

theorem put {i : ℕ} {old slot : Slot} (h : Kept config p) (hput : Put i old slot p t)
    (hbalance : t.stats.acquired = t.stats.released + t.inUse)
    (hslot : 0 < config.failureThreshold → slot.state ≠ .unhealthy → slot.failures < config.failureThreshold) :
    Kept config t := by
  refine ⟨hput.config.trans h.configured, hbalance, fun hpos other hother hhealthy => ?_⟩
  rw [hput.slots] at hother
  rcases List.mem_or_eq_of_mem_set hother with hold | rfl
  · exact h.streaks hpos other hold hhealthy
  · exact hslot hpos hhealthy

theorem given {i : ℕ} {slot : Slot} (h : Kept config p) (hgiven : Given i slot p t) : Kept config t := by
  have hmem : slot ∈ p.slots := List.mem_of_getElem? hgiven.put.found
  refine h.put hgiven.put ?_ fun hpos _ => h.streaks hpos slot hmem (by rw [hgiven.idle]; exact nofun)
  have hcount := hgiven.put.inUse
  rw [if_pos rfl, if_neg (by rw [hgiven.idle]; exact nofun)] at hcount
  rw [hgiven.acquired, hgiven.released, h.balance]
  omega

theorem acquired {a : Except PoolError ℕ} (h : Kept config p) (hrun : acquire now p = .ok (a, t)) :
    Kept config t := by
  obtain ⟨q, hpass, ⟨i, slot, -, hgiven⟩ | ⟨-, -, hconfig, hslots, hacquired, hreleased⟩⟩ := acquire_ok hrun
  · exact (h.refreshed hpass fun _ => wears_spares).given hgiven
  · have hq := h.refreshed hpass fun _ => wears_spares
    refine ⟨hconfig.trans hq.configured, ?_, ?_⟩
    · rw [hacquired, hreleased, Pool.inUse, hslots]
      exact hq.balance
    · rw [hslots]
      exact hq.streaks

theorem released {index : ℕ} {ok : Bool} {a : Except PoolError Unit} (h : Kept config p)
    (hrun : release index ok p = .ok (a, t)) : Kept config t := by
  obtain ⟨slot, -, hstate, hput, hacquired, hreleased⟩ | ⟨-, rfl⟩ := release_ok hrun
  · rw [h.configured] at hput
    refine h.put hput ?_ fun hpos => slot.back_failures ok hpos
    have hcount := hput.inUse
    rw [if_pos hstate, if_neg (slot.back_not_inUse _ _)] at hcount
    have := h.balance
    omega
  · exact h

theorem step {call : PoolCall} {v : Unit} (h : Kept config p) (hrun : poolStep call p = .ok (v, t)) :
    Kept config t := by
  cases call with
  | acquire now =>
      obtain ⟨a, hrun⟩ := ignore_ok.1 hrun
      exact h.acquired hrun
  | release index ok =>
      obtain ⟨a, hrun⟩ := ignore_ok.1 hrun
      exact h.released hrun
  | recycle now =>
      obtain ⟨n, hrun⟩ := ignore_ok.1 hrun
      exact h.refreshed (recycle_ok hrun) fun _ => wears_spares
  | healthCheck now =>
      obtain ⟨r, hrun⟩ := ignore_ok.1 hrun
      refine h.refreshed (healthCheck_ok hrun) fun slot hw hstate => ?_
      exact nomatch hstate.symm.trans (of_decide_eq_true hw)

end Kept

theorem kept_run (hnew : new config now = .ok p) (calls : List PoolCall) :
    Kept config (runAll poolStep p calls) :=
  runAll_invariant (fun _ _ _ _ h hrun => h.step hrun) (kept_new hnew) calls

/-! ## The pool as its callers see it -/

/-- The slot at `i` was idle and is now in use, with a use left; a standby slot only when no primary
slot was idle. -/
structure HandsOut (config : PoolConfig) (i : ℕ) (p t : Pool) : Prop where
  idle : ∃ slot, p.slot i = some slot ∧ slot.state = .idle ∧
    (slot.standby = true → ∀ primary ∈ p.slots, primary.standby = false → primary.state ≠ .idle)
  given : ∃ slot, t.slot i = some slot ∧ slot.state = .inUse ∧ (0 < config.maxUses → slot.uses < config.maxUses)

/-- A pool where no slot gets lost, whatever is called next. -/
structure Sound (config : PoolConfig) (p : Pool) : Prop where
  configured : p.config = config
  balance : (p.stats.acquired - p.stats.released : ℤ) = p.inUse
  idle : 0 < config.failureThreshold → ∀ slot ∈ p.slots, slot.state = .idle → slot.failures < config.failureThreshold
  acquires : ∀ now i t, acquire now p = .ok (.ok i, t) → HandsOut config i p t
  refuses : ∀ now e t, acquire now p = .ok (.error e, t) → SameInUse p t
  rejects : ∀ index ok e t, release index ok p = .ok (.error e, t) → SameInUse p t

/-- What `recycle` leaves in the place of a slot. -/
def Pool.recycled (p : Pool) (now : ℕ) (slot : Slot) : Slot :=
  if p.wears now slot then Slot.fresh now slot.standby else slot

theorem recycled_standby (p : Pool) (now : ℕ) (slot : Slot) : (p.recycled now slot).standby = slot.standby := by
  unfold Pool.recycled
  split_ifs <;> rfl

theorem recycled_idle (p : Pool) (now : ℕ) (slot : Slot) : (p.recycled now slot).state = .idle ↔ slot.state = .idle := by
  unfold Pool.recycled
  split_ifs with hw
  · exact iff_of_true rfl (of_decide_eq_true hw).1
  · rfl

/-- An idle slot that stays is not worn. -/
theorem recycled_uses {slot : Slot} (hidle : slot.state = .idle) (hlimit : 0 < p.config.maxUses) :
    (p.recycled now slot).uses < p.config.maxUses := by
  unfold Pool.recycled
  split_ifs with hw
  · exact hlimit
  · exact Nat.lt_of_not_le fun hle => hw (decide_eq_true ⟨hidle, .inr ⟨hlimit, hle⟩⟩)

theorem Given.handsOut {i : ℕ} {slot : Slot} (hgiven : Given i slot q t) (hpass : Refreshed (p.wears now) now p q) :
    HandsOut p.config i p t := by
  obtain ⟨old, hold, hslot : slot = p.recycled now old⟩ := hpass.slot_of_some hgiven.put.found
  have hidle : old.state = .idle := (recycled_idle p now old).1 (hslot ▸ hgiven.idle)
  refine ⟨⟨old, hold, hidle, fun hstandby primary hprimary hkind hfree => ?_⟩,
    ⟨_, hgiven.put.slot, rfl, fun hlimit => ?_⟩⟩
  · have hlast : slot.standby = true := by rw [hslot, recycled_standby, hstandby]
    have hmem : p.recycled now primary ∈ q.slots := by
      rw [hpass.slots]
      exact List.mem_map.2 ⟨primary, hprimary, rfl⟩
    apply hgiven.standby hlast _ hmem
    · exact (recycled_standby p now primary).trans hkind
    · exact (recycled_idle p now primary).2 hfree
  · rw [hslot]
    exact recycled_uses hidle hlimit

theorem Kept.sound (h : Kept config p) : Sound config p := by
  constructor
  · exact h.configured
  · rw [h.balance]
    push_cast
    ring
  · intro hpos slot hslot hidle
    apply h.streaks hpos slot hslot
    rw [hidle]
    exact nofun
  · intro now i t hrun
    obtain ⟨q, hpass, ⟨j, slot, ha, hgiven⟩ | ⟨ha, -⟩⟩ := acquire_ok hrun
    · cases ha
      rw [← h.configured]
      exact hgiven.handsOut hpass
    · cases ha
  · intro now e t hrun
    obtain ⟨q, hpass, ⟨j, slot, ha, -⟩ | ⟨-, -, -, hslots, -⟩⟩ := acquire_ok hrun
    · cases ha
    · intro i slot hstate
      rw [hslots]
      exact hpass.sameInUse (fun _ => wears_spares) i slot hstate
  · intro index ok e t hrun
    obtain ⟨_, ha, -⟩ | ⟨-, rfl⟩ := release_ok hrun
    · cases ha
    · exact fun _ _ _ => Iff.rfl

/-- Whatever was called before: as many slots are in use as were acquired and not released, only idle
slots with a use left are handed out, standby slots last, an idle slot is below the failure threshold,
and a call that fails changes no slot in use. -/
theorem slot_pool_law (hnew : new config now = .ok p) (calls : List PoolCall) :
    Sound config (runAll poolStep p calls) :=
  (kept_run hnew calls).sound

/-- Two primary slots and one on standby. -/
def sampleConfig : PoolConfig := ⟨2, 1, 100, 3, 2⟩

/-- The first slot fails twice; the others are taken. -/
def sampleCalls : List PoolCall :=
  [.acquire 0, .release 0 false, .acquire 0, .release 0 false, .acquire 0, .acquire 0]

theorem slot_pool_sample :
    ∃ p, new sampleConfig 0 = .ok p ∧ Sound sampleConfig (runAll poolStep p sampleCalls) ∧
      (runAll poolStep p sampleCalls).slots.map Slot.state = [.unhealthy, .inUse, .inUse] := by
  have hnew : ∃ p, new sampleConfig 0 = .ok p := ⟨_, rfl⟩
  obtain ⟨p, hnew⟩ := hnew
  refine ⟨p, hnew, slot_pool_law hnew sampleCalls, ?_⟩
  cases hnew
  decide +kernel

end StellarSplit.Split.SlotPool
