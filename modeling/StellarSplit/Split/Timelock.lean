import StellarSplit.Lib.Runs
import StellarSplit.Split.Multisig

/-!
# Actions behind a time lock

The administrator queues an action, and anyone may execute it once the delay has
passed. The delay is one setting for all queued actions and is read when an action
is executed, so lowering it shortens the notice of the actions that wait. The fee
that an executed action sets is held to another bound than the one that signers set.
-/

namespace StellarSplit.Split.Timelock

open Exec Function Machine Multisig

/-! ## The contract -/

inductive TimelockAction where
  | setTreasury (treasury : Address)
  | setPlatformFee (fee : ℕ)
deriving DecidableEq, Repr

structure QueuedAction where
  action : TimelockAction
  queuedAt : ℕ
  executed : Bool
deriving DecidableEq, Repr

/-- The entries of the time lock beside those of the administration. -/
structure TimelockStore extends AdminStore where
  timelockSecs : Option ℕ := none
  actionCounter : ℕ := 0
  actions : ℕ → Option QueuedAction := fun _ => none

abbrev TimelockM (α : Type) := Call TimelockStore SplitFault α

namespace TimelockStore

/-- The delay in force. -/
def delay (s : TimelockStore) : ℕ := s.timelockSecs.getD 0

/-- The platform fee in force. -/
def fee (s : TimelockStore) : ℕ := s.platformFeeBps.getD 0

def setAction (s : TimelockStore) (id : ℕ) (queued : Option QueuedAction) : TimelockStore :=
  { s with actions := update s.actions id queued }

end TimelockStore

def setTimelockSecs (env : AdminEnv) (_admin : Address) (secs : ℕ) : TimelockM Unit := do
  let _ ← requireAdmin env.toEnv
  modify fun s => { s with timelockSecs := some secs }

def queueAction (env : AdminEnv) (_admin : Address) (action : TimelockAction) : TimelockM ℕ := do
  let _ ← requireAdmin env.toEnv
  let s ← get
  let counter ← orPanic (checkedAddU64 s.actionCounter 1) "action counter overflow"
  modify fun s => { s.setAction counter (some { action := action, queuedAt := env.now, executed := false }) with
    actionCounter := counter }
  pure counter

/-- What is asked of an action when it is executed. -/
def checkTimelockAction : TimelockAction → TimelockM Unit
  | .setTreasury _ => pure ()
  | .setPlatformFee fee => require (fee ≤ 10000) (.panic "platform_fee_bps must be ≤ 10000")

def TimelockAction.write (action : TimelockAction) (s : TimelockStore) : TimelockStore :=
  match action with
  | .setTreasury treasury => { s with treasury := some treasury }
  | .setPlatformFee fee => { s with platformFeeBps := some fee }

def executeAction (env : AdminEnv) (actionId : ℕ) : TimelockM Unit := do
  let s ← get
  let queued ← orPanic (s.actions actionId) "action not found"
  require (queued.executed = false) (.panic "action already executed")
  require (satAddU64 queued.queuedAt s.delay ≤ env.now) (.panic "timelock not yet elapsed")
  checkTimelockAction queued.action
  modify queued.action.write
  modify fun s => s.setAction actionId (some { queued with executed := true })

def cancelAction (env : AdminEnv) (_admin : Address) (actionId : ℕ) : TimelockM Unit := do
  let _ ← requireAdmin env.toEnv
  let s ← get
  let queued ← orPanic (s.actions actionId) "action not found"
  require (queued.executed = false) (.panic "action already executed")
  modify fun s => s.setAction actionId none

/-- A call of the administration, beside the time lock. -/
def administer (x : AdminM Unit) : TimelockM Unit :=
  focus TimelockStore.toAdminStore (fun s t => { s with toAdminStore := t }) x

/-! ## Runs -/

inductive TimelockCall where
  | setSecs (admin : Address) (secs : ℕ)
  | queue (admin : Address) (action : TimelockAction)
  | execute (actionId : ℕ)
  | cancel (admin : Address) (actionId : ℕ)
  | administer (call : AdminCall)
deriving DecidableEq

def timelockStep (c : AdminEnv × TimelockCall) : TimelockM Unit :=
  match c.2 with
  | .setSecs admin secs => setTimelockSecs c.1 admin secs
  | .queue admin action => ignore (queueAction c.1 admin action)
  | .execute actionId => executeAction c.1 actionId
  | .cancel admin actionId => cancelAction c.1 admin actionId
  | .administer call => administer (adminStep (c.1, call))

/-- The state after a run. -/
abbrev after (s : TimelockStore) (calls : List (AdminEnv × TimelockCall)) : TimelockStore :=
  runAll timelockStep s calls

/-! ## The law -/

/-- A call of the run queued the action under this number, at this time and under this delay. -/
def Queued (s : TimelockStore) (calls : List (AdminEnv × TimelockCall)) (id queuedAt delay : ℕ) : Prop :=
  ∃ before c since admin action t, calls = before ++ c :: since ∧ c.2 = .queue admin action ∧
    queueAction c.1 admin action (after s before) = .ok (id, t) ∧
    c.1.now = queuedAt ∧ (after s before).delay = delay

/-- The call is neither the execution nor the cancellation of the action. -/
def TimelockCall.Spares (id : ℕ) : TimelockCall → Prop
  | .execute actionId => actionId ≠ id
  | .cancel _ actionId => actionId ≠ id
  | _ => True

/-- No call of the run executed or cancelled the action. -/
def Untouched (s : TimelockStore) (calls : List (AdminEnv × TimelockCall)) (id : ℕ) : Prop :=
  Along (fun _ c => c.2.Spares id) timelockStep s calls

/-- What an execution after the calls has to wait for: the action was queued, was neither executed
nor cancelled before, and has waited for `wait`, a bound from the time and the delay of its
queueing. -/
def Waited (wait : TimelockStore → ℕ → ℕ → ℕ) (s : TimelockStore)
    (calls : List (AdminEnv × TimelockCall)) (c : AdminEnv × TimelockCall) : Prop :=
  ∀ id, c.2 = .execute id → (∃ r, timelockStep c (after s calls) = .ok r) →
    Untouched s calls id ∧ (∃ queuedAt delay, Queued s calls id queuedAt delay) ∧
      ∀ queuedAt delay, Queued s calls id queuedAt delay →
        wait (after s calls) queuedAt delay ≤ c.1.now

/-- The call leaves the platform fee alone or within the cap. -/
def WithinCap (s : TimelockStore) (c : AdminEnv × TimelockCall) : Prop :=
  ∀ v t, timelockStep c s = .ok (v, t) → t.platformFeeBps = s.platformFeeBps ∨ t.fee ≤ maxPlatformFeeBps

/-- Every execution has waited for the notice given when its action was queued, and every call that
sets the platform fee respects the cap. -/
structure NoticeLaw (s : TimelockStore) (calls : List (AdminEnv × TimelockCall)) : Prop where
  waited : ∀ xs c, xs ++ [c] <+: calls → Waited (fun _ queuedAt delay => queuedAt + delay) s xs c
  capped : ∀ xs c, xs ++ [c] <+: calls → WithinCap (after s xs) c

/-- Every execution has waited for the delay that is in force when it comes, and the signers set no
platform fee above the cap. -/
structure DelayLaw (s : TimelockStore) (calls : List (AdminEnv × TimelockCall)) : Prop where
  waited : ∀ xs c, xs ++ [c] <+: calls → Waited (fun t queuedAt _ => satAddU64 queuedAt t.delay) s xs c
  capped : ∀ xs c call, xs ++ [c] <+: calls → c.2 = .administer call → WithinCap (after s xs) c

/-! ## What the calls do -/

variable {env : AdminEnv} {s t : TimelockStore} {v : Unit} {admin : Address} {action : TimelockAction}
  {id queuedAt delay : ℕ} {c : AdminEnv × TimelockCall} {xs calls : List (AdminEnv × TimelockCall)}

theorem setTimelockSecs_ok {secs : ℕ} (hrun : setTimelockSecs env admin secs s = .ok (v, t)) :
    t = { s with timelockSecs := some secs } := by
  obtain ⟨_, -, -, -, hrun⟩ := requireAdmin_bind.1 hrun
  exact (modify_ok.1 hrun).symm

theorem queueAction_ok (hrun : queueAction env admin action s = .ok (id, t)) :
    id = s.actionCounter + 1 ∧ t.actionCounter = id ∧
      t.actions = update s.actions id (some { action := action, queuedAt := env.now, executed := false }) ∧
      t.platformFeeBps = s.platformFeeBps := by
  simp only [queueAction, requireAdmin_bind, get_bind, orPanic_bind] at hrun
  obtain ⟨_, -, -, -, counter, hcounter, hrun⟩ := hrun
  obtain ⟨_, w, hwrite, hrun⟩ := bind_ok.1 hrun
  obtain rfl := modify_ok.1 hwrite
  obtain ⟨rfl, rfl⟩ := pure_ok.1 hrun
  exact ⟨checkedAddU64_eq hcounter, rfl, rfl, rfl⟩

theorem checkTimelockAction_ok (hrun : checkTimelockAction action s = .ok (v, t)) : s = t := by
  cases action with
  | setTreasury treasury => exact (pure_ok.1 hrun).2
  | setPlatformFee fee => exact (require_ok.1 hrun).2

theorem executeAction_ok (hrun : executeAction env id s = .ok (v, t)) :
    ∃ queued, s.actions id = some queued ∧ queued.executed = false ∧
      satAddU64 queued.queuedAt s.delay ≤ env.now ∧
      t = (queued.action.write s).setAction id (some { queued with executed := true }) := by
  simp only [executeAction, get_bind, orPanic_bind, require_bind] at hrun
  obtain ⟨queued, hqueued, hwaiting, helapsed, hrun⟩ := hrun
  obtain ⟨_, u, hcheck, hrun⟩ := bind_ok.1 hrun
  obtain rfl := checkTimelockAction_ok hcheck
  obtain ⟨_, w, hwrite, hrun⟩ := bind_ok.1 hrun
  obtain rfl := modify_ok.1 hwrite
  exact ⟨queued, hqueued, hwaiting, helapsed, (modify_ok.1 hrun).symm⟩

theorem cancelAction_ok (hrun : cancelAction env admin id s = .ok (v, t)) :
    (∃ queued, s.actions id = some queued) ∧ t = s.setAction id none := by
  simp only [cancelAction, requireAdmin_bind, get_bind, orPanic_bind, require_bind] at hrun
  obtain ⟨_, -, -, -, queued, hqueued, -, hrun⟩ := hrun
  exact ⟨⟨queued, hqueued⟩, (modify_ok.1 hrun).symm⟩

theorem administer_ok {x : AdminM Unit} (hrun : administer x s = .ok (v, t)) :
    ∃ u, x s.toAdminStore = .ok (v, u) ∧ { s with toAdminStore := u } = t := focus_ok.1 hrun

@[simp] theorem TimelockAction.write_actions (action : TimelockAction) (s : TimelockStore) :
    (action.write s).actions = s.actions := by
  cases action <;> rfl

@[simp] theorem TimelockAction.write_actionCounter (action : TimelockAction) (s : TimelockStore) :
    (action.write s).actionCounter = s.actionCounter := by
  cases action <;> rfl

/-! ## The queue -/

/-- What a call that returns does to the queue. -/
inductive Queues (c : AdminEnv × TimelockCall) (s t : TimelockStore) : Prop where
  | same (hcall : (∃ admin secs, c.2 = .setSecs admin secs) ∨ ∃ call, c.2 = .administer call)
      (hactions : t.actions = s.actions) (hcounter : t.actionCounter = s.actionCounter)
  | push (admin : Address) (action : TimelockAction) (hcall : c.2 = .queue admin action)
      (hcounter : t.actionCounter = s.actionCounter + 1)
      (hactions : t.actions = update s.actions (s.actionCounter + 1)
        (some { action := action, queuedAt := c.1.now, executed := false }))
      (hrun : queueAction c.1 admin action s = .ok (s.actionCounter + 1, t))
  | execute (id : ℕ) (queued : QueuedAction) (hcall : c.2 = .execute id)
      (hqueued : s.actions id = some queued) (hcounter : t.actionCounter = s.actionCounter)
      (hactions : t.actions = update s.actions id (some { queued with executed := true }))
  | cancel (admin : Address) (id : ℕ) (queued : QueuedAction) (hcall : c.2 = .cancel admin id)
      (hqueued : s.actions id = some queued) (hcounter : t.actionCounter = s.actionCounter)
      (hactions : t.actions = update s.actions id none)

theorem timelockStep_queues (hrun : timelockStep c s = .ok (v, t)) : Queues c s t := by
  obtain ⟨env, call⟩ := c
  cases call with
  | setSecs admin secs =>
      have hset : setTimelockSecs env admin secs s = .ok (v, t) := hrun
      obtain rfl := setTimelockSecs_ok hset
      exact .same (.inl ⟨admin, secs, rfl⟩) rfl rfl
  | queue admin action =>
      obtain ⟨id, hqueue⟩ := ignore_ok.1 hrun
      obtain ⟨rfl, hcounter, hactions, -⟩ := queueAction_ok hqueue
      exact .push admin action rfl hcounter hactions hqueue
  | execute id =>
      obtain ⟨queued, hqueued, -, -, rfl⟩ := executeAction_ok hrun
      refine .execute id queued rfl hqueued (queued.action.write_actionCounter s) ?_
      exact congrArg (fun actions => update actions id _) (queued.action.write_actions s)
  | cancel admin id =>
      have hcancel : cancelAction env admin id s = .ok (v, t) := hrun
      obtain ⟨⟨queued, hqueued⟩, rfl⟩ := cancelAction_ok hcancel
      exact .cancel admin id queued rfl hqueued rfl rfl
  | administer call =>
      obtain ⟨u, -, rfl⟩ := administer_ok hrun
      exact .same (.inr ⟨call, rfl⟩) rfl rfl

/-! ## The queue and the run -/

theorem untouched_snoc :
    Untouched s (xs ++ [c]) id ↔ Untouched s xs id ∧
      ((∃ r, timelockStep c (after s xs) = .ok r) → c.2.Spares id) := along_snoc

theorem queued_snoc : Queued s (xs ++ [c]) id queuedAt delay ↔ Queued s xs id queuedAt delay ∨
    ∃ admin action t, c.2 = .queue admin action ∧
      queueAction c.1 admin action (after s xs) = .ok (id, t) ∧
      c.1.now = queuedAt ∧ (after s xs).delay = delay := by
  constructor
  · rintro ⟨before, d, since, admin, action, t, heq, hcall, hrun, hnow, hdelay⟩
    rcases since.eq_nil_or_concat with rfl | ⟨since, e, rfl⟩
    · obtain ⟨rfl, hlast⟩ := List.append_inj' heq rfl
      obtain rfl := List.singleton_inj.1 hlast
      exact .inr ⟨admin, action, t, hcall, hrun, hnow, hdelay⟩
    · rw [List.concat_eq_append, ← List.cons_append, ← List.append_assoc] at heq
      obtain ⟨rfl, -⟩ := List.append_inj' heq rfl
      exact .inl ⟨before, d, since, admin, action, t, rfl, hcall, hrun, hnow, hdelay⟩
  · rintro (⟨before, d, since, admin, action, t, rfl, hcall, hrun, hnow, hdelay⟩ |
      ⟨admin, action, t, hcall, hrun, hnow, hdelay⟩)
    · exact ⟨before, d, since ++ [c], admin, action, t, by simp, hcall, hrun, hnow, hdelay⟩
    · exact ⟨xs, c, [], admin, action, t, rfl, hcall, hrun, hnow, hdelay⟩

/-- The queue against the calls so far: what waits was never executed or cancelled, what is stored
was queued when it says, and numbers above the counter were never used. -/
structure Recorded (s : TimelockStore) (xs : List (AdminEnv × TimelockCall)) (t : TimelockStore) : Prop where
  waiting : ∀ id q, t.actions id = some q → q.executed = false → Untouched s xs id
  stored : ∀ id q, t.actions id = some q → ∃ delay, Queued s xs id q.queuedAt delay
  queued : ∀ id queuedAt delay, Queued s xs id queuedAt delay →
    id ≤ t.actionCounter ∧ ∀ q, t.actions id = some q → q.queuedAt = queuedAt
  unused : ∀ id, t.actionCounter < id → t.actions id = none ∧ Untouched s xs id

theorem Recorded.bound (h : Recorded s xs t) {q : QueuedAction} (hq : t.actions id = some q) :
    id ≤ t.actionCounter := by
  obtain ⟨delay, hqueued⟩ := h.stored id q hq
  exact (h.queued id _ delay hqueued).1

/-- A call that queues nothing leaves the times of queueing as they are. -/
theorem queued_snoc_of_other
    (hother : ∀ admin action t, c.2 = .queue admin action →
      queueAction c.1 admin action (after s xs) ≠ .ok (id, t)) :
    Queued s (xs ++ [c]) id queuedAt delay ↔ Queued s xs id queuedAt delay := by
  rw [queued_snoc]
  constructor
  · rintro (h | ⟨admin, action, t, hcall, hrun, -⟩)
    · exact h
    · exact (hother admin action t hcall hrun).elim
  · exact .inl

/-- Calls that queue nothing and change at most the entry of one number, which they execute or
cancel. -/
theorem Recorded.keep {u : TimelockStore} (h : Recorded s xs t)
    (hother : ∀ id admin action t, c.2 = .queue admin action →
      queueAction c.1 admin action (after s xs) ≠ .ok (id, t))
    (hcounter : u.actionCounter = t.actionCounter)
    (hspares : ∀ id, ((∃ r, timelockStep c (after s xs) = .ok r) → c.2.Spares id) ∨
      (id ≤ t.actionCounter ∧ ∀ q, u.actions id = some q → q.executed = true))
    (hentries : ∀ id q, u.actions id = some q → ∃ p, t.actions id = some p ∧ q.queuedAt = p.queuedAt ∧
      (q.executed = false → p.executed = false)) :
    Recorded s (xs ++ [c]) u where
  waiting := by
    intro id q hq hwaiting
    obtain ⟨p, hp, -, hexecuted⟩ := hentries id q hq
    rcases hspares id with hspared | ⟨-, hdone⟩
    · exact untouched_snoc.2 ⟨h.waiting id p hp (hexecuted hwaiting), hspared⟩
    · rw [hdone q hq] at hwaiting
      cases hwaiting
  stored := by
    intro id q hq
    obtain ⟨p, hp, hsame, -⟩ := hentries id q hq
    obtain ⟨delay, hqueued⟩ := h.stored id p hp
    exact ⟨delay, (queued_snoc_of_other (hother id)).2 (hsame ▸ hqueued)⟩
  queued := by
    intro id queuedAt delay hqueued
    obtain ⟨hle, hsame⟩ := h.queued id queuedAt delay ((queued_snoc_of_other (hother id)).1 hqueued)
    refine ⟨hcounter ▸ hle, fun q hq => ?_⟩
    obtain ⟨p, hp, hqp, -⟩ := hentries id q hq
    exact hqp.trans (hsame p hp)
  unused := by
    intro id hid
    rw [hcounter] at hid
    obtain ⟨hnone, huntouched⟩ := h.unused id hid
    refine ⟨?_, untouched_snoc.2 ⟨huntouched, ?_⟩⟩
    · by_contra hsome
      obtain ⟨q, hq⟩ := Option.ne_none_iff_exists'.1 hsome
      obtain ⟨p, hp, -⟩ := hentries id q hq
      rw [hnone] at hp
      cases hp
    · exact (hspares id).resolve_right fun hbound => absurd hbound.1 (not_le.2 hid)

theorem Recorded.push (h : Recorded s xs (after s xs)) (hcall : c.2 = .queue admin action)
    (hcounter : t.actionCounter = (after s xs).actionCounter + 1)
    (hactions : t.actions = update (after s xs).actions ((after s xs).actionCounter + 1)
      (some { action := action, queuedAt := c.1.now, executed := false }))
    (hrun : queueAction c.1 admin action (after s xs) = .ok ((after s xs).actionCounter + 1, t)) :
    Recorded s (xs ++ [c]) t := by
  have hspares : ∀ id, c.2.Spares id := fun id => by
    rw [hcall]
    trivial
  have hnew : Queued s (xs ++ [c]) ((after s xs).actionCounter + 1) c.1.now (after s xs).delay :=
    queued_snoc.2 (.inr ⟨admin, action, t, hcall, hrun, rfl, rfl⟩)
  refine ⟨fun id q hq hwaiting => ?_, fun id q hq => ?_, fun id queuedAt delay hqueued => ?_,
    fun id hid => ?_⟩
  · refine untouched_snoc.2 ⟨?_, fun _ => hspares id⟩
    by_cases hid : id = (after s xs).actionCounter + 1
    · exact (h.unused id (by omega)).2
    · rw [hactions, update_of_ne hid] at hq
      exact h.waiting id q hq hwaiting
  · by_cases hid : id = (after s xs).actionCounter + 1
    · subst hid
      rw [hactions, update_self] at hq
      obtain rfl := Option.some.inj hq
      exact ⟨_, hnew⟩
    · rw [hactions, update_of_ne hid] at hq
      obtain ⟨delay, hqueued⟩ := h.stored id q hq
      exact ⟨delay, queued_snoc.2 (.inl hqueued)⟩
  · rcases queued_snoc.1 hqueued with hold | ⟨admin', action', t', hcall', hrun', rfl, -⟩
    · obtain ⟨hle, hsame⟩ := h.queued id queuedAt delay hold
      refine ⟨by omega, fun q hq => ?_⟩
      rw [hactions, update_of_ne (by omega)] at hq
      exact hsame q hq
    · obtain ⟨rfl, -⟩ := queueAction_ok hrun'
      refine ⟨hcounter.ge, fun q hq => ?_⟩
      rw [hactions, update_self] at hq
      obtain rfl := Option.some.inj hq
      rfl
  · rw [hcounter] at hid
    obtain ⟨hnone, huntouched⟩ := h.unused id (by omega)
    refine ⟨?_, untouched_snoc.2 ⟨huntouched, fun _ => hspares id⟩⟩
    rw [hactions, update_of_ne (by omega)]
    exact hnone

theorem Recorded.step (h : Recorded s xs (after s xs))
    (hrun : timelockStep c (after s xs) = .ok (v, t)) : Recorded s (xs ++ [c]) t := by
  obtain ⟨hcall, hactions, hcounter⟩ | ⟨admin, action, hcall, hcounter, hactions, hqueue⟩ |
    ⟨id, queued, hcall, hqueued, hcounter, hactions⟩ |
    ⟨admin, id, queued, hcall, hqueued, hcounter, hactions⟩ := timelockStep_queues hrun
  · refine h.keep ?_ hcounter (fun id => .inl fun _ => ?_) fun id q hq => ⟨q, hactions ▸ hq, rfl, fun hwaiting => hwaiting⟩
    · rintro id admin action u hqueue
      rcases hcall with ⟨_, _, hcall⟩ | ⟨_, hcall⟩ <;> rw [hcall] at hqueue <;> cases hqueue
    · rcases hcall with ⟨_, _, hcall⟩ | ⟨_, hcall⟩ <;> rw [hcall] <;> trivial
  · exact h.push hcall hcounter hactions hqueue
  · refine h.keep ?_ hcounter (fun other => ?_) fun other q hq => ?_
    · rintro other admin action u hqueue
      rw [hcall] at hqueue
      cases hqueue
    · by_cases hother : other = id
      · subst hother
        refine .inr ⟨h.bound hqueued, fun q hq => ?_⟩
        rw [hactions, update_self] at hq
        obtain rfl := Option.some.inj hq
        rfl
      · rw [hcall]
        exact .inl fun _ => Ne.symm hother
    · by_cases hother : other = id
      · subst hother
        rw [hactions, update_self] at hq
        obtain rfl := Option.some.inj hq
        exact ⟨queued, hqueued, rfl, fun hfalse => by cases hfalse⟩
      · rw [hactions, update_of_ne hother] at hq
        exact ⟨q, hq, rfl, fun hwaiting => hwaiting⟩
  · refine h.keep ?_ hcounter (fun other => ?_) fun other q hq => ?_
    · rintro other admin action u hqueue
      rw [hcall] at hqueue
      cases hqueue
    · by_cases hother : other = id
      · subst hother
        refine .inr ⟨h.bound hqueued, fun q hq => ?_⟩
        rw [hactions, update_self] at hq
        cases hq
      · rw [hcall]
        exact .inl fun _ => Ne.symm hother
    · by_cases hother : other = id
      · subst hother
        rw [hactions, update_self] at hq
        cases hq
      · rw [hactions, update_of_ne hother] at hq
        exact ⟨q, hq, rfl, fun hwaiting => hwaiting⟩

theorem Recorded.trap {e : SplitFault} (h : Recorded s xs (after s xs))
    (htrap : timelockStep c (after s xs) = .error e) : Recorded s (xs ++ [c]) (after s xs) := by
  refine h.keep ?_ rfl (fun id => .inl ?_) fun id q hq => ⟨q, hq, rfl, fun hwaiting => hwaiting⟩
  · rintro id admin action u hcall hqueue
    have hstep : timelockStep c (after s xs) = .ok ((), u) := by
      rw [timelockStep, hcall]
      exact ignore_ok.2 ⟨id, hqueue⟩
    rw [htrap] at hstep
    cases hstep
  · rintro ⟨r, hrun⟩
    rw [htrap] at hrun
    cases hrun

theorem run_recorded (hempty : ∀ id, s.actions id = none) (xs : List (AdminEnv × TimelockCall)) :
    Recorded s xs (after s xs) := by
  refine runAll_history (H := Recorded s) ?_ (fun ys c v t h _ hrun => h.step hrun)
    (fun ys c e h htrap => h.trap htrap) (along_true timelockStep s xs)
  refine ⟨fun id q hq => ?_, fun id q hq => ?_, fun id queuedAt delay hqueued => ?_,
    fun id _ => ⟨hempty id, trivial⟩⟩
  · rw [hempty id] at hq
    cases hq
  · rw [hempty id] at hq
    cases hq
  · obtain ⟨before, c, since, _, _, _, heq, -⟩ := hqueued
    simp at heq

/-! ## The signers and the fee -/

theorem approveAdminAction_fee {s t : AdminStore} {approver : Address} {hash : Hash}
    (hrun : approveAdminAction env approver hash s = .ok (v, t)) :
    t.platformFeeBps = s.platformFeeBps ∨ t.platformFeeBps.getD 0 ≤ maxPlatformFeeBps := by
  simp only [approveAdminAction, requireAuth_bind, get_bind, orPanic_bind, require_bind] at hrun
  obtain ⟨-, adminSet, -, -, p, -, -, -, hrun⟩ := hrun
  split_ifs at hrun
  · obtain ⟨_, u, hcheck, hrun⟩ := bind_ok.1 hrun
    obtain ⟨_, w, hwrite, hrun⟩ := bind_ok.1 hrun
    obtain rfl := modify_ok.1 hwrite
    obtain rfl := modify_ok.1 hrun
    obtain rfl := checkAction_ok hcheck
    cases haction : p.action with
    | setPlatformFeeBps bps =>
        rw [haction] at hcheck
        exact .inr (require_ok.1 hcheck).1
    | pauseContract => exact .inl rfl
    | unpauseContract => exact .inl rfl
    | setTreasury treasury => exact .inl rfl
    | replaceAdminSet adminSet => exact .inl rfl
  · obtain rfl := set_ok.1 hrun
    exact .inl rfl

theorem adminStep_fee {s t : AdminStore} {c : AdminEnv × AdminCall} (hrun : adminStep c s = .ok (v, t)) :
    t.platformFeeBps = s.platformFeeBps ∨ t.platformFeeBps.getD 0 ≤ maxPlatformFeeBps := by
  obtain ⟨env, call⟩ := c
  cases call with
  | setAdminSet admin signers threshold =>
      have hset : setAdminSet env admin signers threshold s = .ok (v, t) := hrun
      obtain rfl := setAdminSet_ok hset
      exact .inl rfl
  | propose proposer action =>
      obtain ⟨hash, hpropose⟩ := ignore_ok.1 hrun
      obtain ⟨adminSet, -, -, -, rfl⟩ := proposeAdminAction_ok hpropose
      exact .inl rfl
  | approve approver hash => exact approveAdminAction_fee hrun
  | pause admin =>
      obtain rfl := setPaused_ok hrun
      exact .inl rfl
  | unpause admin =>
      obtain rfl := setPaused_ok hrun
      exact .inl rfl

/-! ## The law of the time lock -/

theorem run_waited (hempty : ∀ id, s.actions id = none) (xs : List (AdminEnv × TimelockCall))
    (c : AdminEnv × TimelockCall) : Waited (fun t queuedAt _ => satAddU64 queuedAt t.delay) s xs c := by
  rintro id hcall ⟨⟨v, t⟩, hrun⟩
  have hrecorded := run_recorded hempty xs
  rw [timelockStep, hcall] at hrun
  obtain ⟨queued, hqueued, hwaiting, helapsed, -⟩ := executeAction_ok hrun
  obtain ⟨delay, hwhen⟩ := hrecorded.stored id queued hqueued
  refine ⟨hrecorded.waiting id queued hqueued hwaiting, ⟨_, delay, hwhen⟩, fun queuedAt delay' hwhen' => ?_⟩
  obtain rfl := (hrecorded.queued id queuedAt delay' hwhen').2 queued hqueued
  exact helapsed

theorem administer_withinCap {call : AdminCall} (hcall : c.2 = .administer call) : WithinCap s c := by
  intro v t hrun
  rw [timelockStep, hcall] at hrun
  obtain ⟨u, hadmin, rfl⟩ := administer_ok hrun
  exact adminStep_fee hadmin

/-- In every run from an empty queue an action is executed at most once, never after it was
cancelled and not before the delay in force has passed since it was queued; and the signers set
no fee above the cap. -/
theorem delay_law (hempty : ∀ id, s.actions id = none) (calls : List (AdminEnv × TimelockCall)) :
    DelayLaw s calls :=
  ⟨fun xs c _ => run_waited hempty xs c, fun _ _ _ _ hcall => administer_withinCap hcall⟩

def atTime (now : ℕ) : AdminEnv := { sampleAdminEnv with now := now }

/-- A fee of 500 is queued at time 100 under a delay of 60 and executed at time 160. -/
def feeInTime : List (AdminEnv × TimelockCall) :=
  [(atTime 90, .setSecs 1 60), (atTime 100, .queue 1 (.setPlatformFee 500)), (atTime 160, .execute 1)]

theorem delay_law_sample : (after {} feeInTime).fee = 500 ∧ DelayLaw {} feeInTime :=
  ⟨rfl, delay_law (fun _ => rfl) feeInTime⟩

/-- The delay is lowered to nothing while the new treasury waits. -/
def treasuryTooSoon : List (AdminEnv × TimelockCall) :=
  [(atTime 90, .setSecs 1 60), (atTime 100, .queue 1 (.setTreasury 8)), (atTime 101, .setSecs 1 0),
    (atTime 102, .execute 1)]

/-- A fee of half of each invoice. -/
def feeOverCap : List (AdminEnv × TimelockCall) :=
  [(atTime 100, .queue 1 (.setPlatformFee 5000)), (atTime 100, .execute 1)]

/-- An action takes effect 58 seconds before the notice it was queued under has passed, and another
sets a fee above the cap. -/
theorem notice_law_fails :
    ((after {} treasuryTooSoon).treasury = some 8 ∧ ¬NoticeLaw {} treasuryTooSoon) ∧
      ((after {} feeOverCap).fee = 5000 ∧ ¬NoticeLaw {} feeOverCap) := by
  refine ⟨⟨rfl, fun h => ?_⟩, rfl, fun h => ?_⟩
  · have hwaited := h.waited (treasuryTooSoon.take 3) (atTime 102, .execute 1) (List.prefix_refl _) 1 rfl
      ⟨_, rfl⟩
    have hqueued : Queued {} (treasuryTooSoon.take 3) 1 100 60 :=
      ⟨treasuryTooSoon.take 1, (atTime 100, .queue 1 (.setTreasury 8)), [(atTime 101, .setSecs 1 0)], 1,
        .setTreasury 8, _, rfl, rfl, rfl, rfl, rfl⟩
    exact absurd (hwaited.2.2 100 60 hqueued) (by decide)
  · have hcapped := h.capped (feeOverCap.take 1) (atTime 100, .execute 1) (List.prefix_refl _) () _ rfl
    revert hcapped
    decide

end StellarSplit.Split.Timelock
