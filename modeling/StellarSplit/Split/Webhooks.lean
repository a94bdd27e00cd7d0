import Mathlib.Data.List.Infix
import Mathlib.Logic.Relation
import StellarSplit.Lib.Occupancy
import StellarSplit.Lib.Runs
import StellarSplit.Lib.Trim
import StellarSplit.Split.Lock

/-!
# Webhooks and their deliveries

A registry of webhooks and a record of every delivery to one of them. A delivery is attempted
when it is dispatched and retried by anyone once its backoff is over; its outcome is counted
at the webhook. Every call on deliveries is a chain of steps that open, attempt, settle or drop
one delivery, and the books are kept by each of them.
-/

namespace StellarSplit.Split.Webhooks

open Exec Function Machine Occupancy Trim

/-! ## Records -/

structure Webhook where
  id : ℕ
  owner : Address
  endpoint : List UInt8
  target : Option Address
  eventMask : BitVec 32
  invoiceId : Option ℕ
  active : Bool
  createdAt : ℕ
  deliveredCount : ℕ
  failedCount : ℕ
  consecutiveFailures : ℕ
deriving DecidableEq

inductive DeliveryStatus where
  | pending | delivered | failed
deriving DecidableEq, Repr

structure WebhookDelivery where
  id : ℕ
  webhookId : ℕ
  invoiceId : ℕ
  event : BitVec 32
  status : DeliveryStatus
  attempts : ℕ
  createdLedger : ℕ
  lastAttemptLedger : ℕ
  nextRetryLedger : ℕ
deriving DecidableEq

/-- The event that publishes an attempt, with the number of its ledger. -/
structure Send where
  webhookId : ℕ
  deliveryId : ℕ
  invoiceId : ℕ
  event : BitVec 32
  attempt : ℕ
  endpoint : List UInt8
  ledger : ℕ
deriving DecidableEq

/-- The storage of the webhooks, and the attempts they publish. -/
structure WebhookStore where
  nextWebhookId : Option ℕ := none
  nextDeliveryId : Option ℕ := none
  webhookIds : Option (List ℕ) := none
  webhook : ℕ → Option Webhook := fun _ => none
  ownerWebhooks : Address → Option (List ℕ) := fun _ => none
  delivery : ℕ → Option WebhookDelivery := fun _ => none
  webhookDeliveries : ℕ → Option (List ℕ) := fun _ => none
  sends : List Send := []

/-- The ledger, and whether a target takes a delivery of an event on an invoice. -/
structure HookEnv extends Ledger Memo where
  takes : Address → ℕ → ℕ → BitVec 32 → Bool

abbrev HookM (α : Type) := Call WebhookStore SplitFault α

def eventCreated : BitVec 32 := 1

def eventPaid : BitVec 32 := 2

def eventReleased : BitVec 32 := 4

def eventRefunded : BitVec 32 := 8

def eventCancelled : BitVec 32 := 16

def eventAll : BitVec 32 := eventCreated ||| eventPaid ||| eventReleased ||| eventRefunded ||| eventCancelled

def maxWebhooks : ℕ := 20

def maxWebhooksPerOwner : ℕ := 5

def maxEndpointLen : ℕ := 256

def maxDeliveryAttempts : ℕ := 5

def retryBaseLedgers : ℕ := 12

def retryMaxBackoffLedgers : ℕ := 720

def autoDisableFailures : ℕ := 10

def maxTrackedDeliveries : ℕ := 50

namespace WebhookStore

def nextWebhook (s : WebhookStore) : ℕ := s.nextWebhookId.getD 1

def nextDelivery (s : WebhookStore) : ℕ := s.nextDeliveryId.getD 1

def ids (s : WebhookStore) : List ℕ := s.webhookIds.getD []

def owned (s : WebhookStore) (owner : Address) : List ℕ := (s.ownerWebhooks owner).getD []

def saveWebhook (s : WebhookStore) (webhook : Webhook) : WebhookStore :=
  { s with webhook := update s.webhook webhook.id (some webhook) }

def saveDelivery (s : WebhookStore) (delivery : WebhookDelivery) : WebhookStore :=
  { s with delivery := update s.delivery delivery.id (some delivery) }

end WebhookStore

def loadWebhook (webhookId : ℕ) : HookM Webhook := do
  let s ← get
  orPanic (s.webhook webhookId) "webhook not found"

def loadDelivery (deliveryId : ℕ) : HookM WebhookDelivery := do
  let s ← get
  orPanic (s.delivery deliveryId) "delivery not found"

def validateConfig (endpoint : List UInt8) (target : Option Address) (eventMask : BitVec 32) : HookM Unit := do
  require (¬(eventMask = 0 ∨ eventMask &&& ~~~eventAll ≠ 0)) (.panic "invalid webhook event mask")
  require (endpoint.length ≤ maxEndpointLen) (.panic "webhook endpoint too long")
  require (¬(endpoint = [] ∧ target = none)) (.panic "webhook requires an endpoint or target")

/-- The backoff after some failed attempts. -/
def backoffLedgers (attempts : ℕ) : ℕ :=
  min (min (retryBaseLedgers * 2 ^ min (attempts - 1) 16) u32Max) retryMaxBackoffLedgers

/-! ## Management -/

def register (env : HookEnv) (owner : Address) (endpoint : List UInt8) (target : Option Address)
    (eventMask : BitVec 32) (invoiceId : Option ℕ) : HookM ℕ := do
  requireAuth env.toLedger owner
  validateConfig endpoint target eventMask
  let s ← get
  require (s.ids.length < maxWebhooks) (.panic "webhook limit reached")
  require ((s.owned owner).length < maxWebhooksPerOwner) (.panic "owner webhook limit reached")
  require (s.nextWebhook < u64Max) .overflow
  set { s.saveWebhook
      { id := s.nextWebhook
        owner := owner
        endpoint := endpoint
        target := target
        eventMask := eventMask
        invoiceId := invoiceId
        active := true
        createdAt := env.now
        deliveredCount := 0
        failedCount := 0
        consecutiveFailures := 0 } with
    nextWebhookId := some (s.nextWebhook + 1)
    webhookIds := some (s.ids ++ [s.nextWebhook])
    ownerWebhooks := update s.ownerWebhooks owner (some (s.owned owner ++ [s.nextWebhook])) }
  pure s.nextWebhook

def updateWebhook (env : HookEnv) (owner : Address) (webhookId : ℕ) (endpoint : List UInt8)
    (target : Option Address) (eventMask : BitVec 32) (invoiceId : Option ℕ) (active : Bool) : HookM Unit := do
  requireAuth env.toLedger owner
  let webhook ← loadWebhook webhookId
  require (webhook.owner = owner) (.panic "not webhook owner")
  validateConfig endpoint target eventMask
  modify fun s => s.saveWebhook { webhook with
    endpoint := endpoint
    target := target
    eventMask := eventMask
    invoiceId := invoiceId
    consecutiveFailures := if active && !webhook.active then 0 else webhook.consecutiveFailures
    active := active }

def remove (env : HookEnv) (caller : Address) (webhookId : ℕ) (force : Bool) : HookM Unit := do
  onlyIf (force = false) (requireAuth env.toLedger caller)
  let webhook ← loadWebhook webhookId
  require (force = true ∨ webhook.owner = caller) (.panic "not webhook owner")
  modify fun s => { s with
    webhookIds := some (s.ids.erase webhookId)
    ownerWebhooks := update s.ownerWebhooks webhook.owner (some ((s.owned webhook.owner).erase webhookId))
    webhook := update s.webhook webhookId none }

/-! ## Delivery -/

def IsMatch (webhook : Webhook) (invoiceId : ℕ) (event : BitVec 32) : Prop :=
  webhook.active = true ∧ webhook.eventMask &&& event ≠ 0 ∧ webhook.invoiceId.getD invoiceId = invoiceId

instance (webhook : Webhook) (invoiceId : ℕ) (event : BitVec 32) : Decidable (IsMatch webhook invoiceId event) :=
  inferInstanceAs (Decidable (_ ∧ _ ∧ _))

/-- The webhook after a delivery that failed for good. -/
def Webhook.countFailure (webhook : Webhook) : Webhook :=
  { webhook with
    failedCount := webhook.failedCount + 1
    consecutiveFailures := satAddU32 webhook.consecutiveFailures 1
    active :=
      if autoDisableFailures ≤ satAddU32 webhook.consecutiveFailures 1 then false else webhook.active }

/-- Store a delivery and its webhook. -/
def saveOutcome (webhook : Webhook) (delivery : WebhookDelivery) : HookM WebhookDelivery := do
  modify fun s => (s.saveDelivery delivery).saveWebhook webhook
  pure delivery

def recordOutcome (env : HookEnv) (webhook : Webhook) (delivery : WebhookDelivery) (success : Bool) :
    HookM WebhookDelivery :=
  if success = true then do
    require (webhook.deliveredCount < u64Max) .overflow
    saveOutcome { webhook with deliveredCount := webhook.deliveredCount + 1, consecutiveFailures := 0 }
      { delivery with status := .delivered, nextRetryLedger := 0 }
  else if maxDeliveryAttempts ≤ delivery.attempts then do
    require (webhook.failedCount < u64Max) .overflow
    saveOutcome webhook.countFailure { delivery with status := .failed, nextRetryLedger := 0 }
  else
    saveOutcome webhook { delivery with
      status := .pending
      nextRetryLedger := satAddU32 env.sequence (backoffLedgers delivery.attempts) }

/-- The delivery during one more attempt. -/
def WebhookDelivery.attempted (delivery : WebhookDelivery) (ledger : ℕ) : WebhookDelivery :=
  { delivery with
    attempts := delivery.attempts + 1
    lastAttemptLedger := ledger }

def sendOf (webhook : Webhook) (delivery : WebhookDelivery) (ledger : ℕ) : Send :=
  ⟨webhook.id, delivery.id, delivery.invoiceId, delivery.event, delivery.attempts, webhook.endpoint, ledger⟩

/-- Perform one delivery attempt and persist the outcome. -/
def attempt (env : HookEnv) (webhook : Webhook) (delivery : WebhookDelivery) : HookM WebhookDelivery := do
  require (delivery.attempts < u32Max) .overflow
  let delivery := delivery.attempted env.sequence
  modify fun s => { s with sends := s.sends ++ [sendOf webhook delivery env.sequence] }
  match webhook.target with
  | some target =>
      recordOutcome env webhook delivery (env.takes target delivery.id delivery.invoiceId delivery.event)
  | none => do
      let delivery := { delivery with
        nextRetryLedger := satAddU32 env.sequence (backoffLedgers delivery.attempts) }
      modify fun s => s.saveDelivery delivery
      pure delivery

/-- The storage with the next number taken for a delivery of a webhook and tracked there. -/
def WebhookStore.trackDelivery (s : WebhookStore) (webhookId : ℕ) : WebhookStore :=
  { s with
    nextDeliveryId := some (s.nextDelivery + 1)
    webhookDeliveries := update s.webhookDeliveries webhookId
      (some (popFront maxTrackedDeliveries ((s.webhookDeliveries webhookId).getD [] ++ [s.nextDelivery]))) }

def openDelivery (webhookId : ℕ) : HookM ℕ := do
  let s ← get
  require (s.nextDelivery < u64Max) .overflow
  set (s.trackDelivery webhookId)
  pure s.nextDelivery

def newDelivery (id webhookId invoiceId : ℕ) (event : BitVec 32) (ledger : ℕ) : WebhookDelivery where
  id := id
  webhookId := webhookId
  invoiceId := invoiceId
  event := event
  status := .pending
  attempts := 0
  createdLedger := ledger
  lastAttemptLedger := 0
  nextRetryLedger := 0

/-- One round of the loop over the webhooks. -/
def dispatchTo (env : HookEnv) (invoiceId : ℕ) (event : BitVec 32) (webhookId : ℕ) : HookM Unit := do
  let s ← get
  match s.webhook webhookId with
  | none => pure ()
  | some webhook =>
      if IsMatch webhook invoiceId event then do
        let id ← openDelivery webhookId
        ignore (attempt env webhook (newDelivery id webhookId invoiceId event env.sequence))
      else pure ()

def dispatch (env : HookEnv) (invoiceId : ℕ) (event : BitVec 32) : HookM Unit := do
  let s ← get
  if event = 0 then pure () else forM s.ids (dispatchTo env invoiceId event)

/-- A delivery that is given up, since its webhook is not there or not active. -/
def WebhookDelivery.dropped (delivery : WebhookDelivery) : WebhookDelivery :=
  { delivery with
    status := .failed
    nextRetryLedger := 0 }

def retry (env : HookEnv) (deliveryId : ℕ) : HookM DeliveryStatus := do
  let delivery ← loadDelivery deliveryId
  require (delivery.status = .pending) (.panic "delivery is not pending")
  require (delivery.nextRetryLedger ≤ env.sequence) (.panic "retry not yet due")
  let s ← get
  match (s.webhook delivery.webhookId).filter Webhook.active with
  | none => do
      modify fun s => s.saveDelivery delivery.dropped
      pure .failed
  | some webhook =>
      if maxDeliveryAttempts ≤ delivery.attempts then
        WebhookDelivery.status <$> recordOutcome env webhook delivery false
      else WebhookDelivery.status <$> attempt env webhook delivery

def ack (env : HookEnv) (owner : Address) (deliveryId : ℕ) (success : Bool) : HookM DeliveryStatus := do
  requireAuth env.toLedger owner
  let delivery ← loadDelivery deliveryId
  let webhook ← loadWebhook delivery.webhookId
  require (webhook.owner = owner) (.panic "not webhook owner")
  require (delivery.status = .pending) (.panic "delivery is not pending")
  WebhookDelivery.status <$> recordOutcome env webhook delivery success

/-! ## Steps on one delivery -/

section Steps

variable {env : HookEnv} {s t : WebhookStore} {w w' : Webhook} {x y : WebhookDelivery} {ledger : ℕ}

/-- What a delivery and its webhook become when an outcome is recorded. -/
inductive Outcome (ledger : ℕ) (w : Webhook) (x : WebhookDelivery) : Webhook → WebhookDelivery → Prop where
  | delivered : Outcome ledger w x { w with deliveredCount := w.deliveredCount + 1, consecutiveFailures := 0 }
      { x with status := .delivered, nextRetryLedger := 0 }
  | failed : Outcome ledger w x w.countFailure { x with status := .failed, nextRetryLedger := 0 }
  | pending : Outcome ledger w x w
      { x with status := .pending, nextRetryLedger := satAddU32 ledger (backoffLedgers x.attempts) }

def WebhookStore.sent (s : WebhookStore) (send : Send) : WebhookStore := { s with sends := s.sends ++ [send] }

/-- The storage with a delivery that was opened and not attempted yet. -/
def WebhookStore.opened (s : WebhookStore) (webhookId invoiceId : ℕ) (event : BitVec 32) (ledger : ℕ) :
    WebhookStore :=
  (s.trackDelivery webhookId).saveDelivery (newDelivery s.nextDelivery webhookId invoiceId event ledger)

/-- A step on one delivery: it is opened, attempted, settled without an attempt, or dropped. -/
inductive Moves (ledger : ℕ) (s : WebhookStore) : WebhookStore → Prop where
  | opened {w : Webhook} (webhookId invoiceId : ℕ) (event : BitVec 32) (hw : s.webhook webhookId = some w) :
      Moves ledger s (s.opened webhookId invoiceId event ledger)
  | attempted {w w' : Webhook} {x y : WebhookDelivery} (hw : s.webhook x.webhookId = some w) (hx : s.delivery x.id = some x)
      (hpending : x.status = .pending) (hdue : x.nextRetryLedger ≤ ledger)
      (hfew : x.attempts < maxDeliveryAttempts) (hout : Outcome ledger w (x.attempted ledger) w' y) :
      Moves ledger s (((s.sent (sendOf w (x.attempted ledger) ledger)).saveDelivery y).saveWebhook w')
  | settled {w w' : Webhook} {x y : WebhookDelivery} (hw : s.webhook x.webhookId = some w) (hx : s.delivery x.id = some x)
      (hpending : x.status = .pending) (hout : Outcome ledger w x w' y) :
      Moves ledger s ((s.saveDelivery y).saveWebhook w')
  | dropped {x : WebhookDelivery} (hx : s.delivery x.id = some x) (hpending : x.status = .pending) :
      Moves ledger s (s.saveDelivery x.dropped)

theorem saveOutcome_ok (hrun : saveOutcome w x s = .ok (y, t)) : x = y ∧ (s.saveDelivery x).saveWebhook w = t := by
  obtain ⟨_, u, hmodify, hpure⟩ := bind_ok.1 hrun
  obtain rfl := modify_ok.1 hmodify
  obtain ⟨rfl, rfl⟩ := pure_ok.1 hpure
  exact ⟨rfl, rfl⟩

theorem recordOutcome_ok {success : Bool} (hrun : recordOutcome env w x success s = .ok (y, t)) :
    ∃ w', Outcome env.sequence w x w' y ∧ (s.saveDelivery y).saveWebhook w' = t := by
  unfold recordOutcome at hrun
  split_ifs at hrun
  · obtain ⟨-, hsave⟩ := require_bind.1 hrun
    obtain ⟨rfl, hsaved⟩ := saveOutcome_ok hsave
    exact ⟨_, .delivered, hsaved⟩
  · obtain ⟨-, hsave⟩ := require_bind.1 hrun
    obtain ⟨rfl, hsaved⟩ := saveOutcome_ok hsave
    exact ⟨_, .failed, hsaved⟩
  · obtain ⟨rfl, hsaved⟩ := saveOutcome_ok hrun
    exact ⟨_, .pending, hsaved⟩

theorem saveWebhook_self (hw : s.webhook w.id = some w) : s.saveWebhook w = s := by
  unfold WebhookStore.saveWebhook
  rw [← hw, update_eq_self]

theorem attempt_ok (hw : s.webhook w.id = some w) (hpending : x.status = .pending)
    (hrun : attempt env w x s = .ok (y, t)) :
    ∃ w', Outcome env.sequence w (x.attempted env.sequence) w' y ∧
      ((s.sent (sendOf w (x.attempted env.sequence) env.sequence)).saveDelivery y).saveWebhook w' = t := by
  obtain ⟨-, hrun⟩ := require_bind.1 hrun
  obtain ⟨_, u, hmodify, hrun⟩ := bind_ok.1 hrun
  obtain rfl := modify_ok.1 hmodify
  cases htarget : w.target with
  | some target =>
      rw [htarget] at hrun
      exact recordOutcome_ok hrun
  | none =>
      rw [htarget] at hrun
      obtain ⟨_, u', hmodify', hpure⟩ := bind_ok.1 hrun
      obtain rfl := modify_ok.1 hmodify'
      obtain ⟨rfl, rfl⟩ := pure_ok.1 hpure
      refine ⟨w, ?_, saveWebhook_self hw⟩
      have hstep : Outcome env.sequence w (x.attempted env.sequence) w _ := .pending
      rwa [← hpending] at hstep

end Steps

/-! ## The registry -/

section Registry

variable {s t : WebhookStore} {w w' : Webhook} {x y : WebhookDelivery} {ledger k : ℕ} {owner : Address}

/-- The lists hold the ids of the stored webhooks, and no active webhook has failed too often. -/
structure Registered (s : WebhookStore) : Prop where
  numbered : ∀ k w, s.webhook k = some w → w.id = k ∧ k < s.nextWebhook
  nodup : s.ids.Nodup
  mem_ids : ∀ k, k ∈ s.ids ↔ ∃ w, s.webhook k = some w
  few : s.ids.length ≤ maxWebhooks
  ownedNodup : ∀ owner, (s.owned owner).Nodup
  mem_owned : ∀ owner k, k ∈ s.owned owner ↔ ∃ w, s.webhook k = some w ∧ w.owner = owner
  ownedFew : ∀ owner, (s.owned owner).length ≤ maxWebhooksPerOwner
  active : ∀ k w, s.webhook k = some w → w.active = true → w.consecutiveFailures < autoDisableFailures

theorem registered_empty : Registered {} where
  numbered k w hw := by cases hw
  nodup := List.nodup_nil
  mem_ids k := by simp [WebhookStore.ids]
  few := Nat.zero_le _
  ownedNodup owner := List.nodup_nil
  mem_owned owner k := by simp [WebhookStore.owned]
  ownedFew owner := Nat.zero_le _
  active k w hw := by cases hw

/-- A webhook that is stored again under its id keeps its places in the lists. -/
theorem Registered.saveWebhook (h : Registered s) (hw : s.webhook w.id = some w) (hid : w'.id = w.id)
    (howner : w'.owner = w.owner) (hactive : w'.active = true → w'.consecutiveFailures < autoDisableFailures) :
    Registered (s.saveWebhook w') := by
  have hself : (s.saveWebhook w').webhook w.id = some w' := by
    unfold WebhookStore.saveWebhook
    rw [hid]
    exact update_self _ _ _
  have hother : ∀ k, k ≠ w.id → (s.saveWebhook w').webhook k = s.webhook k := by
    intro k hk
    unfold WebhookStore.saveWebhook
    rw [hid]
    exact update_of_ne hk _ _
  have hnumbered := h.numbered w.id w hw
  refine ⟨fun k v hv => ?_, h.nodup, fun k => (h.mem_ids k).trans ?_, h.few, h.ownedNodup,
    fun owner k => (h.mem_owned owner k).trans ?_, h.ownedFew, fun k v hv => ?_⟩
  · rcases eq_or_ne k w.id with rfl | hk
    · rw [hself] at hv
      obtain rfl := Option.some.inj hv
      exact ⟨hid, hnumbered.2⟩
    · rw [hother k hk] at hv
      exact h.numbered k v hv
  · rcases eq_or_ne k w.id with rfl | hk
    · rw [hself, hw]
      exact ⟨fun _ => ⟨w', rfl⟩, fun _ => ⟨w, rfl⟩⟩
    · rw [hother k hk]
  · rcases eq_or_ne k w.id with rfl | hk
    · rw [hself, hw]
      constructor
      · rintro ⟨v, hv, rfl⟩
        obtain rfl := Option.some.inj hv
        exact ⟨w', rfl, howner⟩
      · rintro ⟨v, hv, rfl⟩
        obtain rfl := Option.some.inj hv
        exact ⟨w, rfl, howner.symm⟩
    · rw [hother k hk]
  · rcases eq_or_ne k w.id with rfl | hk
    · rw [hself] at hv
      obtain rfl := Option.some.inj hv
      exact hactive
    · rw [hother k hk] at hv
      exact h.active k v hv

theorem Outcome.id_eq (h : Outcome ledger w x w' y) : w'.id = w.id ∧ w'.owner = w.owner := by
  cases h <;> exact ⟨rfl, rfl⟩

theorem Outcome.active (h : Outcome ledger w x w' y)
    (hw : w.active = true → w.consecutiveFailures < autoDisableFailures) :
    w'.active = true → w'.consecutiveFailures < autoDisableFailures := by
  cases h with
  | delivered => exact fun _ => Nat.succ_pos _
  | failed =>
      intro hactive
      unfold Webhook.countFailure at hactive ⊢
      dsimp only at hactive ⊢
      split_ifs at hactive with hmany
      exact not_le.1 hmany
  | pending => exact hw

theorem Registered.congr (h : Registered s) (hwebhook : t.webhook = s.webhook) (hids : t.ids = s.ids)
    (howned : t.owned = s.owned) (hnext : t.nextWebhook = s.nextWebhook) : Registered t := by
  refine ⟨?_, ?_, ?_, ?_, ?_, ?_, ?_, ?_⟩
  · rw [hwebhook, hnext]
    exact h.numbered
  · rw [hids]
    exact h.nodup
  · rw [hids, hwebhook]
    exact h.mem_ids
  · rw [hids]
    exact h.few
  · rw [howned]
    exact h.ownedNodup
  · rw [howned, hwebhook]
    exact h.mem_owned
  · rw [howned]
    exact h.ownedFew
  · rw [hwebhook]
    exact h.active

theorem Registered.outcome (h : Registered s) (hw : s.webhook k = some w) (hout : Outcome ledger w x w' y) :
    Registered (s.saveWebhook w') := by
  obtain ⟨rfl, -⟩ := h.numbered k w hw
  exact h.saveWebhook hw hout.id_eq.1 hout.id_eq.2 (hout.active (h.active _ w hw))

theorem Registered.moves (h : Registered s) (hmoves : Moves ledger s t) : Registered t := by
  cases hmoves with
  | opened webhookId invoiceId event hw => exact h.congr rfl rfl rfl rfl
  | attempted hw hx hpending hdue hfew hout =>
      exact Registered.outcome (h.congr rfl rfl rfl rfl) hw hout
  | settled hw hx hpending hout => exact Registered.outcome (h.congr rfl rfl rfl rfl) hw hout
  | dropped hx hpending => exact h.congr rfl rfl rfl rfl

end Registry

/-! ## The counters -/

section Counters

variable {s t : WebhookStore} {w w' : Webhook} {x y : WebhookDelivery} {ledger k d : ℕ} {st : DeliveryStatus}

/-- The webhook and the status of a delivery. -/
def WebhookStore.seatOf (s : WebhookStore) (d : ℕ) : Option (ℕ × DeliveryStatus) :=
  (s.delivery d).map fun x => (x.webhookId, x.status)

/-- How many deliveries of a webhook have a status. -/
def WebhookStore.countOf (s : WebhookStore) (k : ℕ) (st : DeliveryStatus) : ℕ :=
  seats (Finset.range s.nextDelivery) s.seatOf (k, st)

/-- The deliveries are numbered, and the counters of a webhook are those of its deliveries. -/
structure Booked (s : WebhookStore) : Prop where
  numbered : ∀ d x, s.delivery d = some x → x.id = d ∧ d < s.nextDelivery ∧ x.webhookId < s.nextWebhook
  delivered : ∀ k w, s.webhook k = some w → w.deliveredCount = s.countOf k .delivered
  failed : ∀ k w, s.webhook k = some w → w.failedCount ≤ s.countOf k .failed

theorem booked_empty : Booked {} where
  numbered d x hx := by cases hx
  delivered k w hw := by cases hw
  failed k w hw := by cases hw

theorem Booked.congr (h : Booked s) (hdelivery : t.delivery = s.delivery) (hwebhook : t.webhook = s.webhook)
    (hnext : t.nextDelivery = s.nextDelivery) (hnext' : t.nextWebhook = s.nextWebhook) : Booked t := by
  have hcount : t.countOf = s.countOf := by
    funext k st
    unfold WebhookStore.countOf WebhookStore.seatOf
    rw [hdelivery, hnext]
  refine ⟨?_, ?_, ?_⟩
  · rw [hdelivery, hnext, hnext']
    exact h.numbered
  · rw [hwebhook, hcount]
    exact h.delivered
  · rw [hwebhook, hcount]
    exact h.failed

theorem saveDelivery_self (hid : y.id = d) : (s.saveDelivery y).delivery d = some y := by
  unfold WebhookStore.saveDelivery
  rw [← hid]
  exact update_self _ _ _

theorem saveDelivery_of_ne (hd : d ≠ y.id) : (s.saveDelivery y).delivery d = s.delivery d :=
  update_of_ne hd _ _

/-- A pending delivery that is settled counts for its new status. -/
theorem countOf_saveDelivery (hx : s.delivery x.id = some x) (hlt : x.id < s.nextDelivery)
    (hpending : x.status = .pending) (hid : y.id = x.id) (hwebhook : y.webhookId = x.webhookId)
    (hst : st ≠ .pending) :
    (s.saveDelivery y).countOf k st = s.countOf k st + if x.webhookId = k ∧ y.status = st then 1 else 0 := by
  have hothers : ∀ j, j ≠ x.id → (s.saveDelivery y).seatOf j = s.seatOf j := by
    intro j hj
    unfold WebhookStore.seatOf
    rw [saveDelivery_of_ne (hid ▸ hj)]
  have hchange := seats_change (Finset.mem_range.2 hlt) hothers (k, st)
  have hbefore : s.seatOf x.id = some (x.webhookId, .pending) := by
    unfold WebhookStore.seatOf
    rw [hx, Option.map_some, hpending]
  have hafter : (s.saveDelivery y).seatOf x.id = some (x.webhookId, y.status) := by
    unfold WebhookStore.seatOf
    rw [saveDelivery_self hid, Option.map_some, hwebhook]
  have hnot : ¬some (x.webhookId, DeliveryStatus.pending) = some (k, st) := by
    rintro ⟨⟩
    exact hst rfl
  rw [hbefore, hafter, if_neg hnot, add_zero] at hchange
  unfold WebhookStore.countOf
  rw [show (s.saveDelivery y).nextDelivery = s.nextDelivery from rfl, hchange]
  simp only [Option.some.injEq, Prod.mk.injEq]

/-- A new delivery is pending, and counts for no other status. -/
theorem countOf_opened {webhookId invoiceId : ℕ} {event : BitVec 32} (hst : st ≠ .pending) :
    (s.opened webhookId invoiceId event ledger).countOf k st = s.countOf k st := by
  have hnew : (s.opened webhookId invoiceId event ledger).seatOf s.nextDelivery = some (webhookId, .pending) := by
    unfold WebhookStore.seatOf
    rw [show (s.opened webhookId invoiceId event ledger).delivery s.nextDelivery = _ from saveDelivery_self rfl]
    rfl
  have hold : seats (Finset.range s.nextDelivery) (s.opened webhookId invoiceId event ledger).seatOf (k, st) =
      seats (Finset.range s.nextDelivery) s.seatOf (k, st) := by
    refine seats_congr (fun d hd => ?_) _
    unfold WebhookStore.seatOf
    rw [show (s.opened webhookId invoiceId event ledger).delivery d = s.delivery d from
      saveDelivery_of_ne (Finset.mem_range.1 hd).ne]
  have hnot : ¬some (webhookId, DeliveryStatus.pending) = some (k, st) := by
    rintro ⟨⟩
    exact hst rfl
  unfold WebhookStore.countOf
  rw [show (s.opened webhookId invoiceId event ledger).nextDelivery = s.nextDelivery + 1 from rfl, seats_range_succ,
    hnew, if_neg hnot, hold, add_zero]

theorem Outcome.delivery_eq (h : Outcome ledger w x w' y) : y.id = x.id ∧ y.webhookId = x.webhookId := by
  cases h <;> exact ⟨rfl, rfl⟩

/-- An outcome is counted at its webhook and at no other. -/
theorem Booked.outcome (h : Booked s) (hregistered : Registered s) (hw : s.webhook x.webhookId = some w)
    (hx : s.delivery x.id = some x) (hpending : x.status = .pending) {x' : WebhookDelivery}
    (hout : Outcome ledger w x' w' y) (hx' : x'.id = x.id ∧ x'.webhookId = x.webhookId) :
    Booked ((s.saveDelivery y).saveWebhook w') := by
  obtain ⟨-, hlt, hknown⟩ := h.numbered x.id x hx
  have hyid : y.id = x.id := hout.delivery_eq.1.trans hx'.1
  have hywebhook : y.webhookId = x.webhookId := hout.delivery_eq.2.trans hx'.2
  have hwid : w'.id = x.webhookId := hout.id_eq.1.trans (hregistered.numbered _ w hw).1
  have hcount : ∀ k st, st ≠ DeliveryStatus.pending → ((s.saveDelivery y).saveWebhook w').countOf k st =
      s.countOf k st + if x.webhookId = k ∧ y.status = st then 1 else 0 :=
    fun k st hst => countOf_saveDelivery hx hlt hpending hyid hywebhook hst
  have hself : ((s.saveDelivery y).saveWebhook w').webhook x.webhookId = some w' := by
    unfold WebhookStore.saveWebhook
    rw [hwid]
    exact update_self _ _ _
  have hother : ∀ k, k ≠ x.webhookId → ((s.saveDelivery y).saveWebhook w').webhook k = s.webhook k := by
    intro k hk
    unfold WebhookStore.saveWebhook
    rw [hwid]
    exact update_of_ne hk _ _
  refine ⟨fun d z hz => ?_, fun k v hv => ?_, fun k v hv => ?_⟩
  · rcases eq_or_ne d x.id with rfl | hd
    · rw [show ((s.saveDelivery y).saveWebhook w').delivery x.id = some y from saveDelivery_self hyid] at hz
      obtain rfl := Option.some.inj hz
      exact ⟨hyid, hlt, hywebhook ▸ hknown⟩
    · rw [show ((s.saveDelivery y).saveWebhook w').delivery d = s.delivery d from
        saveDelivery_of_ne (hyid ▸ hd)] at hz
      exact h.numbered d z hz
  · rw [hcount k .delivered (by decide)]
    rcases eq_or_ne k x.webhookId with rfl | hk
    · rw [hself] at hv
      obtain rfl := Option.some.inj hv
      rw [← h.delivered _ w hw]
      cases hout <;> simp [Webhook.countFailure]
    · rw [hother k hk] at hv
      rw [if_neg (fun hand => hk hand.1.symm), add_zero]
      exact h.delivered k v hv
  · rw [hcount k .failed (by decide)]
    rcases eq_or_ne k x.webhookId with rfl | hk
    · rw [hself] at hv
      obtain rfl := Option.some.inj hv
      have hfailed := h.failed _ w hw
      cases hout <;> simpa [Webhook.countFailure] using hfailed
    · rw [hother k hk] at hv
      exact (h.failed k v hv).trans (Nat.le_add_right _ _)

theorem Booked.moves (h : Booked s) (hregistered : Registered s) (hmoves : Moves ledger s t) : Booked t := by
  cases hmoves with
  | @opened w webhookId invoiceId event hw =>
      refine ⟨fun d x hx => ?_, fun k v hv => ?_, fun k v hv => ?_⟩
      · have hnext : (s.opened webhookId invoiceId event ledger).nextDelivery = s.nextDelivery + 1 := rfl
        rw [hnext]
        rcases eq_or_ne d s.nextDelivery with rfl | hd
        · rw [show (s.opened webhookId invoiceId event ledger).delivery s.nextDelivery = _ from
            saveDelivery_self rfl] at hx
          obtain rfl := Option.some.inj hx
          exact ⟨rfl, Nat.lt_succ_self _, (hregistered.numbered webhookId w hw).2⟩
        · rw [show (s.opened webhookId invoiceId event ledger).delivery d = s.delivery d from
            saveDelivery_of_ne hd] at hx
          obtain ⟨hid, hlt, hknown⟩ := h.numbered d x hx
          exact ⟨hid, hlt.trans (Nat.lt_succ_self _), hknown⟩
      · rw [countOf_opened (by decide)]
        exact h.delivered k v hv
      · rw [countOf_opened (by decide)]
        exact h.failed k v hv
  | attempted hw hx hpending hdue hfew hout =>
      exact Booked.outcome (h.congr rfl rfl rfl rfl) (hregistered.congr rfl rfl rfl rfl) hw hx hpending hout ⟨rfl, rfl⟩
  | settled hw hx hpending hout => exact h.outcome hregistered hw hx hpending hout ⟨rfl, rfl⟩
  | @dropped x hx hpending =>
      obtain ⟨-, hlt, hknown⟩ := h.numbered x.id x hx
      refine ⟨fun d z hz => ?_, fun k v hv => ?_, fun k v hv => ?_⟩
      · rcases eq_or_ne d x.id with rfl | hd
        · rw [saveDelivery_self (y := x.dropped) (d := x.id) rfl] at hz
          obtain rfl := Option.some.inj hz
          exact ⟨rfl, hlt, hknown⟩
        · rw [saveDelivery_of_ne (y := x.dropped) hd] at hz
          exact h.numbered d z hz
      · rw [countOf_saveDelivery (y := x.dropped) hx hlt hpending rfl rfl (by decide),
          if_neg (by simp [WebhookDelivery.dropped]), add_zero]
        exact h.delivered k v hv
      · rw [countOf_saveDelivery (y := x.dropped) hx hlt hpending rfl rfl (by decide)]
        exact (h.failed k v hv).trans (Nat.le_add_right _ _)

end Counters

/-! ## The schedule -/

section Schedule

variable {s t : WebhookStore} {w w' : Webhook} {x y : WebhookDelivery} {ledger now d : ℕ} {l : List Send} {a : Send}

/-- An attempt leaves the backoff of the one before, unless it comes at the last ledger number. -/
def SpacedFrom (a b : Send) : Prop := b.ledger < u32Max → a.ledger + backoffLedgers a.attempt ≤ b.ledger

/-- A delivery against its attempts: they are numbered from one and spaced, and no retry is due before
the backoff of the last one is over. -/
structure Paced (l : List Send) (x : WebhookDelivery) : Prop where
  numbered : l.map Send.attempt = List.range' 1 x.attempts
  spaced : l.IsChain SpacedFrom
  due : x.status = .pending → ∀ a, l.getLast? = some a →
    satAddU32 a.ledger (backoffLedgers a.attempt) ≤ x.nextRetryLedger
  few : x.attempts ≤ maxDeliveryAttempts

theorem paced_new {id webhookId invoiceId : ℕ} {event : BitVec 32} :
    Paced [] (newDelivery id webhookId invoiceId event ledger) :=
  ⟨rfl, List.IsChain.nil, by simp, Nat.zero_le _⟩

theorem Outcome.attempts (h : Outcome ledger w x w' y) : y.attempts = x.attempts := by
  cases h <;> rfl

theorem Outcome.due (h : Outcome ledger w x w' y) (hpending : y.status = .pending) :
    y.nextRetryLedger = satAddU32 ledger (backoffLedgers x.attempts) := by
  cases h with
  | delivered => cases hpending
  | failed => cases hpending
  | pending => rfl

theorem Paced.last_attempt (h : Paced l x) (ha : l.getLast? = some a) : a.attempt = x.attempts := by
  have hlast := congrArg List.getLast? h.numbered
  have hpos : x.attempts ≠ 0 := by
    intro hzero
    have hnil := h.numbered
    rw [hzero, List.range'_zero, List.map_eq_nil_iff] at hnil
    rw [hnil] at ha
    cases ha
  rw [List.getLast?_map, ha, List.getLast?_range', if_neg hpos, Option.map_some] at hlast
  have heq := Option.some.inj hlast
  omega

theorem Paced.attempt (h : Paced l x) (hpending : x.status = .pending) (hdue : x.nextRetryLedger ≤ ledger)
    (hfew : x.attempts < maxDeliveryAttempts) (hout : Outcome ledger w (x.attempted ledger) w' y) :
    Paced (l ++ [sendOf w (x.attempted ledger) ledger]) y := by
  have hattempts : y.attempts = x.attempts + 1 := hout.attempts
  refine ⟨?_, ?_, fun hy a ha => ?_, ?_⟩
  · rw [List.map_append, h.numbered, hattempts, List.range'_concat, one_mul, Nat.add_comm 1]
    rfl
  · refine List.isChain_append.2 ⟨h.spaced, List.isChain_singleton _, fun a ha b hb hlate => ?_⟩
    obtain rfl := Option.some.inj hb
    have hsum := h.due hpending a ha
    change ledger < u32Max at hlate
    change a.ledger + backoffLedgers a.attempt ≤ ledger
    unfold satAddU32 at hsum
    omega
  · rw [List.getLast?_concat] at ha
    obtain rfl := Option.some.inj ha
    exact (hout.due hy).ge
  · rw [hattempts]
    exact hfew

/-- An outcome that is recorded later puts the next retry off. -/
theorem Paced.settle (h : Paced l x) (hpast : ∀ a ∈ l, a.ledger ≤ ledger) (hout : Outcome ledger w x w' y) :
    Paced l y := by
  refine ⟨by rw [hout.attempts, h.numbered], h.spaced, fun hy a ha => ?_, hout.attempts ▸ h.few⟩
  have hearlier := hpast a (List.mem_of_getLast? ha)
  rw [hout.due hy, h.last_attempt ha]
  unfold satAddU32
  omega

theorem Paced.drop (h : Paced l x) : Paced l x.dropped :=
  ⟨h.numbered, h.spaced, fun hpending => DeliveryStatus.noConfusion hpending, h.few⟩

def WebhookStore.sendsOf (s : WebhookStore) (d : ℕ) : List Send := s.sends.filter fun a => a.deliveryId = d

/-- Every delivery keeps the schedule, and no attempt is later than now. -/
structure Scheduled (now : ℕ) (s : WebhookStore) : Prop where
  past : ∀ a ∈ s.sends, a.ledger ≤ now
  known : ∀ a ∈ s.sends, a.deliveryId < s.nextDelivery
  paced : ∀ d x, s.delivery d = some x → Paced (s.sendsOf d) x

theorem scheduled_empty (now : ℕ) : Scheduled now {} where
  past := by simp
  known := by simp
  paced d x hx := by cases hx

/-- One delivery is stored again, and the others keep their attempts. -/
theorem Scheduled.save (h : Scheduled now s) (hdelivery : t.delivery = update s.delivery d (some y))
    (hpast : ∀ a ∈ t.sends, a.ledger ≤ now) (hknown : ∀ a ∈ t.sends, a.deliveryId < t.nextDelivery)
    (hsends : ∀ k, k ≠ d → t.sendsOf k = s.sendsOf k) (hpaced : Paced (t.sendsOf d) y) : Scheduled now t := by
  refine ⟨hpast, hknown, fun k z hz => ?_⟩
  rw [hdelivery] at hz
  rcases eq_or_ne k d with rfl | hk
  · rw [update_self] at hz
    obtain rfl := Option.some.inj hz
    exact hpaced
  · rw [update_of_ne hk] at hz
    rw [hsends k hk]
    exact h.paced k z hz

theorem Scheduled.moves (h : Scheduled ledger s) (hbooked : Booked s) (hmoves : Moves ledger s t) :
    Scheduled ledger t := by
  cases hmoves with
  | opened webhookId invoiceId event hw =>
      have hnone : s.sendsOf s.nextDelivery = [] := by
        unfold WebhookStore.sendsOf
        rw [List.filter_eq_nil_iff]
        intro a ha
        simpa using (h.known a ha).ne
      refine h.save rfl h.past (fun a ha => (h.known a ha).trans (Nat.lt_succ_self _)) (fun _ _ => rfl) ?_
      change Paced (s.sendsOf s.nextDelivery) _
      rw [hnone]
      exact paced_new
  | @attempted w w' x y hw hx hpending hdue hfew hout =>
      have hid : y.id = x.id := hout.delivery_eq.1
      have hconcat : ∀ k, (((s.sent (sendOf w (x.attempted ledger) ledger)).saveDelivery y).saveWebhook w').sendsOf k =
          s.sendsOf k ++ if x.id = k then [sendOf w (x.attempted ledger) ledger] else [] := by
        intro k
        change (s.sends ++ [_]).filter _ = _
        rw [List.filter_append, List.filter_singleton]
        by_cases hk : x.id = k
        · simp [WebhookStore.sendsOf, sendOf, WebhookDelivery.attempted, hk]
        · simp [WebhookStore.sendsOf, sendOf, WebhookDelivery.attempted, hk]
      refine h.save rfl (fun a ha => ?_) (fun a ha => ?_) (fun k hk => ?_) ?_
      · rcases List.mem_append.1 ha with ha | ha
        · exact h.past a ha
        · rw [List.mem_singleton.1 ha]
          exact le_rfl
      · rcases List.mem_append.1 ha with ha | ha
        · exact h.known a ha
        · rw [List.mem_singleton.1 ha]
          exact (hbooked.numbered x.id x hx).2.1
      · rw [hconcat, if_neg (fun heq => hk (heq.symm.trans hid.symm)), List.append_nil]
      · rw [hconcat, if_pos hid.symm, hid]
        exact (h.paced x.id x hx).attempt hpending hdue hfew hout
  | @settled w w' x y hw hx hpending hout =>
      have hid : y.id = x.id := hout.delivery_eq.1
      refine h.save rfl h.past h.known (fun _ _ => rfl) ?_
      change Paced (s.sendsOf y.id) y
      rw [hid]
      exact (h.paced x.id x hx).settle (fun a ha => h.past a (List.mem_of_mem_filter ha)) hout
  | @dropped x hx hpending =>
      exact h.save rfl h.past h.known (fun _ _ => rfl) (h.paced x.id x hx).drop

end Schedule

/-! ## Calls -/

section Calls

variable {env : HookEnv} {s t : WebhookStore} {v : Unit} {w w' : Webhook} {x y : WebhookDelivery}
  {ledger now k : ℕ} {owner : Address}

structure Kept (now : ℕ) (s : WebhookStore) : Prop where
  registered : Registered s
  booked : Booked s
  scheduled : Scheduled now s

theorem kept_empty (now : ℕ) : Kept now {} := ⟨registered_empty, booked_empty, scheduled_empty now⟩

/-- What is delivered or failed stays so. -/
def Final (s t : WebhookStore) : Prop :=
  ∀ d x, s.delivery d = some x → x.status ≠ .pending → t.delivery d = some x

theorem Final.of_eq (h : t.delivery = s.delivery) : Final s t := fun d x hx _ => by rw [h, hx]

theorem Final.of_save (hx : s.delivery x.id = some x) (hpending : x.status = .pending) (hid : y.id = x.id)
    (h : t.delivery = (s.saveDelivery y).delivery) : Final s t := by
  intro d z hz hstatus
  have hd : d ≠ y.id := by
    rintro rfl
    rw [hid, hx] at hz
    obtain rfl := Option.some.inj hz
    exact hstatus hpending
  rw [h, saveDelivery_of_ne hd, hz]

theorem Kept.moves (h : Kept ledger s) (hmoves : Moves ledger s t) : Kept ledger t ∧ Final s t := by
  refine ⟨⟨h.registered.moves hmoves, h.booked.moves h.registered hmoves, h.scheduled.moves h.booked hmoves⟩, ?_⟩
  cases hmoves with
  | opened webhookId invoiceId event hw =>
      intro d x hx _
      have hd : d ≠ s.nextDelivery := (h.booked.numbered d x hx).2.1.ne
      exact (saveDelivery_of_ne hd).trans hx
  | attempted hw hx hpending hdue hfew hout => exact .of_save hx hpending hout.delivery_eq.1 rfl
  | settled hw hx hpending hout => exact .of_save hx hpending hout.delivery_eq.1 rfl
  | @dropped x hx hpending => exact .of_save (y := x.dropped) hx hpending rfl rfl

/-- Any number of steps on deliveries. -/
abbrev Chain (ledger : ℕ) : WebhookStore → WebhookStore → Prop := Relation.ReflTransGen (Moves ledger)

theorem Kept.chain (h : Kept ledger s) (hchain : Chain ledger s t) : Kept ledger t ∧ Final s t := by
  induction hchain with
  | refl => exact ⟨h, .of_eq rfl⟩
  | tail _ hmoves ih =>
      obtain ⟨hkept, hfinal⟩ := ih.1.moves hmoves
      exact ⟨hkept, fun d x hx hstatus => hfinal d x (ih.2 d x hx hstatus) hstatus⟩

theorem Registered.chain (h : Registered s) (hchain : Chain ledger s t) : Registered t := by
  induction hchain with
  | refl => exact h
  | tail _ hmoves ih => exact ih.moves hmoves

theorem dispatchTo_chain {invoiceId : ℕ} {event : BitVec 32} (h : Registered s)
    (hrun : dispatchTo env invoiceId event k s = .ok (v, t)) : Chain env.sequence s t := by
  rw [dispatchTo, get_bind] at hrun
  cases hw : s.webhook k with
  | none =>
      rw [hw] at hrun
      obtain ⟨-, rfl⟩ := pure_ok.1 hrun
      exact .refl
  | some webhook =>
      rw [hw] at hrun
      dsimp only at hrun
      split_ifs at hrun
      · obtain ⟨id, u, hopen, hrun⟩ := bind_ok.1 hrun
        rw [openDelivery, get_bind, require_bind] at hopen
        obtain ⟨_, u', hset, hpure⟩ := bind_ok.1 hopen.2
        obtain rfl := set_ok.1 hset
        obtain ⟨rfl, rfl⟩ := pure_ok.1 hpure
        obtain ⟨y, hattempt⟩ := ignore_ok.1 hrun
        obtain ⟨rfl, -⟩ := h.numbered k webhook hw
        obtain ⟨w', hout, rfl⟩ := attempt_ok (s := s.trackDelivery webhook.id) hw rfl hattempt
        have hopened : Moves env.sequence s (s.opened webhook.id invoiceId event env.sequence) := .opened _ _ _ hw
        have hid : y.id = s.nextDelivery := hout.delivery_eq.1
        have hattempted := Moves.attempted (s := s.opened webhook.id invoiceId event env.sequence)
          (x := newDelivery s.nextDelivery webhook.id invoiceId event env.sequence) hw (saveDelivery_self rfl) rfl
          (Nat.zero_le _) (Nat.succ_pos _) hout
        refine (Relation.ReflTransGen.single hopened).tail ?_
        convert hattempted using 2
        unfold WebhookStore.saveDelivery WebhookStore.sent WebhookStore.opened WebhookStore.saveDelivery
        rw [hid]
        dsimp only [newDelivery]
        rw [update_idem]
      · obtain ⟨-, rfl⟩ := pure_ok.1 hrun
        exact .refl

theorem dispatch_chain {invoiceId : ℕ} {event : BitVec 32} (h : Registered s)
    (hrun : dispatch env invoiceId event s = .ok (v, t)) : Chain env.sequence s t := by
  rw [dispatch, get_bind] at hrun
  split_ifs at hrun
  · obtain ⟨-, rfl⟩ := pure_ok.1 hrun
    exact .refl
  · generalize s.ids = ids at hrun
    induction ids generalizing s with
    | nil =>
        obtain ⟨-, rfl⟩ := pure_ok.1 hrun
        exact .refl
    | cons k ids ih =>
        rw [List.forM_cons] at hrun
        obtain ⟨_, u, hfirst, hrest⟩ := bind_ok.1 hrun
        have hchain := dispatchTo_chain h hfirst
        exact hchain.trans (ih (h.chain hchain) hrest)

theorem loadWebhook_bind {β : Type} {f : Webhook → HookM β} {r : β × WebhookStore} :
    (loadWebhook k >>= f) s = .ok r ↔ ∃ w, s.webhook k = some w ∧ f w s = .ok r := by
  rw [loadWebhook, bind_assoc, get_bind, orPanic_bind]

theorem loadDelivery_bind {β : Type} {f : WebhookDelivery → HookM β} {r : β × WebhookStore} :
    (loadDelivery k >>= f) s = .ok r ↔ ∃ x, s.delivery k = some x ∧ f x s = .ok r := by
  rw [loadDelivery, bind_assoc, get_bind, orPanic_bind]

theorem retry_chain {deliveryId : ℕ} {st : DeliveryStatus} (hregistered : Registered s) (hbooked : Booked s)
    (hrun : retry env deliveryId s = .ok (st, t)) : Chain env.sequence s t := by
  rw [retry] at hrun
  simp only [loadDelivery_bind, require_bind, get_bind] at hrun
  obtain ⟨x, hx, hpending, hdue, hrun⟩ := hrun
  obtain ⟨rfl, -, -⟩ := hbooked.numbered deliveryId x hx
  cases hw : (s.webhook x.webhookId).filter Webhook.active with
  | none =>
      rw [hw] at hrun
      obtain ⟨_, u, hmodify, hpure⟩ := bind_ok.1 hrun
      obtain rfl := modify_ok.1 hmodify
      obtain ⟨-, rfl⟩ := pure_ok.1 hpure
      exact .single (.dropped hx hpending)
  | some webhook =>
      have hstored : s.webhook x.webhookId = some webhook := (Option.filter_eq_some_iff.1 hw).1
      have hid := (hregistered.numbered _ webhook hstored).1
      rw [hw] at hrun
      dsimp only at hrun
      split_ifs at hrun with hmany
      · obtain ⟨y, hrecord, -⟩ := map_ok.1 hrun
        obtain ⟨w', hout, rfl⟩ := recordOutcome_ok hrecord
        exact .single (.settled hstored hx hpending hout)
      · obtain ⟨y, hattempt, -⟩ := map_ok.1 hrun
        obtain ⟨w', hout, rfl⟩ := attempt_ok (hid ▸ hstored) hpending hattempt
        exact .single (.attempted hstored hx hpending hdue (not_le.1 hmany) hout)

theorem ack_chain {deliveryId : ℕ} {success : Bool} {st : DeliveryStatus} (hbooked : Booked s)
    (hrun : ack env owner deliveryId success s = .ok (st, t)) : Chain env.sequence s t := by
  rw [ack] at hrun
  simp only [requireAuth_bind, loadDelivery_bind, loadWebhook_bind, require_bind] at hrun
  obtain ⟨-, x, hx, webhook, hstored, -, hpending, hrun⟩ := hrun
  obtain ⟨rfl, -, -⟩ := hbooked.numbered deliveryId x hx
  obtain ⟨y, hrecord, -⟩ := map_ok.1 hrun
  obtain ⟨w', hout, rfl⟩ := recordOutcome_ok hrecord
  exact .single (.settled hstored hx hpending hout)

/-! ### Management -/

theorem Scheduled.congr (h : Scheduled now s) (hsends : t.sends = s.sends) (hnext : t.nextDelivery = s.nextDelivery)
    (hdelivery : t.delivery = s.delivery) : Scheduled now t := by
  refine ⟨?_, ?_, fun d x hx => ?_⟩
  · rw [hsends]
    exact h.past
  · rw [hsends, hnext]
    exact h.known
  · rw [hdelivery] at hx
    unfold WebhookStore.sendsOf
    rw [hsends]
    exact h.paced d x hx

/-- A webhook that was never registered has no deliveries. -/
theorem Booked.countOf_new (h : Booked s) (st : DeliveryStatus) : s.countOf s.nextWebhook st = 0 := by
  unfold WebhookStore.countOf seats
  rw [Finset.card_eq_zero, Finset.filter_eq_empty_iff]
  intro d _ hseat
  obtain ⟨x, hx, hpair⟩ := Option.map_eq_some_iff.1 hseat
  have hlt := (h.numbered d x hx).2.2
  have heq : x.webhookId = s.nextWebhook := congrArg Prod.fst hpair
  omega

/-- The webhooks change, and every one that is stored counts as before. -/
theorem Booked.webhooks (h : Booked s) (hdelivery : t.delivery = s.delivery)
    (hnext : t.nextDelivery = s.nextDelivery) (hnext' : s.nextWebhook ≤ t.nextWebhook)
    (hstored : ∀ k v, t.webhook k = some v →
      v.deliveredCount = s.countOf k .delivered ∧ v.failedCount ≤ s.countOf k .failed) : Booked t := by
  have hcount : t.countOf = s.countOf := by
    funext k st
    unfold WebhookStore.countOf WebhookStore.seatOf
    rw [hdelivery, hnext]
  refine ⟨fun d x hx => ?_, fun k v hv => ?_, fun k v hv => ?_⟩
  · rw [hdelivery] at hx
    obtain ⟨hid, hlt, hknown⟩ := h.numbered d x hx
    exact ⟨hid, hnext ▸ hlt, hknown.trans_le hnext'⟩
  · rw [hcount]
    exact (hstored k v hv).1
  · rw [hcount]
    exact (hstored k v hv).2

theorem validateConfig_bind {β : Type} {endpoint : List UInt8} {target : Option Address} {eventMask : BitVec 32}
    {f : Unit → HookM β} {r : β × WebhookStore} (hrun : (validateConfig endpoint target eventMask >>= f) s = .ok r) :
    f () s = .ok r := by
  rw [validateConfig] at hrun
  simp only [bind_assoc, require_bind] at hrun
  exact hrun.2.2.2

/-- A webhook under the next id joins the lists. -/
theorem Registered.add (h : Registered s) (hid : w.id = s.nextWebhook) (howner : w.owner = owner)
    (hfailures : w.consecutiveFailures < autoDisableFailures) (hfew : s.ids.length < maxWebhooks)
    (hownedFew : (s.owned owner).length < maxWebhooksPerOwner) (hwebhook : t.webhook = (s.saveWebhook w).webhook)
    (hnext : t.nextWebhook = s.nextWebhook + 1) (hids : t.ids = s.ids ++ [s.nextWebhook])
    (howned : t.owned = update s.owned owner (s.owned owner ++ [s.nextWebhook])) : Registered t := by
  have hself : t.webhook s.nextWebhook = some w := by
    rw [hwebhook, WebhookStore.saveWebhook, hid]
    exact update_self _ _ _
  have hother : ∀ k, k ≠ s.nextWebhook → t.webhook k = s.webhook k := by
    intro k hk
    rw [hwebhook, WebhookStore.saveWebhook, hid]
    exact update_of_ne hk _ _
  have hvacant : s.webhook s.nextWebhook = none := by
    cases hv : s.webhook s.nextWebhook with
    | none => rfl
    | some v => exact absurd (h.numbered _ v hv).2 (lt_irrefl _)
  have hfresh : s.nextWebhook ∉ s.ids := by
    intro hmem
    obtain ⟨v, hv⟩ := (h.mem_ids _).1 hmem
    rw [hvacant] at hv
    cases hv
  have hfreshOwned : s.nextWebhook ∉ s.owned owner := by
    intro hmem
    obtain ⟨v, hv, -⟩ := (h.mem_owned _ _).1 hmem
    rw [hvacant] at hv
    cases hv
  refine ⟨fun k v hv => ?_, ?_, fun k => ?_, ?_, fun o => ?_, fun o k => ?_, fun o => ?_, fun k v hv => ?_⟩
  · rw [hnext]
    rcases eq_or_ne k s.nextWebhook with rfl | hk
    · rw [hself] at hv
      obtain rfl := Option.some.inj hv
      exact ⟨hid, Nat.lt_succ_self _⟩
    · rw [hother k hk] at hv
      exact ⟨(h.numbered k v hv).1, (h.numbered k v hv).2.trans (Nat.lt_succ_self _)⟩
  · rw [hids, ← List.concat_eq_append]
    exact h.nodup.concat hfresh
  · rw [hids, List.mem_append, List.mem_singleton]
    rcases eq_or_ne k s.nextWebhook with rfl | hk
    · exact ⟨fun _ => ⟨w, hself⟩, fun _ => .inr rfl⟩
    · rw [hother k hk, ← h.mem_ids k]
      exact ⟨fun hmem => hmem.resolve_right hk, .inl⟩
  · rw [hids, List.length_append, List.length_singleton]
    exact hfew
  · rw [howned]
    rcases eq_or_ne o owner with rfl | ho
    · rw [update_self, ← List.concat_eq_append]
      exact (h.ownedNodup o).concat hfreshOwned
    · rw [update_of_ne ho]
      exact h.ownedNodup o
  · rw [howned]
    rcases eq_or_ne k s.nextWebhook with rfl | hk
    · rw [hself]
      rcases eq_or_ne o owner with rfl | ho
      · rw [update_self, List.mem_append]
        exact ⟨fun _ => ⟨w, rfl, howner⟩, fun _ => .inr List.mem_cons_self⟩
      · rw [update_of_ne ho, h.mem_owned o, hvacant]
        constructor
        · rintro ⟨v, hv, -⟩
          cases hv
        · rintro ⟨v, hv, rfl⟩
          obtain rfl := Option.some.inj hv
          exact absurd howner ho
    · rw [hother k hk, ← h.mem_owned o k]
      rcases eq_or_ne o owner with rfl | ho
      · rw [update_self, List.mem_append, List.mem_singleton]
        exact ⟨fun hmem => hmem.resolve_right hk, .inl⟩
      · rw [update_of_ne ho]
  · rw [howned]
    rcases eq_or_ne o owner with rfl | ho
    · rw [update_self, List.length_append, List.length_singleton]
      exact hownedFew
    · rw [update_of_ne ho]
      exact h.ownedFew o
  · rcases eq_or_ne k s.nextWebhook with rfl | hk
    · rw [hself] at hv
      obtain rfl := Option.some.inj hv
      exact fun _ => hfailures
    · rw [hother k hk] at hv
      exact h.active k v hv

/-- A webhook leaves the lists. -/
theorem Registered.erase (h : Registered s) (hw : s.webhook k = some w) (hwebhook : t.webhook = update s.webhook k none)
    (hnext : t.nextWebhook = s.nextWebhook) (hids : t.ids = s.ids.erase k)
    (howned : t.owned = update s.owned w.owner ((s.owned w.owner).erase k)) : Registered t := by
  have hself : t.webhook k = none := by rw [hwebhook, update_self]
  have hother : ∀ j, j ≠ k → t.webhook j = s.webhook j := fun j hj => by rw [hwebhook, update_of_ne hj]
  have hstored : ∀ j v, t.webhook j = some v → j ≠ k ∧ s.webhook j = some v := by
    intro j v hv
    have hj : j ≠ k := by
      rintro rfl
      rw [hself] at hv
      cases hv
    exact ⟨hj, hother j hj ▸ hv⟩
  refine ⟨fun j v hv => ?_, ?_, fun j => ?_, ?_, fun o => ?_, fun o j => ?_, fun o => ?_, fun j v hv => ?_⟩
  · rw [hnext]
    exact h.numbered j v (hstored j v hv).2
  · rw [hids]
    exact h.nodup.erase k
  · rw [hids, h.nodup.mem_erase_iff, h.mem_ids]
    constructor
    · rintro ⟨hj, v, hv⟩
      exact ⟨v, (hother j hj).trans hv⟩
    · rintro ⟨v, hv⟩
      exact ⟨(hstored j v hv).1, v, (hstored j v hv).2⟩
  · rw [hids]
    exact (List.length_erase_le).trans h.few
  · rw [howned]
    rcases eq_or_ne o w.owner with rfl | ho
    · rw [update_self]
      exact (h.ownedNodup _).erase k
    · rw [update_of_ne ho]
      exact h.ownedNodup o
  · rw [howned]
    rcases eq_or_ne o w.owner with rfl | ho
    · rw [update_self, (h.ownedNodup _).mem_erase_iff, h.mem_owned]
      constructor
      · rintro ⟨hj, v, hv, hvowner⟩
        exact ⟨v, (hother j hj).trans hv, hvowner⟩
      · rintro ⟨v, hv, hvowner⟩
        exact ⟨(hstored j v hv).1, v, (hstored j v hv).2, hvowner⟩
    · rw [update_of_ne ho, h.mem_owned]
      constructor
      · rintro ⟨v, hv, hvowner⟩
        have hj : j ≠ k := by
          rintro rfl
          obtain rfl := Option.some.inj (hw.symm.trans hv)
          exact ho hvowner.symm
        exact ⟨v, (hother j hj).trans hv, hvowner⟩
      · rintro ⟨v, hv, hvowner⟩
        exact ⟨v, (hstored j v hv).2, hvowner⟩
  · rw [howned]
    rcases eq_or_ne o w.owner with rfl | ho
    · rw [update_self]
      exact (List.length_erase_le).trans (h.ownedFew _)
    · rw [update_of_ne ho]
      exact h.ownedFew o
  · exact h.active j v (hstored j v hv).2

theorem getD_update {l : List ℕ} {f : Address → Option (List ℕ)} :
    (fun o => (update f owner (some l) o).getD []) = update (fun o => (f o).getD []) owner l := by
  funext o
  rcases eq_or_ne o owner with rfl | ho
  · rw [update_self, update_self, Option.getD_some]
  · rw [update_of_ne ho, update_of_ne ho]

theorem register_kept {endpoint : List UInt8} {target : Option Address} {eventMask : BitVec 32}
    {invoiceId : Option ℕ} {id : ℕ} (h : Kept now s)
    (hrun : register env owner endpoint target eventMask invoiceId s = .ok (id, t)) : Kept now t ∧ Final s t := by
  obtain ⟨-, hrun⟩ := requireAuth_bind.1 hrun
  have hrun := validateConfig_bind hrun
  simp only [get_bind, require_bind] at hrun
  obtain ⟨hfew, hownedFew, -, hrun⟩ := hrun
  obtain ⟨_, u, hset, hpure⟩ := bind_ok.1 hrun
  obtain rfl := set_ok.1 hset
  obtain ⟨-, rfl⟩ := pure_ok.1 hpure
  refine ⟨⟨?_, ?_, h.scheduled.congr rfl rfl rfl⟩, .of_eq rfl⟩
  · exact h.registered.add rfl rfl (Nat.succ_pos _) hfew hownedFew rfl rfl rfl getD_update
  · refine h.booked.webhooks rfl rfl (Nat.le_succ _) fun k v hv => ?_
    change update s.webhook s.nextWebhook _ k = some v at hv
    rcases eq_or_ne k s.nextWebhook with rfl | hk
    · rw [update_self] at hv
      obtain rfl := Option.some.inj hv
      exact ⟨(h.booked.countOf_new _).symm, Nat.zero_le _⟩
    · rw [update_of_ne hk] at hv
      exact ⟨h.booked.delivered k v hv, h.booked.failed k v hv⟩

theorem updateWebhook_kept {endpoint : List UInt8} {target : Option Address} {eventMask : BitVec 32}
    {invoiceId : Option ℕ} {active : Bool} (h : Kept now s)
    (hrun : updateWebhook env owner k endpoint target eventMask invoiceId active s = .ok (v, t)) :
    Kept now t ∧ Final s t := by
  rw [updateWebhook] at hrun
  simp only [requireAuth_bind, loadWebhook_bind, require_bind] at hrun
  obtain ⟨-, w, hw, -, hrun⟩ := hrun
  obtain rfl := modify_ok.1 (validateConfig_bind hrun)
  obtain ⟨rfl, -⟩ := h.registered.numbered k w hw
  refine ⟨⟨h.registered.saveWebhook hw rfl rfl fun hactive => ?_, ?_, h.scheduled.congr rfl rfl rfl⟩, .of_eq rfl⟩
  · dsimp only at hactive ⊢
    split_ifs with hnew
    · exact Nat.succ_pos _
    · refine h.registered.active _ w hw ?_
      rw [hactive, Bool.true_and, Bool.not_eq_true'] at hnew
      exact Bool.eq_true_of_not_eq_false hnew
  · refine h.booked.webhooks rfl rfl le_rfl fun j v hv => ?_
    change update s.webhook w.id _ j = some v at hv
    rcases eq_or_ne j w.id with rfl | hj
    · rw [update_self] at hv
      obtain rfl := Option.some.inj hv
      exact ⟨h.booked.delivered _ w hw, h.booked.failed _ w hw⟩
    · rw [update_of_ne hj] at hv
      exact ⟨h.booked.delivered j v hv, h.booked.failed j v hv⟩

theorem remove_kept {caller : Address} {force : Bool} (h : Kept now s)
    (hrun : remove env caller k force s = .ok (v, t)) : Kept now t ∧ Final s t := by
  rw [remove] at hrun
  obtain ⟨_, u, hauth, hrun⟩ := bind_ok.1 hrun
  obtain rfl : s = u := by
    rcases onlyIf_ok.1 hauth with ⟨-, hauth⟩ | ⟨-, rfl⟩
    · exact (requireAuth_ok.1 hauth).2
    · rfl
  simp only [loadWebhook_bind, require_bind] at hrun
  obtain ⟨w, hw, -, hrun⟩ := hrun
  obtain rfl := modify_ok.1 hrun
  refine ⟨⟨h.registered.erase hw rfl rfl rfl getD_update, ?_, h.scheduled.congr rfl rfl rfl⟩, .of_eq rfl⟩
  refine h.booked.webhooks rfl rfl le_rfl fun j v hv => ?_
  change update s.webhook k none j = some v at hv
  rcases eq_or_ne j k with rfl | hj
  · rw [update_self] at hv
    cases hv
  · rw [update_of_ne hj] at hv
    exact ⟨h.booked.delivered j v hv, h.booked.failed j v hv⟩

end Calls

/-! ## Runs -/

inductive HookCall where
  | register (owner : Address) (endpoint : List UInt8) (target : Option Address) (eventMask : BitVec 32)
      (invoiceId : Option ℕ)
  | update (owner : Address) (webhookId : ℕ) (endpoint : List UInt8) (target : Option Address)
      (eventMask : BitVec 32) (invoiceId : Option ℕ) (active : Bool)
  | remove (caller : Address) (webhookId : ℕ) (force : Bool)
  | dispatch (invoiceId : ℕ) (event : BitVec 32)
  | retry (deliveryId : ℕ)
  | ack (owner : Address) (deliveryId : ℕ) (success : Bool)

def hookStep (c : HookEnv × HookCall) : HookM Unit :=
  match c.2 with
  | .register owner endpoint target eventMask invoiceId =>
      ignore (register c.1 owner endpoint target eventMask invoiceId)
  | .update owner webhookId endpoint target eventMask invoiceId active =>
      updateWebhook c.1 owner webhookId endpoint target eventMask invoiceId active
  | .remove caller webhookId force => remove c.1 caller webhookId force
  | .dispatch invoiceId event => dispatch c.1 invoiceId event
  | .retry deliveryId => ignore (retry c.1 deliveryId)
  | .ack owner deliveryId success => ignore (ack c.1 owner deliveryId success)

/-- The storage after calls on a contract without webhooks. -/
abbrev after (calls : List (HookEnv × HookCall)) : WebhookStore := runAll hookStep {} calls

section Run

variable {s t : WebhookStore} {v : Unit} {c : HookEnv × HookCall} {now : ℕ} {calls more : List (HookEnv × HookCall)}

theorem hookStep_kept (h : Kept c.1.sequence s) (hrun : hookStep c s = .ok (v, t)) :
    Kept c.1.sequence t ∧ Final s t := by
  obtain ⟨env, call⟩ := c
  cases call with
  | register owner endpoint target eventMask invoiceId =>
      obtain ⟨id, hrun⟩ := ignore_ok.1 hrun
      exact register_kept h hrun
  | update owner webhookId endpoint target eventMask invoiceId active => exact updateWebhook_kept h hrun
  | remove caller webhookId force => exact remove_kept h hrun
  | dispatch invoiceId event => exact h.chain (dispatch_chain h.registered hrun)
  | retry deliveryId =>
      obtain ⟨st, hrun⟩ := ignore_ok.1 hrun
      exact h.chain (retry_chain h.registered h.booked hrun)
  | ack owner deliveryId success =>
      obtain ⟨st, hrun⟩ := ignore_ok.1 hrun
      exact h.chain (ack_chain h.booked hrun)

theorem Kept.wait {later : ℕ} (h : Kept now s) (hle : now ≤ later) : Kept later s :=
  ⟨h.registered, h.booked, fun a ha => (h.scheduled.past a ha).trans hle, h.scheduled.known, h.scheduled.paced⟩

theorem kept_after (hordered : calls.Pairwise fun c d => c.1.sequence ≤ d.1.sequence)
    (huntil : ∀ c ∈ calls, c.1.sequence ≤ now) : Kept now (after calls) :=
  runAll_clocked (I := Kept) (fun _ _ _ hle h => h.wait hle) (fun _ _ _ _ h hrun => (hookStep_kept h hrun).1)
    (kept_empty 0) hordered (fun _ _ => Nat.zero_le _) huntil (Nat.zero_le _)

/-- What is delivered or failed stays so for the rest of a run. -/
theorem final_after (hordered : (calls ++ more).Pairwise fun c d => c.1.sequence ≤ d.1.sequence) :
    Final (after calls) (after (calls ++ more)) := by
  induction more using List.reverseRecOn with
  | nil =>
      rw [List.append_nil]
      exact .of_eq rfl
  | append_singleton more c ih =>
      rw [← List.append_assoc] at hordered ⊢
      obtain ⟨hbefore, -, hlast⟩ := List.pairwise_append.1 hordered
      have hfinal := ih hbefore
      have hkept : Kept c.1.sequence (after (calls ++ more)) :=
        kept_after hbefore fun d hd => hlast d hd c (List.mem_singleton_self c)
      rw [show after (calls ++ more ++ [c]) = commit (hookStep c) (after (calls ++ more)) from runAll_snoc _ _ _ _]
      rcases commit_cases (hookStep c) (after (calls ++ more)) with ⟨v, hrun⟩ | ⟨-, hsame⟩
      · have hnext := (hookStep_kept hkept hrun).2
        exact fun d x hx hstatus => hnext d x (hfinal d x hx hstatus) hstatus
      · rw [hsame]
        exact hfinal

/-! ## The law -/

/-- Every delivery has at most five attempts, each of them at least the backoff after the one before,
the counters of a webhook are those of its deliveries, and the lists hold the ids of the webhooks. -/
structure Lawful (s : WebhookStore) : Prop where
  stored : ∀ d x, s.delivery d = some x → x.id = d ∧ d < s.nextDelivery
  attempts : ∀ d x, s.delivery d = some x →
    (s.sendsOf d).map Send.attempt = List.range' 1 x.attempts ∧ x.attempts ≤ maxDeliveryAttempts
  spaced : ∀ d x, s.delivery d = some x → ∀ a ∈ s.sendsOf d, ∀ b ∈ s.sendsOf d, b.attempt = a.attempt + 1 →
    a.ledger + backoffLedgers a.attempt ≤ b.ledger
  counts : ∀ k w, s.webhook k = some w →
    w.deliveredCount = s.countOf k .delivered ∧ w.failedCount ≤ s.countOf k .failed
  registered : Registered s

theorem Paced.gap {l : List Send} {x : WebhookDelivery} {a b : Send} (h : Paced l x) (ha : a ∈ l) (hb : b ∈ l)
    (hnext : b.attempt = a.attempt + 1) (hlate : b.ledger < u32Max) :
    a.ledger + backoffLedgers a.attempt ≤ b.ledger := by
  have hplace : ∀ (i : ℕ) (hi : i < l.length), l[i].attempt = i + 1 := by
    intro i hi
    have hget := congrArg (fun l => l[i]?) h.numbered
    have hlength := congrArg List.length h.numbered
    rw [List.length_map, List.length_range'] at hlength
    simp only [List.getElem?_map, List.getElem?_eq_getElem hi, Option.map_some,
      List.getElem?_range' (hlength ▸ hi), one_mul, Option.some.injEq] at hget
    omega
  obtain ⟨i, hi, rfl⟩ := List.mem_iff_getElem.1 ha
  obtain ⟨j, hj, rfl⟩ := List.mem_iff_getElem.1 hb
  have hij : j = i + 1 := by
    have hfirst := hplace i hi
    have hsecond := hplace j hj
    omega
  subst hij
  exact List.isChain_iff_getElem.1 h.spaced i hj hlate

theorem Kept.lawful (h : Kept now s) (hnow : now < u32Max) : Lawful s where
  stored d x hx := ⟨(h.booked.numbered d x hx).1, (h.booked.numbered d x hx).2.1⟩
  attempts d x hx := ⟨(h.scheduled.paced d x hx).numbered, (h.scheduled.paced d x hx).few⟩
  spaced d x hx _ ha _ hb hnext :=
    (h.scheduled.paced d x hx).gap ha hb hnext ((h.scheduled.past _ (List.mem_of_mem_filter hb)).trans_lt hnow)
  counts k w hw := ⟨h.booked.delivered k w hw, h.booked.failed k w hw⟩
  registered := h.registered

/-- After any calls in the order of their ledgers, before the last ledger number, deliveries and
counters are lawful, and no delivery has changed since it was delivered or failed. -/
theorem webhook_law (hordered : calls.Pairwise fun c d => c.1.sequence ≤ d.1.sequence)
    (hledgers : ∀ c ∈ calls, c.1.sequence < u32Max) :
    Lawful (after calls) ∧ ∀ earlier later, calls = earlier ++ later → Final (after earlier) (after calls) := by
  refine ⟨(kept_after hordered fun c hc => Nat.le_pred_of_lt (hledgers c hc)).lawful (by decide), ?_⟩
  rintro earlier later rfl
  exact final_after hordered

/-- A ledger whose targets take a delivery or not. -/
def hookEnv (sequence : ℕ) (takes : Bool) : HookEnv where
  now := sequence
  sequence := sequence
  auth := fun _ => true
  accepts := fun _ _ => true
  takes := fun _ _ _ _ => takes

/-- A delivery fails at ledger 10, a retry at 15 is too early, and one at 22 succeeds. -/
def hookCalls : List (HookEnv × HookCall) :=
  [(hookEnv 1 true, .register 2 [] (some 7) eventAll none), (hookEnv 10 false, .dispatch 1 eventPaid),
    (hookEnv 15 true, .retry 1), (hookEnv 22 true, .retry 1), (hookEnv 30 false, .dispatch 1 eventReleased)]

theorem webhook_sample :
    (after hookCalls).sends.map Send.ledger = [10, 22, 30] ∧
      ((after hookCalls).webhook 1).map Webhook.deliveredCount = some 1 ∧ Lawful (after hookCalls) ∧
      ∀ earlier later, hookCalls = earlier ++ later → Final (after earlier) (after hookCalls) :=
  ⟨by decide +kernel, by decide +kernel, webhook_law (by decide) (by decide)⟩

end Run

end StellarSplit.Split.Webhooks
