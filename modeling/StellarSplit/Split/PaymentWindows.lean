import StellarSplit.Lib.Runs
import StellarSplit.Lib.Sliding
import StellarSplit.Lib.Trim
import StellarSplit.Split.Lock

/-!
# Limits on the number of payments

An invoice may limit how many payments it takes in a time window, and the contract
how many a payer makes to an invoice within some ledgers. Both limits are sliding
windows over lists that lose what does not count any more. The list of an invoice
has at most a hundred entries, so a limit above a hundred is never reached.
-/

namespace StellarSplit.Split.PaymentWindows

open Exec Function Machine Sliding Trim

/-! ## The contract -/

/-- The storage with the entries of the limiters and the settings of the rate limit. -/
structure LimitStore where
  ledger : Store := {}
  payerCooldown : ℕ → Address → Option ℕ := fun _ _ => none
  paymentWindow : ℕ → List ℕ := fun _ => []
  payerPaymentTimestamps : ℕ → Address → List ℕ := fun _ _ => []
  rateLimitWindow : ℕ := 0
  rateLimitMax : ℕ := 0

abbrev LimitM (α : Type) := Call LimitStore SplitFault α

def paymentWindowCap : ℕ := 100

/-- A call on the invoices, which does not touch the limiters. -/
def onLedger {α : Type} (x : SplitM α) : LimitM α :=
  focus LimitStore.ledger (fun s t => { s with ledger := t }) x

namespace LimitStore

def activePaymentWindow (s : LimitStore) (id now windowSecs : ℕ) : List ℕ :=
  popFront paymentWindowCap ((s.paymentWindow id).filter fun paidAt => now < satAddU64 paidAt windowSecs)

/-- The ledgers of the payer's payments that are in the window. -/
def prunedTimestamps (s : LimitStore) (id : ℕ) (payer : Address) (now : ℕ) : List ℕ :=
  (s.payerPaymentTimestamps id payer).filter fun ts => now - ts < s.rateLimitWindow

def rateLimited (s : LimitStore) : Bool := s.rateLimitWindow ≠ 0 ∧ s.rateLimitMax ≠ 0

end LimitStore

/-- The window of an invoice, when both of its settings are there. -/
def paymentWindowOf (inv : Invoice) : Option (ℕ × ℕ) :=
  match inv.maxPaymentsPerWindow, inv.paymentWindowSecs with
  | some maxPayments, some windowSecs => some (maxPayments, windowSecs)
  | _, _ => none

def enforcePaymentLimits (env : Env) (id : ℕ) (payer : Address) (inv : Invoice) : LimitM Unit := do
  let s ← get
  require (∀ cooldownSecs ∈ inv.paymentCooldownSecs, ∀ lastPaymentAt ∈ s.payerCooldown id payer,
    satAddU64 lastPaymentAt cooldownSecs ≤ env.now) (.panic "payment cooldown active")
  require (∀ window ∈ paymentWindowOf inv,
    (s.activePaymentWindow id env.now window.2).length < window.1) (.panic "payment rate limit exceeded")

/-- The window with the payment at the end; it loses its oldest entries to have room for it. -/
def recordWindow (env : Env) (id : ℕ) (inv : Invoice) (s : LimitStore) : LimitStore :=
  match paymentWindowOf inv with
  | some window =>
      { s with
        paymentWindow := update s.paymentWindow id
          (popFront (paymentWindowCap - 1) (s.activePaymentWindow id env.now window.2) ++ [env.now]) }
  | none => s

def recordPaymentLimits (env : Env) (id : ℕ) (payer : Address) (inv : Invoice) : LimitM Unit := do
  onlyIf (inv.paymentCooldownSecs.isSome = true) (modify fun s => { s with
    payerCooldown := update s.payerCooldown id (update (s.payerCooldown id) payer (some env.now)) })
  modify (recordWindow env id inv)

def enforceInvoiceRateLimit (env : Env) (id : ℕ) (payer : Address) : LimitM Unit := do
  let s ← get
  onlyIf (s.rateLimited = true)
    (require ((s.prunedTimestamps id payer env.sequence).length < s.rateLimitMax)
      (.panic "RateLimitExceeded"))

def recordInvoiceRateLimit (env : Env) (id : ℕ) (payer : Address) : LimitM Unit := do
  let s ← get
  onlyIf (s.rateLimited = true) (modify fun s => { s with
    payerPaymentTimestamps := update s.payerPaymentTimestamps id
      (update (s.payerPaymentTimestamps id) payer
        (s.prunedTimestamps id payer env.sequence ++ [env.sequence])) })

/-- `_pay` with its limiters. The answer says whether the payment is credited or put by for a
later one. What is recorded is not read again in the call, so it may stand after the release. -/
def payInner (env : Env) (payer : Address) (id : ℕ) (amount : ℤ) (nonce : ℕ) (donateOnFailure : Bool) :
    LimitM Bool := do
  let inv ← onLedger (checkPayment env payer id amount)
  require (inv.allowedCallers.isNone = true)
    (.panic "direct payments not allowed when caller allowlist is set")
  let target ← ofResult (paymentTarget env inv)
  onLedger (checkKyc env inv payer)
  let credited ← onLedger (accumulate id inv payer amount (target - inv.funded))
  onlyIf (credited = true) do
    enforcePaymentLimits env id payer inv
    onLedger (checkLimits env id inv payer amount nonce)
    onLedger (creditPayment env payer id inv amount target donateOnFailure)
    recordInvoiceRateLimit env id payer
    recordPaymentLimits env id payer inv
  pure credited

def pay (env : Env) (payer : Address) (id : ℕ) (amount : ℤ) (nonce : ℕ) (donateOnFailure : Bool) :
    LimitM Bool := do
  onLedger (requireFnNotPaused env "pay")
  onLedger (requireNotFrozen env)
  requireAuth env.toLedger payer
  enforceInvoiceRateLimit env id payer
  payInner env payer id amount nonce donateOnFailure

/-! ## Runs -/

/-- A payment, or any other call on the invoices. -/
inductive LimitCall where
  | pay (payer : Address) (id : ℕ) (amount : ℤ) (nonce : ℕ) (donateOnFailure : Bool)
  | other (x : SplitM Unit)

/-- An accepted payment: to which invoice, by whom, when and in which ledger. -/
structure Accepted where
  id : ℕ
  payer : Address
  time : ℕ
  ledger : ℕ
deriving DecidableEq, Repr

/-- A call, with the payment it accepts. -/
def limitStep (c : Env × LimitCall) : LimitM (Option Accepted) :=
  match c.2 with
  | .pay payer id amount nonce donateOnFailure => do
      let credited ← pay c.1 payer id amount nonce donateOnFailure
      pure (if credited then some ⟨id, payer, c.1.now, c.1.sequence⟩ else none)
  | .other x => do
      onLedger x
      pure none

/-- A call with the payments accepted so far beside it. -/
def noted (c : Env × LimitCall) : Call (LimitStore × List Accepted) SplitFault Unit := fun p =>
  match limitStep c p.1 with
  | .ok (payment, t) => .ok ((), (t, p.2 ++ payment.toList))
  | .error e => .error e

def run (s : LimitStore) (calls : List (Env × LimitCall)) : LimitStore × List Accepted :=
  runAll noted (s, []) calls

/-- Timestamps and ledgers do not go back. -/
def Ordered (calls : List (Env × LimitCall)) : Prop :=
  calls.Pairwise fun c d => c.1.now ≤ d.1.now ∧ c.1.sequence ≤ d.1.sequence

/-- Payments to the invoice find it with this limit. -/
def HasWindow (id maxPayments windowSecs : ℕ) (p : LimitStore × List Accepted) (c : Env × LimitCall) : Prop :=
  match c.2 with
  | .pay _ id' _ _ _ => id' = id → ∀ inv ∈ (p.1.ledger.entries id).load,
      inv.maxPaymentsPerWindow = some maxPayments ∧ inv.paymentWindowSecs = some windowSecs
  | .other _ => True

/-- Any half-open interval of the length of the invoice's window has at most as many payments to it
as the limit says. -/
def WithinWindow (id maxPayments windowSecs : ℕ) (payments : List Accepted) : Prop :=
  ∀ t, (payments.filter fun p => p.id = id ∧ t ≤ p.time ∧ p.time < t + windowSecs).length ≤ maxPayments

/-- With a rate limit, any interval of as many ledgers as its window has at most as many payments of
one payer to one invoice as the limit says. -/
def WithinRate (s : LimitStore) (payments : List Accepted) : Prop :=
  s.rateLimited = true → ∀ id payer t, (payments.filter fun p => p.id = id ∧ p.payer = payer ∧
    t ≤ p.ledger ∧ p.ledger < t + s.rateLimitWindow).length ≤ s.rateLimitMax

/-! ## What a payment does to the limiters -/

variable {env : Env} {s t : LimitStore} {v : Unit} {payer : Address} {id nonce : ℕ} {amount : ℤ}
  {donate credited : Bool} {inv : Invoice} {p q : LimitStore × List Accepted} {c : Env × LimitCall}
  {calls : List (Env × LimitCall)}

/-- The limiters are as they were. -/
def SameLimits (s t : LimitStore) : Prop := ∃ ledger, { s with ledger := ledger } = t

theorem onLedger_same {α : Type} {x : SplitM α} {a : α} (hrun : onLedger x s = .ok (a, t)) :
    SameLimits s t := by
  obtain ⟨u, -, ht⟩ := focus_ok.1 hrun
  exact ⟨u, ht⟩

/-- What the limiters ask of a credited payment, and what they record of it. -/
structure Takes (env : Env) (payer : Address) (id : ℕ) (s t : LimitStore) : Prop where
  window : ∃ inv stored, stored ∈ (s.ledger.entries id).load ∧ paymentWindowOf inv = paymentWindowOf stored ∧
    (∀ window ∈ paymentWindowOf inv, (s.activePaymentWindow id env.now window.2).length < window.1) ∧
    t.paymentWindow = (recordWindow env id inv s).paymentWindow
  rate : s.rateLimited = true → (s.prunedTimestamps id payer env.sequence).length < s.rateLimitMax ∧
    t.payerPaymentTimestamps = update s.payerPaymentTimestamps id
      (update (s.payerPaymentTimestamps id) payer (s.prunedTimestamps id payer env.sequence ++ [env.sequence]))
  settings : t.rateLimitWindow = s.rateLimitWindow ∧ t.rateLimitMax = s.rateLimitMax

theorem enforcePaymentLimits_ok (hrun : enforcePaymentLimits env id payer inv s = .ok (v, t)) :
    (∀ window ∈ paymentWindowOf inv, (s.activePaymentWindow id env.now window.2).length < window.1) ∧
      s = t := by
  simp only [enforcePaymentLimits, get_bind, require_bind] at hrun
  obtain ⟨-, hrun⟩ := hrun
  exact require_ok.1 hrun

theorem enforceInvoiceRateLimit_ok (hrun : enforceInvoiceRateLimit env id payer s = .ok (v, t)) :
    (s.rateLimited = true → (s.prunedTimestamps id payer env.sequence).length < s.rateLimitMax) ∧ s = t := by
  simp only [enforceInvoiceRateLimit, get_bind] at hrun
  obtain ⟨-, hrun⟩ | ⟨hoff, rfl⟩ := onlyIf_ok.1 hrun
  · obtain ⟨hroom, rfl⟩ := require_ok.1 hrun
    exact ⟨fun _ => hroom, rfl⟩
  · exact ⟨fun hon => (hoff hon).elim, rfl⟩

theorem recordInvoiceRateLimit_ok (hrun : recordInvoiceRateLimit env id payer s = .ok (v, t)) :
    ∃ timestamps, t = { s with payerPaymentTimestamps := timestamps } ∧ (s.rateLimited = true →
      timestamps = update s.payerPaymentTimestamps id (update (s.payerPaymentTimestamps id) payer
        (s.prunedTimestamps id payer env.sequence ++ [env.sequence]))) := by
  simp only [recordInvoiceRateLimit, get_bind] at hrun
  obtain ⟨-, hrun⟩ | ⟨hoff, rfl⟩ := onlyIf_ok.1 hrun
  · exact ⟨_, (modify_ok.1 hrun).symm, fun _ => rfl⟩
  · exact ⟨_, rfl, fun hon => (hoff hon).elim⟩

@[simp] theorem recordWindow_timestamps (env : Env) (id : ℕ) (inv : Invoice) (s : LimitStore) :
    (recordWindow env id inv s).payerPaymentTimestamps = s.payerPaymentTimestamps := by
  unfold recordWindow
  split <;> rfl

@[simp] theorem recordWindow_settings (env : Env) (id : ℕ) (inv : Invoice) (s : LimitStore) :
    (recordWindow env id inv s).rateLimitWindow = s.rateLimitWindow ∧
      (recordWindow env id inv s).rateLimitMax = s.rateLimitMax := by
  unfold recordWindow
  split <;> exact ⟨rfl, rfl⟩

/-- The window that is recorded depends on the window that is there only. -/
theorem recordWindow_congr (h : t.paymentWindow = s.paymentWindow) :
    (recordWindow env id inv t).paymentWindow = (recordWindow env id inv s).paymentWindow := by
  unfold recordWindow LimitStore.activePaymentWindow
  split
  · rw [h]
  · exact h

theorem recordPaymentLimits_ok (hrun : recordPaymentLimits env id payer inv s = .ok (v, t)) :
    ∃ cooldown, t = recordWindow env id inv { s with payerCooldown := cooldown } := by
  obtain ⟨_, u, hcooldown, hrun⟩ := bind_ok.1 hrun
  obtain rfl := modify_ok.1 hrun
  obtain ⟨-, hcooldown⟩ | ⟨-, rfl⟩ := onlyIf_ok.1 hcooldown
  · obtain rfl := modify_ok.1 hcooldown
    exact ⟨_, rfl⟩
  · exact ⟨_, rfl⟩

/-- The checks of a payment leave the window of the invoice as it is stored. -/
theorem checkPayment_window {s t : Store} (hrun : checkPayment env payer id amount s = .ok (inv, t)) :
    ∃ stored ∈ (s.entries id).load, paymentWindowOf inv = paymentWindowOf stored := by
  obtain ⟨stored, hload, -, ⟨rfl, -⟩ | ⟨rfl, -⟩⟩ := checkPayment_ok hrun
  · exact ⟨inv, hload, rfl⟩
  · exact ⟨stored, hload, rfl⟩

/-- A payment is put by, which no limiter notices, or it is taken. -/
theorem payInner_ok (hrun : payInner env payer id amount nonce donate s = .ok (credited, t))
    (hrate : s.rateLimited = true → (s.prunedTimestamps id payer env.sequence).length < s.rateLimitMax) :
    (credited = false ∧ SameLimits s t) ∨ (credited = true ∧ Takes env payer id s t) := by
  simp only [payInner, onLedger, focus_bind, require_bind, ofResult_bind] at hrun
  obtain ⟨inv, u₁, hcheck, -, target, -, _, u₂, -, answer, u₃, -, hrun⟩ := hrun
  obtain ⟨_, s₄, hbody, hrun⟩ := bind_ok.1 hrun
  obtain ⟨rfl, rfl⟩ := pure_ok.1 hrun
  obtain ⟨htrue, hbody⟩ | ⟨hfalse, rfl⟩ := onlyIf_ok.1 hbody
  · refine .inr ⟨htrue, ?_⟩
    obtain ⟨_, s₅, henforce, hbody⟩ := bind_ok.1 hbody
    obtain ⟨hroom, rfl⟩ := enforcePaymentLimits_ok henforce
    simp only [focus_bind] at hbody
    obtain ⟨_, u₆, -, _, u₇, -, hbody⟩ := hbody
    obtain ⟨_, s₈, hledgers, hbody⟩ := bind_ok.1 hbody
    obtain ⟨timestamps, rfl, htimestamps⟩ := recordInvoiceRateLimit_ok hledgers
    obtain ⟨cooldown, rfl⟩ := recordPaymentLimits_ok hbody
    obtain ⟨stored, hstored, hwindow⟩ := checkPayment_window hcheck
    refine ⟨⟨inv, stored, hstored, hwindow, hroom, recordWindow_congr rfl⟩, fun hon => ⟨hrate hon, ?_⟩, ?_⟩
    · rw [recordWindow_timestamps]
      exact htimestamps hon
    · exact recordWindow_settings ..
  · exact .inl ⟨by simpa using hfalse, u₃, rfl⟩

/-- Up to `_pay`, only the rate limit is looked at. -/
theorem pay_inner (hrun : pay env payer id amount nonce donate s = .ok (credited, t)) :
    (FnRunning env "pay" ∧ (env.config.schemaCurrent = true ∧ env.config.upgradeFrozen = false) ∧
      env.auth payer = true ∧ payer ≠ currentContract) ∧
    (s.rateLimited = true → (s.prunedTimestamps id payer env.sequence).length < s.rateLimitMax) ∧
      payInner env payer id amount nonce donate s = .ok (credited, t) := by
  simp only [pay, onLedger, focus_bind, requireFnNotPaused_ok, requireNotFrozen_ok, requireAuth_bind] at hrun
  obtain ⟨_, _, ⟨hpaused, rfl⟩, _, _, ⟨hfrozen, rfl⟩, hauth, hrun⟩ := hrun
  obtain ⟨_, u, hrate, hrun⟩ := bind_ok.1 hrun
  obtain ⟨hroom, rfl⟩ := enforceInvoiceRateLimit_ok hrate
  exact ⟨⟨hpaused, hfrozen, hauth⟩, hroom, hrun⟩

theorem pay_ok (hrun : pay env payer id amount nonce donate s = .ok (credited, t)) :
    (credited = false ∧ SameLimits s t) ∨ (credited = true ∧ Takes env payer id s t) := by
  obtain ⟨-, hroom, hinner⟩ := pay_inner hrun
  exact payInner_ok hinner hroom

/-- A call leaves the limiters alone, or it is a payment that they take. -/
theorem limitStep_ok {payment : Option Accepted} (hrun : limitStep c s = .ok (payment, t)) :
    (payment = none ∧ SameLimits s t) ∨
      ∃ payer id amount nonce donate, c.2 = .pay payer id amount nonce donate ∧
        payment = some ⟨id, payer, c.1.now, c.1.sequence⟩ ∧ Takes c.1 payer id s t := by
  obtain ⟨env, call⟩ := c
  cases call with
  | pay payer id amount nonce donate =>
      obtain ⟨credited, u, hpay, hrun⟩ := bind_ok.1 hrun
      obtain ⟨rfl, rfl⟩ := pure_ok.1 hrun
      obtain ⟨rfl, hsame⟩ | ⟨rfl, htakes⟩ := pay_ok hpay
      · exact .inl ⟨rfl, hsame⟩
      · exact .inr ⟨payer, id, amount, nonce, donate, rfl, rfl, htakes⟩
  | other x =>
      obtain ⟨_, u, hother, hrun⟩ := bind_ok.1 hrun
      obtain ⟨rfl, rfl⟩ := pure_ok.1 hrun
      exact .inl ⟨rfl, onLedger_same hother⟩

/-- The limiters only keep payments back: a payment they let pass is one of the contract without
them. -/
theorem pay_refines (hrun : pay env payer id amount nonce donate s = .ok (credited, t)) :
    Split.pay env payer id amount nonce donate s.ledger = .ok ((), t.ledger) := by
  obtain ⟨⟨hpaused, hfrozen, hauth⟩, -, hinner⟩ := pay_inner hrun
  simp only [payInner, onLedger, focus_bind, require_bind, ofResult_bind] at hinner
  obtain ⟨inv, u₁, hcheck, hcallers, target, htarget, _, u₂, hkyc, answer, u₃, hacc, hinner⟩ := hinner
  obtain ⟨_, s₄, hbody, hinner⟩ := bind_ok.1 hinner
  obtain ⟨-, rfl⟩ := pure_ok.1 hinner
  simp only [Split.pay, requireFnNotPaused_bind, requireNotFrozen_bind, requireAuth_bind]
  refine ⟨hpaused, hfrozen, hauth, bind_ok.2 ⟨inv, u₁, hcheck, require_bind.2 ⟨hcallers,
    ofResult_bind.2 ⟨target, htarget, bind_ok.2 ⟨(), u₂, hkyc, bind_ok.2 ⟨answer, u₃, hacc, onlyIf_ok.2 ?_⟩⟩⟩⟩⟩⟩
  obtain ⟨htrue, hbody⟩ | ⟨hfalse, rfl⟩ := onlyIf_ok.1 hbody
  · obtain ⟨_, s₅, henforce, hbody⟩ := bind_ok.1 hbody
    obtain ⟨-, rfl⟩ := enforcePaymentLimits_ok henforce
    simp only [focus_bind] at hbody
    obtain ⟨_, u₆, hlimits, _, u₇, hcredit, hbody⟩ := hbody
    obtain ⟨_, s₈, hledgers, hbody⟩ := bind_ok.1 hbody
    obtain ⟨timestamps, rfl, -⟩ := recordInvoiceRateLimit_ok hledgers
    obtain ⟨cooldown, rfl⟩ := recordPaymentLimits_ok hbody
    have hledger : ∀ s, (recordWindow env id inv s).ledger = s.ledger := by
      intro s
      unfold recordWindow
      split <;> rfl
    rw [hledger]
    exact .inl ⟨htrue, bind_ok.2 ⟨(), u₆, hlimits, hcredit⟩⟩
  · exact .inr ⟨hfalse, rfl⟩

/-- The call on the contract without the limiters. -/
def plainStep (c : Env × LimitCall) : SplitM Unit :=
  match c.2 with
  | .pay payer id amount nonce donateOnFailure => Split.pay c.1 payer id amount nonce donateOnFailure
  | .other x => x

theorem limitStep_plain {payment : Option Accepted} (hrun : limitStep c s = .ok (payment, t)) :
    plainStep c s.ledger = .ok ((), t.ledger) := by
  obtain ⟨env, call⟩ := c
  cases call with
  | pay payer id amount nonce donate =>
      obtain ⟨credited, u, hpay, hrun⟩ := bind_ok.1 hrun
      obtain ⟨-, rfl⟩ := pure_ok.1 hrun
      exact pay_refines hpay
  | other x =>
      obtain ⟨_, u, hother, hrun⟩ := bind_ok.1 hrun
      obtain ⟨-, rfl⟩ := pure_ok.1 hrun
      obtain ⟨ledger, hx, rfl⟩ := focus_ok.1 hother
      exact hx

/-- Every run is, on the invoices, the run without the limiters of the calls that returned, and these return there. -/
theorem limiters_refine (s : LimitStore) (calls : List (Env × LimitCall)) :
    (runAll limitStep s calls).ledger = runAll plainStep s.ledger ((returned limitStep s calls).map Prod.fst) ∧
      (returned plainStep s.ledger ((returned limitStep s calls).map Prod.fst)).map Prod.fst =
        (returned limitStep s calls).map Prod.fst := by
  induction calls generalizing s with
  | nil => exact ⟨rfl, rfl⟩
  | cons c calls ih =>
      rcases hc : limitStep c s with e | ⟨payment, t⟩
      · rw [runAll_cons, commit_error hc, returned_cons_error hc]
        exact ih s
      · have hplain := limitStep_plain hc
        obtain ⟨hrun, hreturned⟩ := ih t
        rw [runAll_cons, commit_ok hc, returned_cons_ok hc, List.map_cons, runAll_cons, commit_ok hplain,
          returned_cons_ok hplain, List.map_cons]
        exact ⟨hrun, congrArg (c :: ·) hreturned⟩

/-! ## The payments of a run -/

/-- The times of the payments to an invoice. -/
def times (id : ℕ) (payments : List Accepted) : List ℕ :=
  (payments.filter fun p => p.id = id).map (·.time)

/-- The ledgers of the payments of a payer to an invoice. -/
def ledgers (id : ℕ) (payer : Address) (payments : List Accepted) : List ℕ :=
  (payments.filter fun p => p.id = id ∧ p.payer = payer).map (·.ledger)

theorem times_snoc (payments : List Accepted) (payment : Accepted) :
    times id (payments ++ [payment]) =
      if payment.id = id then times id payments ++ [payment.time] else times id payments := by
  unfold times
  by_cases h : payment.id = id <;> simp [h]

theorem ledgers_snoc (payments : List Accepted) (payment : Accepted) :
    ledgers id payer (payments ++ [payment]) =
      if payment.id = id ∧ payment.payer = payer then ledgers id payer payments ++ [payment.ledger]
      else ledgers id payer payments := by
  unfold ledgers
  by_cases h : payment.id = id ∧ payment.payer = payer
  · simp [h]
  · rw [if_neg h, List.filter_append, List.filter_cons_of_neg (by simpa using h), List.filter_nil,
      List.append_nil]

theorem noted_ok (hrun : noted c p = .ok (v, q)) :
    ∃ payment, limitStep c p.1 = .ok (payment, q.1) ∧ q.2 = p.2 ++ payment.toList := by
  unfold noted at hrun
  split at hrun
  · rename_i payment t hstep
    cases hrun
    exact ⟨payment, hstep, rfl⟩
  · cases hrun

/-- No payment comes before the ones that were accepted. -/
def Latest (p : LimitStore × List Accepted) (c : Env × LimitCall) : Prop :=
  ∀ e ∈ p.2, e.time ≤ c.1.now ∧ e.ledger ≤ c.1.sequence

theorem latest_along (hordered : Ordered calls)
    (hp : ∀ c ∈ calls, Latest p c) : Along Latest noted p calls := by
  refine along_ordered (fun p c v q d hold hafter hrun => ?_) hordered hp
  intro e he
  obtain ⟨payment, hstep, hpayments⟩ := noted_ok hrun
  rw [hpayments, List.mem_append] at he
  rcases he with he | he
  · exact hold e he
  · obtain ⟨rfl, -⟩ | ⟨_, _, _, _, _, -, rfl, -⟩ := limitStep_ok hstep
    · cases he
    · obtain rfl := List.mem_singleton.1 he
      exact hafter

/-! ## The window of an invoice -/

/-- The window has kept the payments that count, and each of them found room. -/
def WindowTracked (id maxPayments windowSecs : ℕ) (p : LimitStore × List Accepted) : Prop :=
  Remembers windowSecs (p.1.paymentWindow id) (times id p.2) ∧
    Admitted windowSecs maxPayments (times id p.2)

/-- Below the last timestamp the sums do not saturate, and a limit of at most the cap leaves no
entry out. -/
theorem activePaymentWindow_eq {m w now : ℕ} (hnow : now < u64Max) (hm : m ≤ paymentWindowCap)
    (hroom : (s.activePaymentWindow id now w).length < m) :
    s.activePaymentWindow id now w = counting w now (s.paymentWindow id) := by
  have hfilter : ((s.paymentWindow id).filter fun paidAt => now < satAddU64 paidAt w) =
      counting w now (s.paymentWindow id) := by
    refine List.filter_congr fun a _ => ?_
    unfold satAddU64
    simp [hnow]
  unfold LimitStore.activePaymentWindow at hroom ⊢
  rw [popFront_eq_self_of_lt (hroom.trans_le hm), hfilter]

theorem recordWindow_ne {other : ℕ} (hne : id ≠ other) :
    (recordWindow env other inv s).paymentWindow id = s.paymentWindow id := by
  unfold recordWindow
  split
  · exact update_of_ne hne ..
  · rfl

theorem recordWindow_self {m w : ℕ} (hwindow : paymentWindowOf inv = some (m, w)) :
    (recordWindow env id inv s).paymentWindow id =
      popFront (paymentWindowCap - 1) (s.activePaymentWindow id env.now w) ++ [env.now] := by
  unfold recordWindow
  rw [hwindow]
  exact update_self ..

/-- A payment that the window of the invoice takes. -/
theorem WindowTracked.take {m w : ℕ} (h : WindowTracked id m w p) (hm : m ≤ paymentWindowCap)
    (hnow : env.now < u64Max) (hlatest : ∀ a ∈ times id p.2, a ≤ env.now)
    (hwindow : paymentWindowOf inv = some (m, w))
    (hroom : (p.1.activePaymentWindow id env.now w).length < m)
    (hrecord : t.paymentWindow = (recordWindow env id inv p.1).paymentWindow) {payments : List Accepted}
    (hpayments : times id payments = times id p.2 ++ [env.now]) : WindowTracked id m w (t, payments) := by
  obtain ⟨hremembers, hadmitted⟩ := h
  have hactive := activePaymentWindow_eq hnow hm hroom
  have hstored : t.paymentWindow id = counting w env.now (p.1.paymentWindow id) ++ [env.now] := by
    rw [hrecord, recordWindow_self hwindow, popFront_eq_self (by omega), hactive]
  refine ⟨?_, ?_⟩
  · rw [hstored, hpayments]
    exact hremembers.snoc hlatest
  · rw [hpayments]
    rw [hactive, hremembers env.now hlatest] at hroom
    exact hadmitted.snoc hroom

theorem WindowTracked.step {m w : ℕ} (h : WindowTracked id m w p) (hm : m ≤ paymentWindowCap)
    (hnow : c.1.now < u64Max) (hlatest : Latest p c) (hhas : HasWindow id m w p c)
    (hrun : noted c p = .ok (v, q)) : WindowTracked id m w q := by
  obtain ⟨payment, hstep, hpayments⟩ := noted_ok hrun
  obtain ⟨t, payments⟩ := q
  obtain rfl : payments = p.2 ++ payment.toList := hpayments
  obtain ⟨rfl, ledger, hsame⟩ | ⟨payer, other, amount, nonce, donate, hcall, rfl, htakes⟩ :=
    limitStep_ok hstep
  · rw [Option.toList_none, List.append_nil]
    obtain rfl : { p.1 with ledger := ledger } = t := hsame
    exact h
  · obtain ⟨inv, stored, hstored, hwindow, hroom, hrecord⟩ := htakes.window
    rw [Option.toList_some]
    by_cases hid : other = id
    · subst hid
      unfold HasWindow at hhas
      rw [hcall] at hhas
      obtain ⟨hmax, hsecs⟩ := hhas rfl stored hstored
      have hwindow' : paymentWindowOf inv = some (m, w) := by
        rw [hwindow]
        unfold paymentWindowOf
        rw [hmax, hsecs]
      refine h.take hm hnow ?_ hwindow' (hroom (m, w) hwindow') hrecord ?_
      · intro a ha
        obtain ⟨e, he, rfl⟩ := List.mem_map.1 ha
        exact (hlatest e (List.mem_of_mem_filter he)).1
      · rw [times_snoc, if_pos rfl]
    · have htimes : times id (p.2 ++ [⟨other, payer, c.1.now, c.1.sequence⟩]) = times id p.2 := by
        rw [times_snoc, if_neg hid]
      unfold WindowTracked
      rw [htimes, hrecord, recordWindow_ne (Ne.symm hid)]
      exact h

theorem WindowTracked.within {m w : ℕ} (h : WindowTracked id m w p) : WithinWindow id m w p.2 := by
  intro t
  have hinterval := h.2.interval t
  unfold times at hinterval
  rw [List.filter_map, List.length_map, List.filter_filter] at hinterval
  refine le_of_eq_of_le ?_ hinterval
  congr 1
  refine List.filter_congr fun e _ => ?_
  by_cases hid : e.id = id <;> simp [hid]

/-! ## The rate limit -/

/-- The rate limit is as it was set, and each payer's list has kept what counts. -/
def RateTracked (s₀ : LimitStore) (p : LimitStore × List Accepted) : Prop :=
  (p.1.rateLimitWindow = s₀.rateLimitWindow ∧ p.1.rateLimitMax = s₀.rateLimitMax) ∧
    (s₀.rateLimited = true → ∀ id payer,
      Remembers s₀.rateLimitWindow (p.1.payerPaymentTimestamps id payer) (ledgers id payer p.2) ∧
        Admitted s₀.rateLimitWindow s₀.rateLimitMax (ledgers id payer p.2))

theorem rateLimited_congr (h : t.rateLimitWindow = s.rateLimitWindow ∧ t.rateLimitMax = s.rateLimitMax) :
    t.rateLimited = s.rateLimited := by
  unfold LimitStore.rateLimited
  rw [h.1, h.2]

theorem prunedTimestamps_eq (hon : s.rateLimited = true) (now : ℕ) :
    s.prunedTimestamps id payer now = counting s.rateLimitWindow now (s.payerPaymentTimestamps id payer) := by
  have hpos : s.rateLimitWindow ≠ 0 := by
    unfold LimitStore.rateLimited at hon
    exact (of_decide_eq_true hon).1
  refine List.filter_congr fun a _ => ?_
  exact decide_eq_decide.2 (by omega)

theorem RateTracked.step {s₀ : LimitStore} (h : RateTracked s₀ p) (hlatest : Latest p c)
    (hrun : noted c p = .ok (v, q)) : RateTracked s₀ q := by
  obtain ⟨payment, hstep, hpayments⟩ := noted_ok hrun
  obtain ⟨t, payments⟩ := q
  obtain rfl : payments = p.2 ++ payment.toList := hpayments
  obtain ⟨rfl, ledger, hsame⟩ | ⟨payer, id, amount, nonce, donate, -, rfl, htakes⟩ := limitStep_ok hstep
  · rw [Option.toList_none, List.append_nil]
    obtain rfl : { p.1 with ledger := ledger } = t := hsame
    exact h
  · obtain ⟨hsettings, htracked⟩ := h
    refine ⟨⟨htakes.settings.1.trans hsettings.1, htakes.settings.2.trans hsettings.2⟩,
      fun hon other payer' => ?_⟩
    have hon' : p.1.rateLimited = true := (rateLimited_congr hsettings).trans hon
    obtain ⟨hremembers, hadmitted⟩ := htracked hon other payer'
    obtain ⟨hroom, hrecord⟩ := htakes.rate hon'
    rw [prunedTimestamps_eq hon', hsettings.1] at hroom hrecord
    rw [hsettings.2] at hroom
    rw [Option.toList_some]
    dsimp only
    rw [ledgers_snoc, hrecord]
    split_ifs with hsame
    · obtain ⟨rfl, rfl⟩ : id = other ∧ payer = payer' := hsame
      have hlast : ∀ a ∈ ledgers id payer p.2, a ≤ c.1.sequence := by
        intro a ha
        obtain ⟨e, he, rfl⟩ := List.mem_map.1 ha
        exact (hlatest e (List.mem_of_mem_filter he)).2
      rw [update_self, update_self]
      refine ⟨hremembers.snoc hlast, hadmitted.snoc ?_⟩
      rwa [hremembers c.1.sequence hlast] at hroom
    · have hother : update p.1.payerPaymentTimestamps id (update (p.1.payerPaymentTimestamps id) payer
          (counting s₀.rateLimitWindow c.1.sequence (p.1.payerPaymentTimestamps id payer) ++
            [c.1.sequence])) other payer' = p.1.payerPaymentTimestamps other payer' := by
        by_cases hid : other = id
        · subst hid
          rw [update_self, update_of_ne fun hpayer => hsame ⟨rfl, hpayer.symm⟩]
        · rw [update_of_ne hid]
      rw [hother]
      exact ⟨hremembers, hadmitted⟩

theorem RateTracked.within {s₀ : LimitStore} (h : RateTracked s₀ p) : WithinRate s₀ p.2 := by
  intro hon id payer t
  have hinterval := (h.2 hon id payer).2.interval t
  unfold ledgers at hinterval
  rw [List.filter_map, List.length_map, List.filter_filter] at hinterval
  refine le_of_eq_of_le ?_ hinterval
  congr 1
  refine List.filter_congr fun e _ => ?_
  by_cases hid : e.id = id <;> by_cases hpayer : e.payer = payer <;> simp [hid, hpayer]

/-! ## Both limits -/

/-- No limiter has recorded a payment yet. -/
structure Unused (s : LimitStore) : Prop where
  window : ∀ id, s.paymentWindow id = []
  rate : ∀ id payer, s.payerPaymentTimestamps id payer = []

/-- In every run in the order of times and ledgers, below the last timestamp, the accepted payments
keep to the rate limit and to the window of an invoice with a limit of at most the cap. -/
theorem payments_within_limits {maxPayments windowSecs : ℕ} (hunused : Unused s) (hordered : Ordered calls)
    (hhas : Along (HasWindow id maxPayments windowSecs) noted (s, []) calls)
    (hmax : maxPayments ≤ paymentWindowCap) (htime : ∀ c ∈ calls, c.1.now < u64Max) :
    WithinWindow id maxPayments windowSecs (run s calls).2 ∧ WithinRate s (run s calls).2 := by
  have hlatest : Along Latest noted (s, []) calls := latest_along hordered fun _ _ _ he => by cases he
  have hstart : WindowTracked id maxPayments windowSecs (s, []) ∧ RateTracked s (s, []) := by
    refine ⟨⟨?_, .nil⟩, ⟨rfl, rfl⟩, fun _ id payer => ⟨?_, .nil⟩⟩
    · exact (hunused.window id).symm ▸ remembers_nil windowSecs
    · exact (hunused.rate id payer).symm ▸ remembers_nil s.rateLimitWindow
  have hend : WindowTracked id maxPayments windowSecs (run s calls) ∧ RateTracked s (run s calls) := by
    refine runAll_induction
      (I := fun p => WindowTracked id maxPayments windowSecs p ∧ RateTracked s p) ?_ hstart
      ((hlatest.and hhas).and_mem htime)
    rintro p c v q ⟨hwindow, hrate⟩ ⟨hnow, hlast, hterms⟩ hrun
    exact ⟨hwindow.step hmax hnow hlast hterms hrun, hrate.step hlast hrun⟩
  exact ⟨hend.1.within, hend.2.within⟩

/-- An invoice over 1000 that takes `maxPayments` payments a minute. -/
def windowInvoice (maxPayments : ℕ) : Invoice :=
  { sampleInvoice with
    amounts := [500, 500]
    deadline := u64Max
    maxPaymentsPerWindow := some maxPayments
    paymentWindowSecs := some 60 }

def windowStore (maxPayments : ℕ) : LimitStore :=
  { ledger := sampleStore (windowInvoice maxPayments) [] }

/-- Payer 20 pays 1 so many times in one ledger. -/
def paymentsAt (now n : ℕ) : List (Env × LimitCall) :=
  (List.range n).map fun i => (sampleEnv now 0, .pay 20 1 1 i false)

theorem hasWindow_of_load {m w : ℕ}
    (h : ((p.1.ledger.entries id).load.map fun inv => (inv.maxPaymentsPerWindow, inv.paymentWindowSecs)) =
      some (some m, some w)) : HasWindow id m w p c := by
  unfold HasWindow
  split
  · intro _ inv hinv
    rw [hinv] at h
    exact Prod.mk.inj (Option.some.inj h)
  · trivial

/-- The second payment of a minute is turned down. -/
theorem payments_within_limits_sample :
    (run (windowStore 1) (paymentsAt 10 2)).2 = [⟨1, 20, 10, 10⟩] ∧
      WithinWindow 1 1 60 (run (windowStore 1) (paymentsAt 10 2)).2 := by
  refine ⟨by decide +kernel, (payments_within_limits ⟨fun _ => rfl, fun _ _ => rfl⟩ ?_ ?_ ?_ ?_).1⟩
  · unfold Ordered
    decide
  · exact ⟨fun _ => hasWindow_of_load rfl, fun _ => hasWindow_of_load (by decide +kernel), trivial⟩
  · decide
  · decide

/-- A limit of 101 payments a minute does not keep the 102nd back, and at the last timestamp a limit
of one payment does not keep the second back. -/
theorem payments_beyond_window :
    ¬WithinWindow 1 101 60 (run (windowStore 101) (paymentsAt 10 102)).2 ∧
      ¬WithinWindow 1 1 60 (run (windowStore 1) (paymentsAt u64Max 2)).2 := by
  refine ⟨fun h => ?_, fun h => ?_⟩
  · have hcount : ((run (windowStore 101) (paymentsAt 10 102)).2.filter
        fun p => p.id = 1 ∧ 10 ≤ p.time ∧ p.time < 10 + 60).length = 102 := by decide +kernel
    have hle := h 10
    rw [hcount] at hle
    omega
  · have hcount : ((run (windowStore 1) (paymentsAt u64Max 2)).2.filter
        fun p => p.id = 1 ∧ u64Max ≤ p.time ∧ p.time < u64Max + 60).length = 2 := by decide +kernel
    have hle := h u64Max
    rw [hcount] at hle
    omega

end StellarSplit.Split.PaymentWindows
