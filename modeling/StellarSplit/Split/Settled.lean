import StellarSplit.Split.Failed

/-!
# Settled invoices

An invoice that is released, refunded or cancelled stays so under the calls
that pay, release, refund and resolve, on whatever invoice they are made. Only
its own renewal writes the status again. After a renewal a payer may opt out,
which pays back what the payer has on record, once.
-/

namespace StellarSplit.Split

open Exec Function Machine

variable {s t u : Store} {env : Env} {k j : ℕ} {inv : Invoice} {α : Type}

/-! ## Calls on other invoices -/

/-- The memos of other invoices. -/
def memoApart (k : ℕ) (m : Memo) : Prop := m.invoice ≠ k

instance covers_memoApart : Covers (others k) (memoApart k) := ⟨fun _ h _ => h⟩

/-- No invoice forwards to `k`, `k` is not pending, and its id has been handed out. -/
structure Idle (k : ℕ) (s : Store) : Prop where
  closed : Closed (others k) (others k) s
  status : ∀ inv ∈ (s.entries k).invoice, inv.status ≠ .pending
  counter : k ≤ s.counter

/-- The calls that leave the entries of an idle invoice alone and move nothing for it. -/
abbrev Apart (k : ℕ) : Store → Store → Prop := Under (Idle k) (Change (others k) (memoApart k))

theorem Idle.groupInside (h : Idle k s) (j : ℕ) : GroupInside (others k) j s := by
  intro g _ G _ m _
  by_cases hm : m = k
  · subst hm
    exact .inr h.status
  · exact .inl hm

theorem Idle.change (h : Idle k s) (hclosed : Closed (others k) (others k) t)
    (hst : Change (others k) (memoApart k) s t) : Idle k t := by
  have hentry : t.entries k = s.entries k := hst.entries k (by simp)
  refine ⟨hclosed, ?_, h.counter.trans hst.counter⟩
  rw [hentry]
  exact h.status

theorem apart_of_group {x : SplitM α} (hx : Framed (GroupFrame (others k) (memoApart k) j) x) :
    Respects (Apart k) x := by
  intro s a t hrun h
  obtain ⟨⟨hclosed, -⟩, hst⟩ := hx.respects s a t hrun ⟨h.closed, h.groupInside j⟩
  exact ⟨h.change hclosed hst, hst⟩

theorem apart_of_frame {x : SplitM α} (hx : Framed (Frame (others k) (others k) (memoApart k)) x) :
    Respects (Apart k) x := by
  intro s a t hrun h
  obtain ⟨hclosed, hst⟩ := hx.respects s a t hrun h.closed
  exact ⟨h.change hclosed hst, hst⟩

/-- A pool payment that names the idle invoice does not pass its checks. -/
theorem checkPool_ne {token : Address} {payments : List InvoicePayment} {v : Unit} (h : Idle k s)
    (hrun : forM payments (checkPoolPayment env token) s = .ok (v, t)) :
    ∀ p ∈ payments, p.invoiceId ≠ k := by
  rintro p hp rfl
  have hcheck := forM_each hrun p hp
  simp only [checkPoolPayment, loadInvoice_bind, require_bind] at hcheck
  obtain ⟨inv, hload, hpending, -⟩ := hcheck
  obtain ⟨stored, hstored, rfl⟩ := Option.map_eq_some_iff.1 hload
  exact h.status stored hstored hpending

theorem apart_poolPay {payer : Address} {payments : List InvoicePayment} :
    Respects (Apart k) (poolPay env payer payments) := by
  intro s v t hrun h
  simp only [poolPay, requireNotPaused_bind, requireAuth_bind, orPanic_bind, loadInvoice_bind] at hrun
  obtain ⟨-, -, first, -, firstInv, -, hrun⟩ := hrun
  obtain ⟨_, u₁, hcheck, hrun⟩ := bind_ok.1 hrun
  obtain rfl := eq_of_framed hcheck
  have hne : ∀ p ∈ payments, p.invoiceId ≠ k := checkPool_ne h hcheck
  have hcollect : Respects (Apart k) (collectPool env (fundingTokenFor firstInv) payer payments) := by
    unfold collectPool
    cases payments with
    | nil => exact .pure ()
    | cons p payments =>
        have hmem : Fact (p.invoiceId ∈ others k) := ⟨hne p (by simp)⟩
        exact apart_of_frame inferInstance
  have hcredit : Respects (Apart k) (forM payments (creditPoolPayment env payer)) := by
    refine .forM fun p hp => ?_
    have hmem : Fact (p.invoiceId ∈ others k) := ⟨hne p hp⟩
    exact apart_of_group framed_creditPoolPayment
  exact Respects.bind hcollect (fun _ => hcredit) s v t hrun h

theorem into_successor {V : Set ℕ} {amounts : List ℤ} {deadline : ℕ} (h : ForwardsInto V inv) :
    ForwardsInto V (successor inv j amounts deadline) := h

/-- The renewal of another invoice stores its successor under a fresh id. -/
theorem renewInvoice_change {V : Set ℕ} {creator : Address} {deadline id : ℕ} (hj : j ≠ k)
    (hk : k ≤ s.counter) (hclosed : Closed V (others k) s)
    (hrun : renewInvoice env creator j deadline s = .ok (id, t)) :
    Closed V (others k) t ∧ Change (others k) (memoApart k) s t := by
  simp only [renewInvoice, requireNotPaused_bind, requireAuth_bind, loadInvoice_bind, getEntry_bind,
    require_bind, ofResult_bind] at hrun
  obtain ⟨-, -, old, hload, -, -, -, -, amounts, -, hrun⟩ := hrun
  obtain ⟨new, u, hnext, hrun⟩ := bind_ok.1 hrun
  simp only [nextId, bind_ok, get_ok, set_ok, pure_ok] at hnext
  obtain ⟨_, _, ⟨rfl, rfl⟩, _, _, rfl, rfl, rfl⟩ := hnext
  have hfresh : Fact (s.counter + 1 ∈ others k) := by
    refine ⟨?_⟩
    simp only [Set.mem_ofPred_eq]
    omega
  have hother : Fact (j ∈ others k) := ⟨hj⟩
  have hinto : ForwardsInto V old := hclosed.load hj hload
  have hold : Fact (ForwardsInto V old) := ⟨hinto⟩
  have hnew : Fact (ForwardsInto V (successor old j amounts deadline)) := ⟨into_successor hinto⟩
  have hcreated : ∀ id, Fact (id ∈ others k) →
      Framed (Frame V (others k) (memoApart k)) (setCreatedLedger env id) :=
    fun _ _ => framed_note fun _ => rfl
  have hrenewed : ∀ id, Framed (Frame V (others k) (memoApart k)) (setRenewedTo j id) :=
    fun _ => framed_note fun _ => rfl
  have hframe : Framed (Frame V (others k) (memoApart k)) (do
      setCreatedLedger env (s.counter + 1)
      saveInvoice env (s.counter + 1) (successor old j amounts deadline)
      setRenewedTo j (s.counter + 1)
      saveInvoice env j (old.completed .cancelled env.now)
      pure (s.counter + 1)) := by
    have hfirst := hcreated (s.counter + 1) hfresh
    infer_instance
  obtain ⟨ht, hst⟩ := hframe.respects _ id t hrun hclosed
  exact ⟨ht, hst.entries, hst.group, hst.groups, (Nat.le_succ _).trans hst.counter, hst.log⟩

theorem apart_renewInvoice {creator : Address} {deadline : ℕ} (hj : j ≠ k) :
    Respects (Apart k) (renewInvoice env creator j deadline) := by
  intro s id t hrun h
  obtain ⟨hclosed, hst⟩ := renewInvoice_change hj h.counter h.closed hrun
  exact ⟨h.change hclosed hst, hst⟩

/-! ## The calls -/

inductive SettledCall where
  | pay (payer : Address) (id : ℕ) (amount : ℤ) (nonce : ℕ) (donateOnFailure : Bool)
  | poolPay (payer : Address) (payments : List InvoicePayment)
  | contribute (id : ℕ) (payer : Address) (amount : ℤ)
  | release (id : ℕ) (preimage : Option (List ℕ))
  | refund (id : ℕ)
  | cancelInvoice (caller : Address) (id : ℕ)
  | autoResolve (id : ℕ)
  | resolveDispute (id : ℕ) (arbiter : Address) (resolution : ResolveAction)
  | resolveInvoiceDispute (id : ℕ) (admin : Address) (outcome : DisputeOutcome)
  | settleAuction (id : ℕ)
  | renewInvoice (creator : Address) (oldId deadline : ℕ)
  | optOutRenewal (payer : Address) (oldId : ℕ)
deriving DecidableEq

structure SettledStep where
  env : Env
  call : SettledCall

def SettledStep.run (step : SettledStep) : SplitM Unit :=
  match step.call with
  | .pay payer id amount nonce donate => Split.pay step.env payer id amount nonce donate
  | .poolPay payer payments => Split.poolPay step.env payer payments
  | .contribute id payer amount => ignore (Split.contribute step.env id payer amount)
  | .release id preimage => Split.releaseInvoice step.env id preimage
  | .refund id => Split.refund step.env id
  | .cancelInvoice caller id => Split.cancelInvoice step.env caller id
  | .autoResolve id => Split.autoResolve step.env id
  | .resolveDispute id arbiter resolution => Split.resolveDispute step.env id arbiter resolution
  | .resolveInvoiceDispute id admin outcome => Split.resolveInvoiceDispute step.env id admin outcome
  | .settleAuction id => Split.settleAuction step.env id
  | .renewInvoice creator oldId deadline => ignore (Split.renewInvoice step.env creator oldId deadline)
  | .optOutRenewal payer oldId => Split.optOutRenewal step.env payer oldId

/-- The invoice a call is made on; a pool payment is made on several. -/
def SettledCall.subject : SettledCall → Option ℕ
  | .pay _ id _ _ _ | .contribute id _ _ | .release id _ | .refund id | .cancelInvoice _ id
  | .autoResolve id | .resolveDispute id _ _ | .resolveInvoiceDispute id _ _ | .settleAuction id
  | .renewInvoice _ id _ | .optOutRenewal _ id => some id
  | .poolPay _ _ => none

theorem SettledStep.apart {step : SettledStep} (hne : step.call.subject ≠ some k) :
    Respects (Apart k) step.run := by
  obtain ⟨env, call⟩ := step
  have hmem : ∀ {id}, call.subject = some id → Fact (id ∈ others k) := by
    intro id hid
    refine ⟨fun h => hne ?_⟩
    rw [hid, h]
  cases call with
  | poolPay payer payments => exact apart_poolPay
  | renewInvoice creator oldId deadline => exact .ignore (apart_renewInvoice (hmem rfl).out)
  | pay payer id amount nonce donate =>
      have hid := hmem rfl
      exact apart_of_group framed_pay
  | contribute id payer amount =>
      have hid := hmem rfl
      exact .ignore (apart_of_frame framed_contribute)
  | release id preimage =>
      have hid := hmem rfl
      exact apart_of_group framed_releaseInvoice
  | refund id =>
      have hid := hmem rfl
      exact apart_of_frame framed_refund
  | cancelInvoice caller id =>
      have hid := hmem rfl
      exact apart_of_frame framed_cancelInvoice
  | autoResolve id =>
      have hid := hmem rfl
      exact apart_of_group framed_autoResolve
  | resolveDispute id arbiter resolution =>
      have hid := hmem rfl
      exact apart_of_group framed_resolveDispute
  | resolveInvoiceDispute id admin outcome =>
      have hid := hmem rfl
      exact apart_of_frame framed_resolveInvoiceDispute
  | settleAuction id =>
      have hid := hmem rfl
      exact apart_of_frame framed_settleAuction
  | optOutRenewal payer oldId =>
      have hid := hmem rfl
      exact apart_of_frame framed_optOutRenewal

/-! ## Calls on a settled invoice -/

/-- The final states of an invoice. -/
def InvoiceStatus.Settled (status : InvoiceStatus) : Prop :=
  status = .released ∨ status = .refunded ∨ status = .cancelled

theorem settled_ne {status other : InvoiceStatus} (h : status.Settled)
    (hother : other ≠ .released ∧ other ≠ .refunded ∧ other ≠ .cancelled) : status ≠ other := by
  rintro rfl
  rcases h with h | h | h
  · exact hother.1 h
  · exact hother.2.1 h
  · exact hother.2.2 h

/-- The invoice is settled and not marked as disputed. -/
def Terminal (k : ℕ) (s : Store) : Prop :=
  ∃ inv ∈ (s.entries k).invoice, inv.status.Settled ∧ inv.disputed = false

theorem Terminal.load (h : Terminal k s) (hload : (s.entries k).load = some inv) :
    inv.status.Settled ∧ inv.disputed = false := by
  obtain ⟨stored, hstored, h⟩ := h
  obtain rfl : stored.withPayments (s.entries k).payments = inv := by
    simpa [Entry.load, Option.mem_def.1 hstored] using hload
  exact h

section Refused

variable {v : Unit}

theorem Terminal.pay_fails {payer : Address} {amount : ℤ} {nonce : ℕ} {donate : Bool}
    (h : Terminal k s) : pay env payer k amount nonce donate s ≠ .ok (v, t) := by
  intro hrun
  obtain ⟨stored, hload, hpending⟩ := pay_pending hrun
  exact settled_ne (h.load hload).1 (by simp) hpending

theorem Terminal.contribute_fails {payer : Address} {amount : ℤ} {r : ℤ × ℤ} (h : Terminal k s) :
    contribute env k payer amount s ≠ .ok (r, t) := by
  intro hrun
  simp only [contribute, requireNotPaused_bind, requireAuth_bind, require_bind, loadInvoice_bind] at hrun
  obtain ⟨-, -, -, inv, hload, -, hpending, -⟩ := hrun
  exact settled_ne (h.load hload).1 (by simp) hpending

theorem Terminal.release_fails {preimage : Option (List ℕ)} (h : Terminal k s) :
    releaseInvoice env k preimage s ≠ .ok (v, t) := by
  intro hrun
  simp only [releaseInvoice, bind_ok, acquireLock_ok] at hrun
  obtain ⟨_, _, ⟨-, rfl⟩, _, u, hinner, -⟩ := hrun
  obtain ⟨inv, hload, hstatus, -⟩ := releaseInvoiceInner_ok hinner
  rcases hstatus with hstatus | hstatus
  · exact settled_ne (h.load hload).1 (by simp) hstatus
  · exact settled_ne (h.load hload).1 (by simp) hstatus

theorem Terminal.refund_fails (h : Terminal k s) : refund env k s ≠ .ok (v, t) := by
  intro hrun
  obtain ⟨-, -, inv, hload, hdue, hexpired, -⟩ := refund_ok.1 hrun
  have hsettled := (h.load hload).1
  rcases due_of_expired hdue hexpired with hstatus | ⟨hstatus, -⟩
  · exact settled_ne hsettled (by simp) hstatus
  · exact settled_ne hsettled (by simp) hstatus

theorem Terminal.cancel_fails {caller : Address} (h : Terminal k s) :
    cancelInvoice env caller k s ≠ .ok (v, t) := by
  intro hrun
  unfold cancelInvoice at hrun
  obtain ⟨_, _, hlock, hrun⟩ := bind_ok.1 hrun
  obtain ⟨-, rfl⟩ := acquireLock_ok.1 hlock
  simp only [requireNotPaused_bind, requireAuth_bind, loadInvoice_bind, require_bind] at hrun
  obtain ⟨-, -, inv, hload, -, hpending, -⟩ := hrun
  exact settled_ne (h.load hload).1 (by simp) hpending

theorem Terminal.autoResolve_fails (h : Terminal k s) : autoResolve env k s ≠ .ok (v, t) := by
  intro hrun
  simp only [autoResolve, requireNotPaused_bind, loadInvoice_bind, require_bind] at hrun
  obtain ⟨-, inv, hload, hpending, -⟩ := hrun
  exact settled_ne (h.load hload).1 (by simp) hpending

theorem Terminal.resolveDispute_fails {arbiter : Address} {resolution : ResolveAction}
    (h : Terminal k s) : resolveDispute env k arbiter resolution s ≠ .ok (v, t) := by
  intro hrun
  simp only [resolveDispute, requireNotPaused_bind, requireAuth_bind, loadInvoice_bind,
    require_bind] at hrun
  obtain ⟨-, -, inv, hload, -, hdisputed, -⟩ := hrun
  rw [(h.load hload).2] at hdisputed
  cases hdisputed

theorem Terminal.resolveInvoiceDispute_fails {admin : Address} {outcome : DisputeOutcome}
    (h : Terminal k s) : resolveInvoiceDispute env k admin outcome s ≠ .ok (v, t) := by
  intro hrun
  simp only [resolveInvoiceDispute, requireNotPaused_bind, requireAuth_bind, loadInvoice_bind,
    require_bind] at hrun
  obtain ⟨-, -, inv, hload, hstatus, -⟩ := hrun
  exact settled_ne (h.load hload).1 (by simp) hstatus

theorem Terminal.settle_fails (h : Terminal k s) : settleAuction env k s ≠ .ok (v, t) := by
  intro hrun
  simp only [settleAuction, requireNotPaused_bind, loadInvoice_bind, require_bind] at hrun
  obtain ⟨-, inv, hload, -, -, -, hpending, -⟩ := hrun
  exact settled_ne (h.load hload).1 (by simp) hpending

end Refused

/-- On a settled invoice only a renewal and, after it, an opt-out return. -/
theorem SettledStep.on_terminal {step : SettledStep} {v : Unit} (h : Terminal k s)
    (hsubject : step.call.subject = some k) (hrun : step.run s = .ok (v, t)) :
    (∃ creator deadline, step.call = .renewInvoice creator k deadline) ∨
      ∃ payer, optOutRenewal step.env payer k s = .ok (v, t) := by
  obtain ⟨env, call⟩ := step
  cases call with
  | poolPay payer payments => cases hsubject
  | pay payer id amount nonce donate =>
      obtain rfl := Option.some.inj hsubject
      exact absurd hrun h.pay_fails
  | contribute id payer amount =>
      obtain rfl := Option.some.inj hsubject
      obtain ⟨r, hrun⟩ := ignore_ok.1 hrun
      exact absurd hrun h.contribute_fails
  | release id preimage =>
      obtain rfl := Option.some.inj hsubject
      exact absurd hrun h.release_fails
  | refund id =>
      obtain rfl := Option.some.inj hsubject
      exact absurd hrun h.refund_fails
  | cancelInvoice caller id =>
      obtain rfl := Option.some.inj hsubject
      exact absurd hrun h.cancel_fails
  | autoResolve id =>
      obtain rfl := Option.some.inj hsubject
      exact absurd hrun h.autoResolve_fails
  | resolveDispute id arbiter resolution =>
      obtain rfl := Option.some.inj hsubject
      exact absurd hrun h.resolveDispute_fails
  | resolveInvoiceDispute id admin outcome =>
      obtain rfl := Option.some.inj hsubject
      exact absurd hrun h.resolveInvoiceDispute_fails
  | settleAuction id =>
      obtain rfl := Option.some.inj hsubject
      exact absurd hrun h.settle_fails
  | renewInvoice creator oldId deadline =>
      obtain rfl := Option.some.inj hsubject
      exact .inl ⟨creator, deadline, rfl⟩
  | optOutRenewal payer oldId =>
      obtain rfl := Option.some.inj hsubject
      exact .inr ⟨payer, hrun⟩

/-- What an opt-out does: it pays the payer once and marks the payer as refunded. -/
structure OptedOut (k : ℕ) (payer : Address) (inv : Invoice) (s t : Store) : Prop where
  renewed : (s.entries k).renewedTo.isSome = true
  fresh : payer ∉ inv.refundedAddresses
  paid : 0 < paidBy (s.entries k).payments payer
  log : ∃ token, t.log =
    ⟨token, currentContract, payer, paidBy (s.entries k).payments payer, ⟨k, .refund⟩⟩ :: s.log
  stored : (t.entries k).invoice = some ((inv.markRefunded payer).withPayments [])
  payments : (t.entries k).payments = (s.entries k).payments
  renewedTo : (t.entries k).renewedTo = (s.entries k).renewedTo
  entries : ∀ j, j ≠ k → t.entries j = s.entries j
  counter : t.counter = s.counter

theorem optOutRenewal_ok {payer : Address} {v : Unit}
    (hrun : optOutRenewal env payer k s = .ok (v, t)) :
    ∃ inv, (s.entries k).load = some inv ∧ OptedOut k payer inv s t := by
  simp only [optOutRenewal, requireNotPaused_bind, requireAuth_bind, loadInvoice_bind, getEntry_bind,
    require_bind] at hrun
  obtain ⟨-, -, inv, hload, -, hrenewed, -, hfresh, hpaid, hrun⟩ := hrun
  obtain ⟨stored, hstored, rfl⟩ := Option.map_eq_some_iff.1 hload
  obtain ⟨_, u, hpay, hsave⟩ := bind_ok.1 hrun
  obtain ⟨-, rfl⟩ := transfer_ok.1 hpay
  have hsaved := saveInvoice_stored hsave
  obtain ⟨-, rfl⟩ := saveInvoice_ok.1 hsave
  refine ⟨_, hload, hrenewed, hfresh, hpaid, ⟨_, rfl⟩, hsaved, ?_, ?_, fun j hj => ?_, rfl⟩
  · rw [Store.setEntry_self]
    rfl
  · rw [Store.setEntry_self]
    rfl
  · exact Store.setEntry_ne _ hj _

/-! ## Runs -/

/-- What the contract has sent to an address for an invoice. -/
def sentTo (k : ℕ) (p : Address) (s : Store) : ℤ :=
  tally (fun m => m.memo.invoice = k ∧ m.src = currentContract ∧ m.dst = p) s.log

theorem sentTo_change {p : Address} (h : Change (others k) (memoApart k) s t) :
    sentTo k p t = sentTo k p s := by
  obtain ⟨new, hlog, hnew⟩ := h.log
  have hzero : tally (fun m => m.memo.invoice = k ∧ m.src = currentContract ∧ m.dst = p) new = 0 := by
    apply tally_eq_zero
    intro m hm
    simp only [decide_eq_false_iff_not]
    exact fun hown => hnew m hm hown.1
  unfold sentTo
  rw [hlog, tally_append, hzero, zero_add]

/-- What an opt-out may still pay to a payer: the recorded payments of a renewed invoice. -/
def optOutDue (e : Entry) (inv : Invoice) (p : Address) : ℤ :=
  if e.renewedTo.isSome = true ∧ p ∉ inv.refundedAddresses then max (paidBy e.payments p) 0 else 0

theorem optOutDue_nonneg (e : Entry) (inv : Invoice) (p : Address) : 0 ≤ optOutDue e inv p := by
  unfold optOutDue
  split_ifs <;> omega

/-- The invoice is settled as it was, and what has gone out for it and what may still go out
is no more than what might have gone out at first. -/
structure StaysSettled (k : ℕ) (inv : Invoice) (s t : Store) : Prop where
  idle : Idle k t
  stored : ∃ inv', (t.entries k).invoice = some inv' ∧ inv'.status = inv.status ∧
    inv'.disputed = false ∧ ∀ p, sentTo k p t + optOutDue (t.entries k) inv' p ≤
      sentTo k p s + optOutDue (s.entries k) inv p

theorem StaysSettled.apart (h : StaysSettled k inv s t)
    (hapart : Idle k t → Idle k u ∧ Change (others k) (memoApart k) t u) :
    StaysSettled k inv s u := by
  obtain ⟨hidle, hchange⟩ := hapart h.idle
  have hentry : u.entries k = t.entries k := hchange.entries k (by simp)
  refine ⟨hidle, ?_⟩
  obtain ⟨inv', hstored, hstatus, hdisputed, hdue⟩ := h.stored
  refine ⟨inv', by rw [hentry, hstored], hstatus, hdisputed, fun p => ?_⟩
  rw [hentry, sentTo_change hchange]
  exact hdue p

/-- An opt-out moves the due amount of the payer from what may go out to what has gone out. -/
theorem StaysSettled.optOut {payer : Address} {v : Unit} (h : StaysSettled k inv s t)
    (hrun : optOutRenewal env payer k t = .ok (v, u)) : StaysSettled k inv s u := by
  obtain ⟨inv', hstored, hstatus, hdisputed, hdue⟩ := h.stored
  obtain ⟨loaded, hload, hout⟩ := optOutRenewal_ok hrun
  obtain rfl : inv'.withPayments (t.entries k).payments = loaded := by
    simpa [Entry.load, hstored] using hload
  refine ⟨⟨?_, ?_, ?_⟩, _, hout.stored, hstatus, hdisputed, fun p => ?_⟩
  · exact closed_of_entries h.idle.closed hout.entries
  · intro stored hmem
    rw [hout.stored] at hmem
    obtain rfl := Option.some.inj hmem
    exact h.idle.status inv' hstored
  · rw [hout.counter]
    exact h.idle.counter
  · obtain ⟨token, hlog⟩ := hout.log
    have hsent : sentTo k p u =
        (if payer = p then paidBy (t.entries k).payments payer else 0) + sentTo k p t := by
      unfold sentTo
      rw [hlog, tally_cons]
      simp
    have hfresh : payer ∉ inv'.refundedAddresses := hout.fresh
    have hpaid := hout.paid
    have hbefore := hdue p
    rw [hsent]
    by_cases hp : payer = p
    · subst hp
      have hold : optOutDue (t.entries k) inv' payer = paidBy (t.entries k).payments payer := by
        unfold optOutDue
        rw [if_pos ⟨hout.renewed, hfresh⟩, max_eq_left hpaid.le]
      have hnew : optOutDue (u.entries k)
          (((inv'.withPayments (t.entries k).payments).markRefunded payer).withPayments []) payer = 0 := by
        unfold optOutDue
        rw [if_neg (by simp [Invoice.withPayments, Invoice.markRefunded])]
      rw [hnew, if_pos rfl]
      omega
    · have hsame : optOutDue (u.entries k)
          (((inv'.withPayments (t.entries k).payments).markRefunded payer).withPayments []) p =
          optOutDue (t.entries k) inv' p := by
        unfold optOutDue
        rw [hout.renewedTo, hout.payments]
        simp [Invoice.withPayments, Invoice.markRefunded, Ne.symm hp]
      rw [hsame, if_neg hp, zero_add]
      exact hbefore

theorem StaysSettled.terminal (h : StaysSettled k inv s t) (hsettled : inv.status.Settled) :
    Terminal k t := by
  obtain ⟨inv', hstored, hstatus, hdisputed, -⟩ := h.stored
  refine ⟨inv', hstored, ?_, hdisputed⟩
  rwa [hstatus]

theorem StaysSettled.step {step : SettledStep} {v : Unit} (h : StaysSettled k inv s t)
    (hsettled : inv.status.Settled)
    (hrenew : ∀ creator deadline, step.call ≠ .renewInvoice creator k deadline)
    (hrun : step.run t = .ok (v, u)) : StaysSettled k inv s u := by
  by_cases hsubject : step.call.subject = some k
  · rcases SettledStep.on_terminal (h.terminal hsettled) hsubject hrun with
      ⟨creator, deadline, hcall⟩ | ⟨payer, hout⟩
    · exact absurd hcall (hrenew creator deadline)
    · exact h.optOut hout
  · exact h.apart (SettledStep.apart hsubject t v u hrun)

/-- A settled invoice that is not marked as disputed and to which no other invoice forwards keeps
its status in every run without a renewal of its own, and the run sends nobody anything for it
except, once it has been renewed, each payer's recorded payments once. -/
theorem settled_invoice_stays {steps : List SettledStep} (hinv : (s.entries k).invoice = some inv)
    (hsettled : inv.status.Settled) (hdisputed : inv.disputed = false) (hcounter : k ≤ s.counter)
    (hforward : ∀ j, ForwardsTo s j k → j = k)
    (hrenew : ∀ step ∈ steps, ∀ creator deadline, step.call ≠ .renewInvoice creator k deadline) :
    (∃ inv' ∈ ((runAll SettledStep.run s steps).entries k).invoice, inv'.status = inv.status) ∧
      ∀ p, sentTo k p (runAll SettledStep.run s steps) ≤
        sentTo k p s + optOutDue (s.entries k) inv p := by
  have hidle : Idle k s := by
    refine ⟨?_, ?_, hcounter⟩
    · rintro j hj stored hstored m hm rfl
      exact hj (hforward j ⟨stored, hstored, hm⟩)
    · intro stored hstored
      rw [hinv] at hstored
      obtain rfl := Option.some.inj hstored
      exact settled_ne hsettled (by simp)
  have hfirst : StaysSettled k inv s s := ⟨hidle, inv, hinv, rfl, hdisputed, fun _ => le_rfl⟩
  have hrun : StaysSettled k inv s (runAll SettledStep.run s steps) :=
    runAll_induction (fun _ _ _ _ h hok hstep => h.step hsettled hok.1 hstep) hfirst
      ((along_true SettledStep.run s steps).and_mem hrenew)
  obtain ⟨inv', hstored, hstatus, -, hdue⟩ := hrun.stored
  refine ⟨⟨inv', hstored, hstatus⟩, fun p => ?_⟩
  have hend := hdue p
  have hnonneg := optOutDue_nonneg ((runAll SettledStep.run s steps).entries k) inv' p
  omega

def releasedInvoice : Invoice := { sampleInvoice with funded := 100, status := .released }

def lateCalls : List SettledStep :=
  [⟨sampleEnv 2000 100, .refund 1⟩, ⟨sampleEnv 2000 100, .optOutRenewal 20 1⟩]

theorem released_sample_stays :
    (∃ inv ∈ ((runAll SettledStep.run (sampleStore releasedInvoice [{ payer := 20, amount := 100 }])
        lateCalls).entries 1).invoice, inv.status = .released) ∧
      sentTo 1 20 (runAll SettledStep.run
        (sampleStore releasedInvoice [{ payer := 20, amount := 100 }]) lateCalls) ≤ 0 := by
  have hinv : ((sampleStore releasedInvoice [{ payer := 20, amount := 100 }]).entries 1).invoice =
      some releasedInvoice := rfl
  have hforward : ∀ j, ForwardsTo (sampleStore releasedInvoice [{ payer := 20, amount := 100 }]) j 1 →
      j = 1 := by
    rintro j ⟨inv, hstored, -⟩
    by_contra hj
    simp [sampleStore, hj] at hstored
  have hrenew : ∀ step ∈ lateCalls, ∀ creator deadline,
      step.call ≠ .renewInvoice creator 1 deadline := by
    simp [lateCalls]
  obtain ⟨hstatus, hsent⟩ := settled_invoice_stays hinv (.inl rfl) rfl le_rfl hforward hrenew
  exact ⟨hstatus, hsent 20⟩

/-- The renewal cancels an invoice on which 50 are recorded; the opt-out then pays them back. -/
theorem cancelled_invoice_pays_back :
    ∃ id t u, renewInvoice (sampleEnv 2000 50) 2 1 5000
        (sampleStore { sampleInvoice with funded := 50 } [{ payer := 20, amount := 50 }]) =
          .ok (id, t) ∧
      (∃ inv ∈ (t.entries 1).invoice, inv.status = .cancelled) ∧
      optOutRenewal (sampleEnv 2100 50) 20 1 t = .ok ((), u) ∧
      sentTo 1 20 t = 0 ∧ sentTo 1 20 u = 50 := by
  refine ⟨_, _, _, rfl, ?_, rfl, ?_, ?_⟩
  · exact ⟨_, rfl, rfl⟩
  · decide
  · decide

end StellarSplit.Split
