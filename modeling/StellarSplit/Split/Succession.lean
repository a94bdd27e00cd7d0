import StellarSplit.Split.Creation
import StellarSplit.Split.Settled

/-!
# Rolled over and renewed invoices

A rollover copies the payments to a new invoice and closes the old one. A
renewal starts a new invoice without payments, and the payers may take back
what the old one has on record. The pots of an invoice are what it has been
funded with, its bonus pool and its insurance fund.
-/

namespace StellarSplit.Split

open Exec Function Machine

variable {env : Env} {s t u : Store} {id k j newId : ℕ} {inv old : Invoice} {α : Type}

/-- What the contract holds for an invoice. -/
def Invoice.pots (inv : Invoice) : ℤ := inv.funded + inv.bonusPool + inv.insuranceFund

/-- What the contract has sent out for an invoice. -/
def sentFor (k : ℕ) (s : Store) : ℤ :=
  tally (fun m => m.memo.invoice = k ∧ m.src = currentContract) s.log

/-- Ids that have not been handed out have no invoice and no payments. -/
def Unused (s : Store) : Prop := ∀ j, j = 0 ∨ s.counter < j →
  (s.entries j).invoice = none ∧ (s.entries j).payments = [] ∧ ∀ p, (s.entries j).contribution p = 0

theorem Unused.known (h : Unused s) (hload : (s.entries id).load = some inv) :
    id ≠ 0 ∧ id ≤ s.counter := by
  obtain ⟨stored, hstored, -⟩ := Option.map_eq_some_iff.1 hload
  have hused : ¬(id = 0 ∨ s.counter < id) := by
    intro hid
    rw [(h id hid).1] at hstored
    cases hstored
  omega

/-! ## Rollovers move no money -/

/-- Only the fee of a creation was moved. -/
def FeeOnly (s t : Store) : Prop := ∃ new, t.log = new ++ s.log ∧ ∀ m ∈ new, m.memo.invoice = 0

instance feeOnly_refl : Std.Refl FeeOnly := ⟨fun _ => ⟨[], rfl, by simp⟩⟩

instance feeOnly_trans : IsTrans Store FeeOnly := ⟨fun _ _ _ => grown_trans⟩

instance moves_feeOnly {p : Purpose} : Moves FeeOnly ⟨0, p⟩ := by
  refine ⟨fun s m hm => ⟨[m], rfl, ?_⟩⟩
  simp [hm]

theorem feeOnly_of_log (h : t.log = s.log) : FeeOnly s t := ⟨[], h, by simp⟩

instance counts_feeOnly : Counts FeeOnly := ⟨fun _ _ _ => feeOnly_of_log rfl⟩

instance saves_feeOnly : Saves FeeOnly id inv := ⟨fun _ _ _ => feeOnly_of_log rfl⟩

theorem framed_modifyEntry_feeOnly {f : Entry → Entry} : Framed FeeOnly (modifyEntry id f) :=
  .of (.modify fun _ => feeOnly_of_log rfl)

theorem framed_createInvoiceInner_feeOnly {draft : Invoice} {extras : CreationExtras}
    (hbonus : draft.bonusPool = 0) : Framed FeeOnly (createInvoiceInner env draft extras) := by
  have hnext : Framed FeeOnly nextId := by
    refine .of fun s id t hrun => ?_
    obtain ⟨-, rfl⟩ := nextId_ok hrun
    exact feeOnly_of_log rfl
  have hledger : ∀ id, Framed FeeOnly (setCreatedLedger env id) :=
    fun _ => framed_modifyEntry_feeOnly
  have hextras : ∀ id, Framed FeeOnly (setCreationExtras id extras) := by
    intro id
    have hset : ∀ f, Framed FeeOnly (modifyEntry id f) := fun _ => framed_modifyEntry_feeOnly
    unfold setCreationExtras
    infer_instance
  have htokens : Framed FeeOnly (creationTokens draft) := by
    refine .of fun s tokens t hrun => ?_
    obtain ⟨rfl, -⟩ := creationTokens_ok hrun
    exact refl_of FeeOnly s
  have hcollect : ∀ id, Framed FeeOnly (onlyIf (0 < draft.bonusPool)
      (collect env draft.fundingToken draft.creator draft.bonusPool ⟨id, .bonusPool⟩)) := by
    intro id
    refine .of fun s v t hrun => ?_
    rcases onlyIf_ok.1 hrun with ⟨hpos, -⟩ | ⟨-, rfl⟩
    · omega
    · exact refl_of FeeOnly s
  unfold createInvoiceInner
  infer_instance

theorem framed_rolloverInvoice_feeOnly {caller : Address} {deadline : ℕ} :
    Framed FeeOnly (rolloverInvoice env caller id deadline) := by
  have hcreate : ∀ old : Invoice,
      Framed FeeOnly (createInvoiceInner env (old.rolledOver deadline) {}) :=
    fun _ => framed_createInvoiceInner_feeOnly rfl
  have hcopy : ∀ newId, Framed FeeOnly (copyShardPayments id newId) := by
    intro newId
    have hset : ∀ f, Framed FeeOnly (modifyEntry newId f) := fun _ => framed_modifyEntry_feeOnly
    unfold copyShardPayments
    infer_instance
  unfold rolloverInvoice
  infer_instance

theorem FeeOnly.tally_eq (h : FeeOnly s t) {P : Transfer Memo → Bool}
    (hP : ∀ m, m.memo.invoice = 0 → P m = false) : tally P t.log = tally P s.log := by
  obtain ⟨new, hlog, hnew⟩ := h
  rw [hlog, tally_append, tally_eq_zero fun m hm => hP m (hnew m hm), zero_add]

theorem FeeOnly.sentFor_eq (h : FeeOnly s t) (hk : k ≠ 0) : sentFor k t = sentFor k s := by
  refine h.tally_eq fun m hm => ?_
  simp [hm, Ne.symm hk]

/-! ## Renewals -/

/-- What a renewal leaves: a successor without payments, and the old invoice cancelled. -/
structure Renewed (env : Env) (id newId : ℕ) (old new : Invoice) (s t : Store) : Prop where
  fresh : newId = s.counter + 1
  counter : t.counter = s.counter + 1
  stats : t.stats = s.stats
  log : t.log = s.log
  group : ∀ j, (t.entries j).group = (s.entries j).group
  groups : t.groups = s.groups
  others : ∀ j, j ≠ id → j ≠ newId → t.entries j = s.entries j
  successor : t.entries newId = { s.entries newId with
    createdLedger := some env.sequence, invoice := some new }
  old : t.entries id = { s.entries id with
    renewedTo := some newId, invoice := some ((old.completed .cancelled env.now).withPayments []) }
  pots : new.pots = 0

theorem renewInvoice_ok {creator : Address} {deadline : ℕ} (hid : id ≤ s.counter)
    (hrun : renewInvoice env creator id deadline s = .ok (newId, t)) :
    ∃ old amounts, (s.entries id).load = some old ∧ carriedAmounts old = .ok amounts ∧
      Renewed env id newId old ((successor old id amounts deadline).withPayments []) s t := by
  simp only [renewInvoice, requireNotPaused_bind, requireAuth_bind, loadInvoice_bind, getEntry_bind,
    require_bind, ofResult_bind] at hrun
  obtain ⟨-, -, old, hload, -, -, -, -, amounts, hamounts, hrun⟩ := hrun
  obtain ⟨new, u, hnext, hrun⟩ := bind_ok.1 hrun
  obtain ⟨rfl, rfl⟩ := nextId_ok hnext
  obtain ⟨_, u₁, hledger, hrun⟩ := bind_ok.1 hrun
  obtain rfl := modifyEntry_ok.1 hledger
  obtain ⟨_, u₂, hsaveNew, hrun⟩ := bind_ok.1 hrun
  obtain ⟨-, rfl⟩ := saveInvoice_ok.1 hsaveNew
  obtain ⟨_, u₃, hrenewed, hrun⟩ := bind_ok.1 hrun
  obtain rfl := modifyEntry_ok.1 hrenewed
  obtain ⟨_, u₄, hsaveOld, hrun⟩ := bind_ok.1 hrun
  obtain ⟨-, rfl⟩ := saveInvoice_ok.1 hsaveOld
  obtain ⟨rfl, rfl⟩ := pure_ok.1 hrun
  have hne : s.counter + 1 ≠ id := by omega
  refine ⟨old, amounts, hload, hamounts, rfl, rfl, rfl, rfl, fun i => ?_, rfl, fun i hi hi' => ?_, ?_, ?_, ?_⟩
  · by_cases h₁ : i = id
    · subst h₁
      simp [Store.setEntry_self, Store.setEntry_ne _ hne.symm]
    · by_cases h₂ : i = s.counter + 1
      · subst h₂
        simp [Store.setEntry_self, Store.setEntry_ne _ h₁]
      · simp [Store.setEntry_ne _ h₁, Store.setEntry_ne _ h₂]
  · simp [Store.setEntry_ne _ hi, Store.setEntry_ne _ hi']
  · simp [Store.setEntry_self, Store.setEntry_ne _ hne]
  · simp [Store.setEntry_self, Store.setEntry_ne _ hne.symm]
  · rfl

/-- Who may opt out of a renewal: payers other than the creator who are not refunded yet. -/
def MayOptOut (inv : Invoice) (p : Address) : Prop :=
  inv.creator ≠ p ∧ p ∉ inv.refundedAddresses ∧ 0 < paidBy inv.payments p

instance {p : Address} : Decidable (MayOptOut inv p) := by
  unfold MayOptOut
  infer_instance

/-- What the opt-outs of all payers give back. -/
def optOutTotal (inv : Invoice) : ℤ :=
  (((payersOf inv.payments).filter fun p => MayOptOut inv p).map (paidBy inv.payments)).sum

theorem mem_payersOf {payments : List Payment} {p : Address} (h : 0 < paidBy payments p) :
    p ∈ payersOf payments := by
  have hsome : ∃ q ∈ payments, q.payer = p := by
    by_contra hnone
    push Not at hnone
    have hempty : payments.filter (fun q => q.payer = p) = [] := by
      simpa [List.filter_eq_nil_iff] using hnone
    simp [paidBy, hempty] at h
  obtain ⟨q, hq, rfl⟩ := hsome
  rw [payersOf, List.mem_insertionSort, List.mem_dedup]
  exact List.mem_map_of_mem hq

theorem payersOf_nodup (payments : List Payment) : (payersOf payments).Nodup :=
  ((List.perm_insertionSort _ _).nodup_iff).2 (List.nodup_dedup _)

theorem optOutRenewal_creator {payer : Address} {v : Unit}
    (hload : (s.entries id).load = some inv) (hrun : optOutRenewal env payer id s = .ok (v, t)) :
    inv.creator ≠ payer := by
  simp only [optOutRenewal, requireNotPaused_bind, requireAuth_bind, loadInvoice_bind,
    require_bind] at hrun
  obtain ⟨-, -, inv', hload', hcreator, -⟩ := hrun
  rw [hload] at hload'
  cases hload'
  exact hcreator

/-- Opt-outs that all return pay different payers what they have on record. -/
theorem optOuts_ok {calls : List (Env × Address)} {v : Unit}
    (hload : (s.entries id).load = some inv)
    (hrun : forM calls (fun c => optOutRenewal c.1 c.2 id) s = .ok (v, t)) :
    (calls.map Prod.snd).Nodup ∧ (∀ p ∈ calls.map Prod.snd, MayOptOut inv p) ∧
      sentFor id t = sentFor id s + ((calls.map Prod.snd).map (paidBy inv.payments)).sum ∧
      ∀ j, j ≠ id → t.entries j = s.entries j := by
  induction calls generalizing s inv with
  | nil =>
      obtain ⟨-, rfl⟩ := pure_ok.1 hrun
      simp
  | cons c calls ih =>
      rw [List.forM_cons] at hrun
      obtain ⟨_, u, hfirst, hrest⟩ := bind_ok.1 hrun
      have hcreator := optOutRenewal_creator hload hfirst
      obtain ⟨inv', hload', hout⟩ := optOutRenewal_ok hfirst
      rw [hload] at hload'
      cases hload'
      have hpayments : inv.payments = (s.entries id).payments := by
        obtain ⟨stored, -, rfl⟩ := Option.map_eq_some_iff.1 hload
        rfl
      have hnext : (u.entries id).load = some (inv.markRefunded c.2) := by
        unfold Entry.load
        rw [hout.stored, hout.payments, ← hpayments]
        rfl
      obtain ⟨hnodup, hmay, hsent, hothers⟩ := ih hnext hrest
      have hagain : c.2 ∉ calls.map Prod.snd := by
        intro hmem
        have hmarked := (hmay c.2 hmem).2.1
        simp [Invoice.markRefunded] at hmarked
      have hpaid : sentFor id u = paidBy inv.payments c.2 + sentFor id s := by
        obtain ⟨token, hlog⟩ := hout.log
        unfold sentFor
        rw [hlog, tally_cons, hpayments]
        simp
      refine ⟨?_, ?_, ?_, ?_⟩
      · rw [List.map_cons, List.nodup_cons]
        exact ⟨hagain, hnodup⟩
      · intro p hp
        rcases List.mem_cons.1 hp with rfl | hp
        · refine ⟨hcreator, hout.fresh, ?_⟩
          rw [hpayments]
          exact hout.paid
        · obtain ⟨hp₁, hp₂, hp₃⟩ := hmay p hp
          exact ⟨hp₁, fun hold => hp₂ (List.mem_append_left _ hold), hp₃⟩
      · rw [hsent, hpaid, List.map_cons, List.map_cons, List.sum_cons]
        simp only [Invoice.markRefunded]
        ring
      · intro j hj
        rw [hothers j hj, hout.entries j hj]

/-- Opt-outs of everybody who may opt out give back the total. -/
theorem optOuts_sum {payers : List Address} (hnodup : payers.Nodup)
    (hmay : ∀ p ∈ payers, MayOptOut inv p) (hall : ∀ p, MayOptOut inv p → p ∈ payers) :
    (payers.map (paidBy inv.payments)).sum = optOutTotal inv := by
  have hperm : payers.Perm ((payersOf inv.payments).filter fun p => MayOptOut inv p) := by
    refine (List.perm_ext_iff_of_nodup hnodup ((payersOf_nodup _).filter _)).2 fun p => ?_
    simp only [List.mem_filter, decide_eq_true_eq]
    constructor
    · intro hp
      exact ⟨mem_payersOf (hmay p hp).2.2, hmay p hp⟩
    · exact fun hp => hall p hp.2
  exact (hperm.map _).sum_eq

/-! ## Later refunds -/

/-- The calls that give payers their money back, and the renewal that allows opt-outs. -/
inductive RefundOp where
  | refund
  | claimRefund (payer : Address)
  | cancelInvoice (caller : Address)
  | withdraw (payer : Address)
  | withdrawContribution (payer : Address)
  | partialRefund (creator : Address) (bps : ℕ)
  | autoResolve
  | resolveDispute (arbiter : Address)
  | resolveInvoiceDispute (admin : Address) (outcome : DisputeOutcome)
  | settleAuction
  | renewInvoice (creator : Address) (deadline : ℕ)
  | optOutRenewal (payer : Address)
deriving DecidableEq

/-- A refund call on an invoice. -/
structure RefundCall where
  env : Env
  id : ℕ
  op : RefundOp

def RefundCall.run (c : RefundCall) : SplitM Unit :=
  match c.op with
  | .refund => Split.refund c.env c.id
  | .claimRefund payer => Split.claimRefund c.env payer c.id
  | .cancelInvoice caller => Split.cancelInvoice c.env caller c.id
  | .withdraw payer => Split.withdraw c.env c.id payer
  | .withdrawContribution payer => Split.withdrawContribution c.env payer c.id
  | .partialRefund creator bps => Split.partialRefund c.env creator c.id bps
  | .autoResolve => Split.autoResolve c.env c.id
  | .resolveDispute arbiter => Split.resolveDispute c.env c.id arbiter .refund
  | .resolveInvoiceDispute admin outcome => Split.resolveInvoiceDispute c.env c.id admin outcome
  | .settleAuction => Split.settleAuction c.env c.id
  | .renewInvoice creator deadline => ignore (Split.renewInvoice c.env creator c.id deadline)
  | .optOutRenewal payer => Split.optOutRenewal c.env payer c.id

/-- What is asked of a later call: it does not renew the old invoice, and a rule it carries out
is a refund rule. -/
def KeepsClosed (k : ℕ) (s : Store) (c : RefundCall) : Prop :=
  match c.op with
  | .renewInvoice _ _ => c.id ≠ k
  | .autoResolve => ∀ inv, (s.entries c.id).load = some inv →
      ∀ rule ∈ matchingRule inv, rule.action = .refund
  | _ => True

section Refused

variable {v : Unit}

theorem Terminal.withdraw_fails {payer : Address} (h : Terminal k s) :
    withdraw env k payer s ≠ .ok (v, t) := by
  intro hrun
  simp only [withdraw, requireAuth_bind, loadInvoice_bind, require_bind] at hrun
  obtain ⟨-, inv, hload, -, -, hpending, -⟩ := hrun
  exact settled_ne (h.load hload).1 (by simp) hpending

theorem Terminal.withdrawContribution_fails {payer : Address} (h : Terminal k s) :
    withdrawContribution env payer k s ≠ .ok (v, t) := by
  intro hrun
  simp only [withdrawContribution, requireAuth_bind, loadInvoice_bind, require_bind] at hrun
  obtain ⟨-, inv, hload, hpending, -⟩ := hrun
  exact settled_ne (h.load hload).1 (by simp) hpending

theorem Terminal.partialRefund_fails {creator : Address} {bps : ℕ} (h : Terminal k s) :
    partialRefund env creator k bps s ≠ .ok (v, t) := by
  intro hrun
  simp only [partialRefund, requireNotPaused_bind, requireAuth_bind, loadInvoice_bind,
    require_bind] at hrun
  obtain ⟨-, -, inv, hload, -, hpending, -⟩ := hrun
  exact settled_ne (h.load hload).1 (by simp) hpending

/-- `claim_refund` returns without an effect on a settled invoice. -/
theorem Terminal.claimRefund_idle {payer : Address} (h : Terminal k s)
    (hrun : claimRefund env payer k s = .ok (v, t)) : s = t := by
  simp only [claimRefund, requireFnNotPaused_bind, requireAuth_bind, loadInvoice_bind] at hrun
  obtain ⟨-, -, inv, hload, hrun⟩ := hrun
  rcases onlyIf_ok.1 hrun with ⟨hpending, -⟩ | ⟨-, hsame⟩
  · exact absurd hpending (settled_ne (h.load hload).1 (by simp))
  · exact hsame

end Refused

/-- A settled invoice that has not been renewed, and what has been sent for it so far. -/
structure Retired (k : ℕ) (s t : Store) : Prop where
  terminal : Terminal k t
  renewedTo : (t.entries k).renewedTo = none
  counter : k ≤ t.counter
  sent : ∀ p, sentTo k p t = sentTo k p s

theorem Retired.change (h : Retired k s t) (hchange : Change (others k) (memoApart k) t u) :
    Retired k s u := by
  have hentry : u.entries k = t.entries k := hchange.entries k (by simp)
  refine ⟨?_, ?_, h.counter.trans hchange.counter, fun p => ?_⟩
  · unfold Terminal
    rw [hentry]
    exact h.terminal
  · rw [hentry]
    exact h.renewedTo
  · rw [sentTo_change hchange]
    exact h.sent p

/-- Calls on the retired invoice do nothing. -/
theorem Retired.on_retired {c : RefundCall} {v : Unit} (h : Retired k s t) (hid : c.id = k)
    (hcall : KeepsClosed k t c) (hrun : c.run t = .ok (v, u)) : t = u := by
  obtain ⟨env, id, op⟩ := c
  obtain rfl : id = k := hid
  cases op with
  | refund => exact absurd hrun h.terminal.refund_fails
  | claimRefund payer => exact h.terminal.claimRefund_idle hrun
  | cancelInvoice caller => exact absurd hrun h.terminal.cancel_fails
  | withdraw payer => exact absurd hrun h.terminal.withdraw_fails
  | withdrawContribution payer => exact absurd hrun h.terminal.withdrawContribution_fails
  | partialRefund creator bps => exact absurd hrun h.terminal.partialRefund_fails
  | autoResolve => exact absurd hrun h.terminal.autoResolve_fails
  | resolveDispute arbiter => exact absurd hrun h.terminal.resolveDispute_fails
  | resolveInvoiceDispute admin outcome =>
      exact absurd hrun h.terminal.resolveInvoiceDispute_fails
  | settleAuction => exact absurd hrun h.terminal.settle_fails
  | renewInvoice creator deadline => exact absurd rfl hcall
  | optOutRenewal payer =>
      obtain ⟨inv, -, hout⟩ := optOutRenewal_ok hrun
      have hrenewed := hout.renewed
      rw [h.renewedTo] at hrenewed
      cases hrenewed

/-- Refunds stay with their own invoice, whatever it forwards to. -/
theorem change_of_frame {x : SplitM α} {W : Set ℕ} {M : Memo → Prop}
    (hx : Framed (Frame Set.univ W M) x) : Respects (Change W M) x := fun s a t hrun =>
  (hx.respects s a t hrun (closed_everywhere W s)).2

theorem autoResolve_refund {v : Unit}
    (hrule : ∀ inv, (s.entries id).load = some inv → ∀ rule ∈ matchingRule inv, rule.action = .refund)
    (hrun : autoResolve env id s = .ok (v, t)) : ∃ inv, resolveByRefund env id inv s = .ok (v, t) := by
  simp only [autoResolve, requireNotPaused_bind, loadInvoice_bind, require_bind] at hrun
  obtain ⟨-, inv, hload, -, -, -, -, hrun⟩ := hrun
  refine ⟨inv, ?_⟩
  unfold applyRule at hrun
  cases hmatch : matchingRule inv with
  | none =>
      rw [hmatch] at hrun
      cases hrun
  | some rule =>
      obtain ⟨bps, action⟩ := rule
      obtain rfl : action = .refund := hrule inv hload _ hmatch
      rw [hmatch] at hrun
      exact hrun

theorem resolveDispute_refund {arbiter : Address} {v : Unit}
    (hrun : resolveDispute env id arbiter .refund s = .ok (v, t)) :
    ∃ inv, arbiterRefund env id inv s = .ok (v, t) := by
  simp only [resolveDispute, requireNotPaused_bind, requireAuth_bind, loadInvoice_bind,
    require_bind] at hrun
  obtain ⟨-, -, inv, -, -, -, hrun⟩ := hrun
  exact ⟨inv, hrun⟩

/-- Calls on other invoices leave the invoice and its movements alone. -/
theorem RefundCall.elsewhere {c : RefundCall} {v : Unit} (hid : c.id ≠ k) (hk : k ≤ s.counter)
    (hcall : KeepsClosed k s c) (hrun : c.run s = .ok (v, t)) :
    Change (others k) (memoApart k) s t := by
  obtain ⟨env, id, op⟩ := c
  have hmem : Fact (id ∈ others k) := ⟨hid⟩
  have hinto : ∀ inv, Fact (ForwardsInto Set.univ inv) := fun _ => ⟨fun _ _ => trivial⟩
  cases op with
  | refund => exact change_of_frame framed_refund s v t hrun
  | claimRefund payer => exact change_of_frame framed_claimRefund s v t hrun
  | cancelInvoice caller => exact change_of_frame framed_cancelInvoice s v t hrun
  | withdraw payer => exact change_of_frame framed_withdraw s v t hrun
  | withdrawContribution payer => exact change_of_frame framed_withdrawContribution s v t hrun
  | partialRefund creator bps => exact change_of_frame framed_partialRefund s v t hrun
  | autoResolve =>
      obtain ⟨inv, hrun⟩ := autoResolve_refund hcall hrun
      have hinv := hinto inv
      exact change_of_frame framed_resolveByRefund s v t hrun
  | resolveDispute arbiter =>
      obtain ⟨inv, hrun⟩ := resolveDispute_refund hrun
      have hinv := hinto inv
      have hframe : Framed (Frame Set.univ (others k) (memoApart k)) (arbiterRefund env id inv) := by
        unfold arbiterRefund
        infer_instance
      exact change_of_frame hframe s v t hrun
  | resolveInvoiceDispute admin outcome =>
      exact change_of_frame framed_resolveInvoiceDispute s v t hrun
  | settleAuction => exact change_of_frame framed_settleAuction s v t hrun
  | optOutRenewal payer => exact change_of_frame framed_optOutRenewal s v t hrun
  | renewInvoice creator deadline =>
      obtain ⟨newId, hrun⟩ := ignore_ok.1 hrun
      exact (renewInvoice_change hid hk (closed_everywhere _ s) hrun).2

theorem Retired.step {c : RefundCall} {v : Unit} (h : Retired k s t) (hcall : KeepsClosed k t c)
    (hrun : c.run t = .ok (v, u)) : Retired k s u := by
  by_cases hid : c.id = k
  · obtain rfl := h.on_retired hid hcall hrun
    exact h
  · exact h.change (c.elsewhere hid h.counter hcall hrun)

/-! ## Successions -/

/-- A rollover, or a renewal with opt-outs. -/
inductive Succession where
  | rollover (caller : Address)
  | renewal (creator : Address) (optOuts : List (Env × Address))

def succeed (env : Env) (id deadline : ℕ) : Succession → SplitM ℕ
  | .rollover caller => rolloverInvoice env caller id deadline
  | .renewal creator optOuts => do
      let newId ← renewInvoice env creator id deadline
      forM optOuts fun c => optOutRenewal c.1 c.2 id
      pure newId

/-- Everybody who may opt out of the renewal does. -/
def Succession.Complete (old : Invoice) : Succession → Prop
  | .rollover _ => True
  | .renewal _ optOuts => ∀ p, MayOptOut old p → p ∈ optOuts.map Prod.snd

/-- The pots of the old invoice are those the succession takes care of. -/
def Succession.Covered (old : Invoice) : Succession → Prop
  | .rollover _ => old.bonusPool + old.insuranceFund = 0
  | .renewal _ _ => old.pots = optOutTotal old

/-- No payment can be claimed through both invoices. After a rollover no refund goes out for the old
invoice unless it is renewed; the successor of a renewal has no payments on record. -/
def Succession.Exclusive (id newId : ℕ) (old : Invoice) (s t : Store) : Succession → Prop
  | .rollover _ => old.disputed = false → (s.entries id).renewedTo = none →
      ∀ calls, Along (KeepsClosed id) RefundCall.run t calls →
        ∀ p, sentTo id p (runAll RefundCall.run t calls) = sentTo id p s
  | .renewal _ _ =>
      (t.entries newId).payments = [] ∧ ∀ p, (t.entries newId).contribution p = 0

theorem rollover_pots {caller : Address} {deadline : ℕ} (hunused : Unused s)
    (hload : (s.entries id).load = some old)
    (hrun : rolloverInvoice env caller id deadline s = .ok (newId, t)) :
    ∃ new ∈ (t.entries newId).invoice, new.pots = old.funded ∧ sentFor id t = sentFor id s := by
  obtain ⟨hzero, hid⟩ := hunused.known hload
  obtain ⟨old', tokens, hload', -, -, -, -, -, hrolled⟩ := rolloverInvoice_ok hid hrun
  rw [hload] at hload'
  cases hload'
  have hfee : FeeOnly s t := framed_rolloverInvoice_feeOnly.respects s newId t hrun
  refine ⟨_, hrolled.successor, ?_, hfee.sentFor_eq hzero⟩
  simp [Invoice.pots, Invoice.withFunded, Invoice.created, Invoice.rolledOver]

theorem rollover_exclusive {caller : Address} {deadline : ℕ} (hunused : Unused s)
    (hload : (s.entries id).load = some old) (hdisputed : old.disputed = false)
    (hrenewed : (s.entries id).renewedTo = none)
    (hrun : rolloverInvoice env caller id deadline s = .ok (newId, t)) : Retired id s t := by
  obtain ⟨hzero, hid⟩ := hunused.known hload
  obtain ⟨old', tokens, hload', -, -, -, -, -, hrolled⟩ := rolloverInvoice_ok hid hrun
  rw [hload] at hload'
  cases hload'
  have hfee : FeeOnly s t := framed_rolloverInvoice_feeOnly.respects s newId t hrun
  have hstored : (t.entries id).invoice =
      some ((old.completed .refunded env.now).withPayments []) := by rw [hrolled.old]
  refine ⟨⟨_, hstored, .inr (.inl rfl), hdisputed⟩, ?_, ?_, fun p => ?_⟩
  · rw [hrolled.old]
    exact hrenewed
  · rw [hrolled.counter]
    exact hid.trans (Nat.le_succ _)
  · refine hfee.tally_eq fun m hm => ?_
    simp [hm, Ne.symm hzero]

theorem renewal_pots {creator : Address} {deadline : ℕ} {optOuts : List (Env × Address)} {v : Unit}
    (hunused : Unused s) (hload : (s.entries id).load = some old)
    (hcomplete : ∀ p, MayOptOut old p → p ∈ optOuts.map Prod.snd)
    (hrenew : renewInvoice env creator id deadline s = .ok (newId, u))
    (hout : forM optOuts (fun c => optOutRenewal c.1 c.2 id) u = .ok (v, t)) :
    ∃ new ∈ (t.entries newId).invoice, new.pots = 0 ∧
      sentFor id t = sentFor id s + optOutTotal old ∧
      (t.entries newId).payments = [] ∧ ∀ p, (t.entries newId).contribution p = 0 := by
  obtain ⟨-, hid⟩ := hunused.known hload
  obtain ⟨old', amounts, hload', -, hrenewed⟩ := renewInvoice_ok hid hrenew
  rw [hload] at hload'
  cases hload'
  have hne : newId ≠ id := by
    have := hrenewed.fresh
    omega
  have hcancelled : (u.entries id).load = some (old.completed .cancelled env.now) := by
    obtain ⟨stored, -, rfl⟩ := Option.map_eq_some_iff.1 hload
    rw [hrenewed.old]
    rfl
  obtain ⟨hnodup, hmay, hsent, hothers⟩ := optOuts_ok hcancelled hout
  have hsum : ((optOuts.map Prod.snd).map (paidBy old.payments)).sum = optOutTotal old :=
    optOuts_sum hnodup hmay hcomplete
  have hbefore : sentFor id u = sentFor id s := by
    unfold sentFor
    rw [hrenewed.log]
  have hlater : s.counter < newId := by
    rw [hrenewed.fresh]
    exact Nat.lt_succ_self _
  obtain ⟨-, hpayments, hcontribution⟩ := hunused newId (.inr hlater)
  have hentry := (hothers newId hne).trans hrenewed.successor
  refine ⟨_, ?_, hrenewed.pots, ?_, ?_, ?_⟩
  · rw [hentry]
    rfl
  · rw [hsent, hbefore]
    exact congrArg _ hsum
  · rw [hentry]
    exact hpayments
  · rw [hentry]
    exact hcontribution

/-- A succession keeps the pots exactly when it takes care of them, and no payment can be claimed
through both invoices. -/
theorem succession_keeps_money {deadline : ℕ} {call : Succession} (hunused : Unused s)
    (hload : (s.entries id).load = some old) (hcomplete : call.Complete old)
    (hrun : succeed env id deadline call s = .ok (newId, t)) :
    (∃ new ∈ (t.entries newId).invoice,
      (new.pots + (sentFor id t - sentFor id s) = old.pots ↔ call.Covered old)) ∧
      call.Exclusive id newId old s t := by
  cases call with
  | rollover caller =>
      obtain ⟨new, hnew, hpots, hsent⟩ := rollover_pots hunused hload hrun
      refine ⟨⟨new, hnew, ?_⟩, fun hdisputed hrenewed calls hcalls p => ?_⟩
      · rw [hpots, hsent]
        unfold Succession.Covered Invoice.pots
        constructor <;> intro h <;> linarith
      · have hfirst := rollover_exclusive hunused hload hdisputed hrenewed hrun
        exact (runAll_induction (fun _ _ _ _ h hcall hstep => h.step hcall hstep) hfirst hcalls).sent p
  | renewal creator optOuts =>
      obtain ⟨newId', u, hrenew, hrun⟩ := bind_ok.1 hrun
      obtain ⟨_, t', hout, hrun⟩ := bind_ok.1 hrun
      obtain ⟨rfl, rfl⟩ := pure_ok.1 hrun
      obtain ⟨new, hnew, hpots, hsent, hexclusive⟩ :=
        renewal_pots hunused hload hcomplete hrenew hout
      refine ⟨⟨new, hnew, ?_⟩, hexclusive⟩
      rw [hpots, hsent]
      unfold Succession.Covered
      constructor <;> intro h <;> linarith

/-- An invoice on which payer 20 has paid 50. -/
def halfPaidInvoice : Invoice :=
  { sampleInvoice with funded := 50, payments := [{ payer := 20, amount := 50 }] }

def halfPaid : Store := sampleStore (halfPaidInvoice.withPayments []) halfPaidInvoice.payments

theorem unused_sampleStore (inv : Invoice) (payments : List Payment) :
    Unused (sampleStore inv payments) := by
  intro j hj
  have hne : j ≠ 1 := by
    rcases hj with rfl | hj
    · decide
    · exact ne_of_gt hj
  have hentry : (sampleStore inv payments).entries j = {} := if_neg hne
  rw [hentry]
  exact ⟨rfl, rfl, fun _ => rfl⟩

/-- Calls after the rollover of the invoice 1 to the invoice 2. -/
def afterRollover : List RefundCall :=
  [⟨sampleEnv 2001 50, 1, .refund⟩, ⟨sampleEnv 2002 50, 1, .optOutRenewal 20⟩,
    ⟨sampleEnv 2003 50, 2, .cancelInvoice 2⟩]

theorem half_paid_succession :
    (∃ t, succeed (sampleEnv 2000 50) 1 3000 (.rollover 2) halfPaid = .ok (2, t) ∧
      (∃ new ∈ (t.entries 2).invoice, new.pots + (sentFor 1 t - sentFor 1 halfPaid) = 50) ∧
      sentTo 1 20 (runAll RefundCall.run t afterRollover) = 0 ∧
      sentTo 2 20 (runAll RefundCall.run t afterRollover) = 50) ∧
    ∃ t, succeed (sampleEnv 2000 50) 1 3000 (.renewal 2 [(sampleEnv 2001 50, 20)]) halfPaid =
        .ok (2, t) ∧
      (∃ new ∈ (t.entries 2).invoice, new.pots + (sentFor 1 t - sentFor 1 halfPaid) = 50) ∧
      (t.entries 2).payments = [] := by
  refine ⟨⟨_, rfl, ?_⟩, ⟨_, rfl, ?_⟩⟩
  · have hcomplete : (Succession.rollover 2).Complete halfPaidInvoice := trivial
    have hrun : succeed (sampleEnv 2000 50) 1 3000 (.rollover 2) halfPaid = .ok _ := rfl
    obtain ⟨⟨new, hnew, hiff⟩, hexclusive⟩ :=
      succession_keeps_money (unused_sampleStore _ _) rfl hcomplete hrun
    have hcovered : (Succession.rollover 2).Covered halfPaidInvoice := rfl
    refine ⟨⟨new, hnew, hiff.2 hcovered⟩, ?_, by decide +kernel⟩
    exact hexclusive rfl rfl afterRollover ⟨fun _ => trivial, fun _ => trivial, fun _ => trivial,
      trivial⟩ 20
  · have hcomplete : (Succession.renewal 2 [(sampleEnv 2001 50, 20)]).Complete halfPaidInvoice := by
      intro p hp
      by_contra hne
      have hother : 20 ≠ p := fun h => hne (by simp [h])
      have hpaid := hp.2.2
      simp [halfPaidInvoice, paidBy, hother] at hpaid
    have hrun : succeed (sampleEnv 2000 50) 1 3000 (.renewal 2 [(sampleEnv 2001 50, 20)]) halfPaid =
        .ok _ := rfl
    obtain ⟨⟨new, hnew, hiff⟩, hpayments, -⟩ :=
      succession_keeps_money (unused_sampleStore _ _) rfl hcomplete hrun
    have hcovered : (Succession.renewal 2 [(sampleEnv 2001 50, 20)]).Covered halfPaidInvoice := by
      change halfPaidInvoice.pots = optOutTotal halfPaidInvoice
      decide +kernel
    exact ⟨⟨new, hnew, hiff.2 hcovered⟩, hpayments⟩

/-- The creator renews the invoice that has been rolled over. -/
def renewedAfterwards : List RefundCall :=
  [⟨sampleEnv 2001 100, 1, .renewInvoice 2 3000⟩, ⟨sampleEnv 2002 100, 1, .optOutRenewal 20⟩,
    ⟨sampleEnv 2003 100, 2, .cancelInvoice 2⟩]

/-- The bonus pool of 10 is gone after a rollover, and a payer who has paid 50 gets 50 back through
either invoice. -/
theorem rollover_loses_and_pays_twice :
    (∃ t, succeed (sampleEnv 2000 60) 1 3000 (.rollover 2)
        (sampleStore { sampleInvoice with funded := 50, bonusPool := 10 }
          [{ payer := 20, amount := 50 }]) = .ok (2, t) ∧
      (t.entries 2).invoice.map Invoice.pots = some 50 ∧ sentFor 1 t = 0) ∧
    ∃ t, succeed (sampleEnv 2000 100) 1 3000 (.rollover 2) halfPaid = .ok (2, t) ∧
      sentTo 1 20 (runAll RefundCall.run t renewedAfterwards) = 50 ∧
      sentTo 2 20 (runAll RefundCall.run t renewedAfterwards) = 50 := by
  refine ⟨⟨_, rfl, ?_, ?_⟩, ⟨_, rfl, ?_, ?_⟩⟩ <;> decide +kernel

end StellarSplit.Split
