import StellarSplit.Split.OtherPayments

/-!
# Who may pay an invoice, and when

The rules of an invoice on its payers against the checks of the ten calls that
fund it. Only `pay` checks them all; a call enforces the rules on an invoice
exactly when the rules it does not look at happen to hold.
-/

namespace StellarSplit.Split

open Exec Function Machine

variable {env : Env} {s t : Store} {v : Unit} {id j : ℕ} {inv : Invoice}

/-! ## Rules and calls -/

inductive AccessRule where
  | pending | undisputed | unfrozen | unfrozenByAdmin | beforeDeadline | withinWindow
  | allowedPayer | allowedContributor
  deriving DecidableEq

/-- A freeze is over when its pause has run out. -/
def AccessRule.Holds (env : Env) (e : Entry) (inv : Invoice) (payer : Address) : AccessRule → Prop
  | .pending => inv.status = .pending
  | .undisputed => inv.disputed = false
  | .unfrozen => inv.frozen = false ∨ ∃ autoAt ∈ inv.autoResumeAt, autoAt ≤ env.now
  | .unfrozenByAdmin => inv.adminFrozen = false
  | .beforeDeadline => env.now ≤ inv.deadline
  | .withinWindow => (∀ opens ∈ e.paymentOpenAt, opens ≤ env.now) ∧
      ∀ closes ∈ e.paymentCloseAt, env.now ≤ closes
  | .allowedPayer => listed payer inv.allowedPayers
  | .allowedContributor => listed payer inv.contributorAllowlist

instance AccessRule.decidableHolds (env : Env) (e : Entry) (inv : Invoice) (payer : Address) :
    ∀ rule, Decidable (AccessRule.Holds env e inv payer rule)
  | .pending => inferInstanceAs (Decidable (inv.status = .pending))
  | .undisputed => inferInstanceAs (Decidable (inv.disputed = false))
  | .unfrozen => inferInstanceAs
      (Decidable (inv.frozen = false ∨ ∃ autoAt ∈ inv.autoResumeAt, autoAt ≤ env.now))
  | .unfrozenByAdmin => inferInstanceAs (Decidable (inv.adminFrozen = false))
  | .beforeDeadline => inferInstanceAs (Decidable (env.now ≤ inv.deadline))
  | .withinWindow => inferInstanceAs (Decidable ((∀ opens ∈ e.paymentOpenAt, opens ≤ env.now) ∧
      ∀ closes ∈ e.paymentCloseAt, env.now ≤ closes))
  | .allowedPayer => inferInstanceAs (Decidable (listed payer inv.allowedPayers))
  | .allowedContributor => inferInstanceAs (Decidable (listed payer inv.contributorAllowlist))

/-- The calls that fund an invoice. -/
inductive PaymentCall where
  | pay (payer : Address) (id : ℕ) (amount : ℤ) (nonce : ℕ) (donateOnFailure : Bool)
  | payWithToken (payer : Address) (id : ℕ) (sourceToken : Address) (amount : ℤ) (nonce : ℕ)
  | bridgePay (payer : Address) (id : ℕ) (sourceToken : Address) (sourceAmount : ℤ)
  | poolPay (payer : Address) (payments : List InvoicePayment)
  | executePaymentBatch (payer : Address) (batchId : ℕ)
  | closeChannel (payer : Address) (id : ℕ)
  | contribute (payer : Address) (id : ℕ) (amount : ℤ)
  | delegatePay (delegate beneficiary : Address) (id : ℕ) (amount : ℤ)
  | payInvoiceDelegated (executor : Address) (id : ℕ) (amount : ℤ) (nonce : ℕ) (onBehalfOf : Address)
  | revealConfidentialPayment (id : ℕ) (payer : Address) (value : ℤ) (blinding : Hash)

namespace PaymentCall

def run (env : Env) : PaymentCall → SplitM Unit
  | .pay payer id amount nonce donate => Split.pay env payer id amount nonce donate
  | .payWithToken payer id sourceToken amount nonce =>
      Split.payWithToken env payer id sourceToken amount nonce
  | .bridgePay payer id sourceToken amount => Split.bridgePay env payer id sourceToken amount
  | .poolPay payer payments => Split.poolPay env payer payments
  | .executePaymentBatch payer batchId => Split.executePaymentBatch env payer batchId
  | .closeChannel payer id => Split.closeChannel env payer id
  | .contribute payer id amount => do
      let _ ← Split.contribute env id payer amount
      pure ()
  | .delegatePay delegate beneficiary id amount => Split.delegatePay env delegate beneficiary id amount
  | .payInvoiceDelegated executor id amount nonce onBehalfOf =>
      Split.payInvoiceDelegated env executor id amount nonce onBehalfOf
  | .revealConfidentialPayment id payer value blinding =>
      Split.revealConfidentialPayment env id payer value blinding

/-- The payer on whose behalf the invoice is funded. -/
def payer : PaymentCall → Address
  | .pay payer _ _ _ _ | .payWithToken payer _ _ _ _ | .bridgePay payer _ _ _ | .poolPay payer _
  | .executePaymentBatch payer _ | .closeChannel payer _ | .contribute payer _ _ => payer
  | .delegatePay _ beneficiary _ _ => beneficiary
  | .payInvoiceDelegated _ _ _ _ onBehalfOf => onBehalfOf
  | .revealConfidentialPayment _ payer _ _ => payer

/-- The invoices a call names; any other invoice is funded by forwarding. -/
def targets (s : Store) : PaymentCall → List ℕ
  | .pay _ id _ _ _ | .payWithToken _ id _ _ _ | .bridgePay _ id _ _ | .closeChannel _ id
  | .contribute _ id _ | .delegatePay _ _ id _ | .payInvoiceDelegated _ id _ _ _
  | .revealConfidentialPayment id _ _ _ => [id]
  | .poolPay _ payments => payments.map InvoicePayment.invoiceId
  | .executePaymentBatch _ batchId =>
      ((s.batches batchId).map fun b => b.items.map InvoicePayment.invoiceId).getD []

/-- The rules a call does not look at on the invoices it names. -/
def skips : PaymentCall → List AccessRule
  | .pay .. => []
  | .payWithToken .. | .bridgePay .. | .poolPay .. | .executePaymentBatch .. | .delegatePay .. =>
      [.unfrozen, .unfrozenByAdmin, .withinWindow, .allowedPayer, .allowedContributor]
  | .closeChannel .. => [.unfrozen, .unfrozenByAdmin, .beforeDeadline, .withinWindow, .allowedPayer,
      .allowedContributor]
  | .contribute .. => [.undisputed, .unfrozen, .unfrozenByAdmin, .beforeDeadline, .withinWindow,
      .allowedPayer, .allowedContributor]
  | .payInvoiceDelegated .. => [.withinWindow, .allowedContributor]
  | .revealConfidentialPayment .. => [.withinWindow, .allowedPayer, .allowedContributor]

/-- The rules a call does not check on invoice `j`. -/
def Unchecked (s : Store) (call : PaymentCall) (j : ℕ) (rule : AccessRule) : Prop :=
  j ∈ call.targets s → rule ∈ call.skips

end PaymentCall

variable {payer : Address}

/-! ## What each call has checked -/

/-- The invoice is open: the three rules that most calls check. -/
structure IsOpen (env : Env) (inv : Invoice) : Prop where
  pending : inv.status = .pending
  undisputed : inv.disputed = false
  deadline : env.now ≤ inv.deadline

/-- What `autoResume` answers is not frozen only if no freeze is in force. -/
theorem autoResume_unfrozen {stored : Invoice} (hrun : autoResume env id stored s = .ok (inv, t))
    (hfrozen : inv.frozen = false) :
    (stored.frozen = false ∨ ∃ autoAt ∈ stored.autoResumeAt, autoAt ≤ env.now) ∧
      (inv = stored ∨ inv = stored.resumed) := by
  rcases autoResume_ok hrun with ⟨rfl, -⟩ | ⟨rfl, hdue, -⟩
  · exact ⟨.inl hfrozen, .inl rfl⟩
  · exact ⟨.inr hdue, .inr rfl⟩

theorem pay_checked {amount : ℤ} {nonce : ℕ} {donate : Bool}
    (hrun : pay env payer id amount nonce donate s = .ok (v, t)) :
    ∃ inv, (s.entries id).load = some inv ∧ ∀ rule, AccessRule.Holds env (s.entries id) inv payer rule := by
  obtain ⟨inv, _, _, u, _, _, -, hcheck, -⟩ := pay_passes hrun
  simp only [checkPayment, loadInvoice_bind, require_bind, getEntry_bind] at hcheck
  obtain ⟨stored, hload, -, hpending, hflag, hdeadline, -, hopens, hcloses, hcheck⟩ := hcheck
  obtain ⟨resumed, w, hresume, hcheck⟩ := bind_ok.1 hcheck
  simp only [require_bind] at hcheck
  obtain ⟨hfrozen, hadmin, hpayer, hcontributor, -⟩ := hcheck
  obtain ⟨hunfrozen, hstored⟩ := autoResume_unfrozen hresume hfrozen
  have hsame : resumed.adminFrozen = stored.adminFrozen ∧
      resumed.allowedPayers = stored.allowedPayers ∧
      resumed.contributorAllowlist = stored.contributorAllowlist := by
    rcases hstored with rfl | rfl <;> exact ⟨rfl, rfl, rfl⟩
  rw [hsame.1] at hadmin
  rw [hsame.2.1] at hpayer
  rw [hsame.2.2] at hcontributor
  refine ⟨stored, hload, fun rule => ?_⟩
  cases rule with
  | pending => exact hpending
  | undisputed => exact hflag
  | unfrozen => exact hunfrozen
  | unfrozenByAdmin => exact hadmin
  | beforeDeadline => exact hdeadline
  | withinWindow => exact ⟨hopens, hcloses⟩
  | allowedPayer => exact hpayer
  | allowedContributor => exact hcontributor

theorem payWithToken_open {sourceToken : Address} {amount : ℤ} {nonce : ℕ}
    (hrun : payWithToken env payer id sourceToken amount nonce s = .ok (v, t)) :
    ∃ inv, (s.entries id).load = some inv ∧ IsOpen env inv := by
  obtain ⟨inv, credited, u₁, u₂, hload, ⟨hpending, hflag, hdeadline⟩, -⟩ := payWithToken_passes hrun
  exact ⟨inv, hload, hpending, hflag, hdeadline⟩

theorem bridgePay_open {sourceToken : Address} {amount : ℤ}
    (hrun : bridgePay env payer id sourceToken amount s = .ok (v, t)) :
    ∃ inv, (s.entries id).load = some inv ∧ IsOpen env inv := by
  obtain ⟨inv, converted, u, hload, ⟨hpending, hflag, hdeadline⟩, -⟩ := bridgePay_passes hrun
  exact ⟨inv, hload, hpending, hflag, hdeadline⟩

theorem delegatePay_open {delegate beneficiary : Address} {amount : ℤ}
    (hrun : delegatePay env delegate beneficiary id amount s = .ok (v, t)) :
    ∃ inv, (s.entries id).load = some inv ∧ IsOpen env inv := by
  obtain ⟨inv, u₁, u₂, hload, ⟨hpending, hflag, hdeadline⟩, -⟩ := delegatePay_passes hrun
  exact ⟨inv, hload, hpending, hflag, hdeadline⟩

/-- Every payment of a pool is checked before any is credited. -/
theorem checkPool_open {token : Address} {payments : List InvoicePayment}
    (hrun : forM payments (checkPoolPayment env token) s = .ok (v, t)) :
    ∀ p ∈ payments, ∃ inv, (s.entries p.invoiceId).load = some inv ∧ IsOpen env inv := by
  intro p hp
  have hcheck := forM_each hrun p hp
  simp only [checkPoolPayment, loadInvoice_bind, require_bind] at hcheck
  obtain ⟨inv, hload, hpending, hflag, hdeadline, -⟩ := hcheck
  exact ⟨inv, hload, hpending, hflag, hdeadline⟩

theorem poolPayInner_open {payments : List InvoicePayment}
    (hrun : poolPayInner env payer payments s = .ok (v, t)) (hj : j ∈ payments.map InvoicePayment.invoiceId) :
    ∃ inv, (s.entries j).load = some inv ∧ IsOpen env inv := by
  obtain ⟨first, firstInv, u₁, u₂, -, -, hcheck, -⟩ := poolPayInner_passes hrun
  obtain ⟨p, hp, rfl⟩ := List.mem_map.1 hj
  exact checkPool_open hcheck p hp

theorem executePaymentBatch_open {batchId : ℕ}
    (hrun : executePaymentBatch env payer batchId s = .ok (v, t))
    (hj : j ∈ (PaymentCall.executePaymentBatch payer batchId).targets s) :
    ∃ inv, (s.entries j).load = some inv ∧ IsOpen env inv := by
  obtain ⟨batch, u, hbatch, -, -, -, -, hset, hinner⟩ := executePaymentBatch_passes hrun
  have hentries : u.entries = s.entries := by
    obtain rfl := modify_ok.1 hset
    rfl
  have hmem : j ∈ batch.items.map InvoicePayment.invoiceId := by
    simpa only [PaymentCall.targets, hbatch, Option.map_some, Option.getD_some] using hj
  rw [← hentries]
  exact poolPayInner_open hinner hmem

theorem contribute_pending {amount : ℤ} {r : ℤ × ℤ}
    (hrun : contribute env id payer amount s = .ok (r, t)) :
    ∃ inv, (s.entries id).load = some inv ∧ inv.status = .pending := by
  simp only [contribute, requireNotPaused_bind, requireAuth_bind, require_bind, loadInvoice_bind] at hrun
  obtain ⟨-, -, -, inv, hload, -, hpending, -⟩ := hrun
  exact ⟨inv, hload, hpending⟩

/-- The payment on behalf of another is checked but for the window and the contributors. -/
theorem payInvoiceDelegated_checked {executor onBehalfOf : Address} {amount : ℤ} {nonce : ℕ}
    (hrun : payInvoiceDelegated env executor id amount nonce onBehalfOf s = .ok (v, t)) :
    ∃ inv, (s.entries id).load = some inv ∧ IsOpen env inv ∧ inv.frozen = false ∧
      inv.adminFrozen = false ∧ listed onBehalfOf inv.allowedPayers := by
  obtain ⟨inv, u₁, u₂, u₃, u₄, hload, ⟨hpending, hflag, hdeadline⟩, ⟨hfrozen, hadmin⟩, hlisted, -⟩ :=
    payInvoiceDelegated_passes hrun
  exact ⟨inv, hload, ⟨hpending, hflag, hdeadline⟩, hfrozen, hadmin, hlisted⟩

/-- A reveal asks neither for the window nor for the lists. -/
theorem revealConfidentialPayment_checked {value : ℤ} {blinding : Hash}
    (hrun : revealConfidentialPayment env id payer value blinding s = .ok (v, t)) :
    ∃ inv, (s.entries id).load = some inv ∧ IsOpen env inv ∧ inv.frozen = false ∧
      inv.adminFrozen = false := by
  obtain ⟨inv, u₁, u₂, u₃, u₄, hload, ⟨hpending, hflag, hdeadline⟩, ⟨hfrozen, hadmin⟩, -⟩ :=
    revealConfidentialPayment_passes hrun
  exact ⟨inv, hload, ⟨hpending, hflag, hdeadline⟩, hfrozen, hadmin⟩

/-- A channel from which nothing was paid is closed whatever the status of the invoice, but then
the invoice is left alone. -/
theorem closeChannel_checked {inv' : Invoice} (hrun : closeChannel env payer id s = .ok (v, t))
    (hload : (s.entries id).load = some inv) (hafter : (t.entries id).load = some inv')
    (hraised : inv.funded < inv'.funded) : inv.status = .pending ∧ inv.disputed = false := by
  obtain ⟨channel, inv₀, u, w, -, hload₀, hflag, -, hcredit, hreturn, hset⟩ := closeChannel_passes hrun
  obtain rfl : inv₀ = inv := Option.some.inj (hload₀.symm.trans hload)
  rcases hcredit with ⟨-, hcredit⟩ | ⟨-, rfl⟩
  · exact ⟨(creditChannel_passes hcredit).1, hflag⟩
  · exfalso
    have hreturned : w.entries = s.entries := by
      rcases returnBalance_ok hreturn with ⟨-, rfl⟩ | ⟨-, token, -, rfl⟩ <;> rfl
    have hsame : (t.entries id).load = (w.entries id).load := by
      obtain rfl := modifyEntry_ok.1 hset
      rw [Store.setEntry_self]
      rfl
    rw [hsame, hreturned, hload] at hafter
    cases hafter
    exact lt_irrefl _ hraised

/-! ## The rules that are enforced -/

theorem IsOpen.holds {e : Entry} {rule : AccessRule} (h : IsOpen env inv)
    (hrule : rule = .pending ∨ rule = .undisputed ∨ rule = .beforeDeadline) :
    AccessRule.Holds env e inv payer rule := by
  rcases hrule with rfl | rfl | rfl
  · exact h.pending
  · exact h.undisputed
  · exact h.deadline

/-- A rule that a call does not skip holds on every invoice it names and funds. -/
theorem rule_holds_of_checked {call : PaymentCall} {inv' : Invoice} {rule : AccessRule}
    (hrun : call.run env s = .ok (v, t)) (hload : (s.entries j).load = some inv)
    (hafter : (t.entries j).load = some inv') (hraised : inv.funded < inv'.funded)
    (hj : j ∈ call.targets s) (hrule : rule ∉ call.skips) :
    AccessRule.Holds env (s.entries j) inv call.payer rule := by
  have hsame : ∀ {inv₀ : Invoice}, (s.entries j).load = some inv₀ → inv₀ = inv :=
    fun h => Option.some.inj (h.symm.trans hload)
  cases call with
  | pay payer id amount nonce donate =>
      obtain rfl := List.mem_singleton.1 hj
      obtain ⟨inv₀, hload₀, hall⟩ := pay_checked hrun
      obtain rfl := hsame hload₀
      exact hall rule
  | payWithToken payer id sourceToken amount nonce =>
      obtain rfl := List.mem_singleton.1 hj
      obtain ⟨inv₀, hload₀, hopen⟩ := payWithToken_open hrun
      obtain rfl := hsame hload₀
      apply hopen.holds
      cases rule <;> simp [PaymentCall.skips] at hrule ⊢
  | bridgePay payer id sourceToken amount =>
      obtain rfl := List.mem_singleton.1 hj
      obtain ⟨inv₀, hload₀, hopen⟩ := bridgePay_open hrun
      obtain rfl := hsame hload₀
      apply hopen.holds
      cases rule <;> simp [PaymentCall.skips] at hrule ⊢
  | poolPay payer payments =>
      change poolPay env payer payments s = .ok (v, t) at hrun
      rw [poolPay_eq, requireNotPaused_bind, requireAuth_bind] at hrun
      obtain ⟨inv₀, hload₀, hopen⟩ := poolPayInner_open hrun.2.2 hj
      obtain rfl := hsame hload₀
      apply hopen.holds
      cases rule <;> simp [PaymentCall.skips] at hrule ⊢
  | executePaymentBatch payer batchId =>
      obtain ⟨inv₀, hload₀, hopen⟩ := executePaymentBatch_open hrun hj
      obtain rfl := hsame hload₀
      apply hopen.holds
      cases rule <;> simp [PaymentCall.skips] at hrule ⊢
  | closeChannel payer id =>
      obtain rfl := List.mem_singleton.1 hj
      obtain ⟨hpending, hflag⟩ := closeChannel_checked hrun hload hafter hraised
      cases rule with
      | pending => exact hpending
      | undisputed => exact hflag
      | _ => simp [PaymentCall.skips] at hrule
  | contribute payer id amount =>
      obtain rfl := List.mem_singleton.1 hj
      obtain ⟨r, u, hcontribute, -⟩ := bind_ok.1 hrun
      obtain ⟨inv₀, hload₀, hpending⟩ := contribute_pending hcontribute
      obtain rfl := hsame hload₀
      cases rule with
      | pending => exact hpending
      | _ => simp [PaymentCall.skips] at hrule
  | delegatePay delegate beneficiary id amount =>
      obtain rfl := List.mem_singleton.1 hj
      obtain ⟨inv₀, hload₀, hopen⟩ := delegatePay_open hrun
      obtain rfl := hsame hload₀
      apply hopen.holds
      cases rule <;> simp [PaymentCall.skips] at hrule ⊢
  | payInvoiceDelegated executor id amount nonce onBehalfOf =>
      obtain rfl := List.mem_singleton.1 hj
      obtain ⟨inv₀, hload₀, hopen, hfrozen, hadmin, hlisted⟩ := payInvoiceDelegated_checked hrun
      obtain rfl := hsame hload₀
      cases rule with
      | unfrozen => exact .inl hfrozen
      | unfrozenByAdmin => exact hadmin
      | allowedPayer => exact hlisted
      | withinWindow => simp [PaymentCall.skips] at hrule
      | allowedContributor => simp [PaymentCall.skips] at hrule
      | _ =>
          apply hopen.holds
          simp
  | revealConfidentialPayment id payer value blinding =>
      obtain rfl := List.mem_singleton.1 hj
      obtain ⟨inv₀, hload₀, hopen, hfrozen, hadmin⟩ := revealConfidentialPayment_checked hrun
      obtain rfl := hsame hload₀
      cases rule with
      | unfrozen => exact .inl hfrozen
      | unfrozenByAdmin => exact hadmin
      | withinWindow => simp [PaymentCall.skips] at hrule
      | allowedPayer => simp [PaymentCall.skips] at hrule
      | allowedContributor => simp [PaymentCall.skips] at hrule
      | _ =>
          apply hopen.holds
          simp

/-- A call that funds an invoice has its access rules enforced if and only if the rules the call
does not check hold. -/
theorem access_rules_hold_iff {call : PaymentCall} {inv' : Invoice}
    (hrun : call.run env s = .ok (v, t)) (hload : (s.entries j).load = some inv)
    (hafter : (t.entries j).load = some inv') (hraised : inv.funded < inv'.funded) :
    (∀ rule, AccessRule.Holds env (s.entries j) inv call.payer rule) ↔
      ∀ rule, call.Unchecked s j rule → AccessRule.Holds env (s.entries j) inv call.payer rule := by
  constructor
  · intro hall rule _
    exact hall rule
  · intro hunchecked rule
    by_cases hj : j ∈ call.targets s
    · by_cases hskip : rule ∈ call.skips
      · exact hunchecked rule fun _ => hskip
      · exact rule_holds_of_checked hrun hload hafter hraised hj hskip
    · exact hunchecked rule fun h => absurd h hj

/-- An invoice that only payer 20 may pay. -/
def listedInvoice (frozen : Bool) : Invoice :=
  { sampleInvoice with frozen := frozen, allowedPayers := some [20] }

/-- Payer 20 pays by token an invoice that is not frozen. -/
theorem listed_payer_pays_by_token :
    ∃ t inv inv',
      (PaymentCall.payWithToken 20 1 9 40 0).run (sampleEnv 10 0)
          (sampleStore (listedInvoice false) []) = .ok ((), t) ∧
        ((sampleStore (listedInvoice false) []).entries 1).load = some inv ∧
        (t.entries 1).load = some inv' ∧ inv.funded < inv'.funded ∧
        ∀ rule, AccessRule.Holds (sampleEnv 10 0) ((sampleStore (listedInvoice false) []).entries 1) inv
          (PaymentCall.payWithToken 20 1 9 40 0).payer rule := by
  refine ⟨_, _, _, rfl, rfl, rfl, by decide +kernel, ?_⟩
  refine (access_rules_hold_iff rfl rfl rfl (by decide +kernel)).2 ?_
  intro rule _
  cases rule <;> decide

/-- Payer 30, who is not on the list, funds the frozen invoice with 40. -/
theorem stranger_funds_frozen_invoice :
    ((sampleStore (listedInvoice true) []).entries 1).load.map Invoice.funded = some 0 ∧
      (((commit ((PaymentCall.payWithToken 30 1 9 40 0).run (sampleEnv 10 0))
        (sampleStore (listedInvoice true) [])).entries 1).load.map Invoice.funded = some 40) ∧
      ¬AccessRule.Holds (sampleEnv 10 0) ((sampleStore (listedInvoice true) []).entries 1)
        (listedInvoice true) 30 .unfrozen ∧
      ¬AccessRule.Holds (sampleEnv 10 0) ((sampleStore (listedInvoice true) []).entries 1)
        (listedInvoice true) 30 .allowedPayer := by
  refine ⟨?_, ?_, ?_, ?_⟩ <;> decide +kernel

end StellarSplit.Split
