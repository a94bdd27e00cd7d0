import StellarSplit.Split.PayerBooks
import StellarSplit.Split.PayerDisputes

/-!
# Facts about the terms of an invoice

Payments, releases, refunds and disputes never write the terms of an invoice.
A fact that the terms decide stays true of the stored invoice under all of
them, on whatever invoice they are made. The refund paths look up their token
in the loaded invoice, so what they send is followed along with the fact.
-/

namespace StellarSplit.Split

open Exec Function Machine

variable {env : Env} {s t : Store} {id k : ℕ} {inv : Invoice} {Q : Invoice → Prop}
  {R : Store → Store → Prop} {α : Type} {a : Address}

/-! ## The relation -/

/-- The terms of an invoice decide the fact. -/
class TermFact (Q : Invoice → Prop) : Prop where
  congr : ∀ inv inv' : Invoice, inv'.terms = inv.terms → Q inv → Q inv'

theorem lasting_of_terms [hQ : TermFact Q] : Lasting Q :=
  ⟨fun inv _ => hQ.congr inv _ rfl, fun inv _ => hQ.congr inv _ rfl,
    fun inv stored hcloses _ => hQ.congr inv stored hcloses.terms⟩

/-- The fact stays true of the stored invoice, and the storages are related. -/
abbrev Retains (Q : Invoice → Prop) (k : ℕ) (R : Store → Store → Prop) : Store → Store → Prop :=
  Under (StoredAs Q k) R

/-- The invoices with the fact, as far as they belong under the id. -/
abbrev Having (Q : Invoice → Prop) (k id : ℕ) : Type := { inv : Invoice // k = id → Q inv }

/-- The invoice has the fact, if it is the one under the id. -/
class Suits (Q : Invoice → Prop) (k : ℕ) (id : outParam ℕ) (inv : Invoice) : Prop where
  out : k = id → Q inv

instance having_suits {inv : Having Q k id} : Suits Q k id inv.1 := ⟨inv.2⟩

instance moves_retains {memo : Memo} [h : Moves R memo] : Moves (Retains Q k R) memo :=
  ⟨fun s m hm hs => ⟨hs, h.move s m hm⟩⟩

instance counts_retains [h : Counts R] : Counts (Retains Q k R) :=
  ⟨fun s f hf hs => ⟨hs, h.count s f hf⟩⟩

instance countsVolume_retains [h : CountsVolume R] : CountsVolume (Retains Q k R) :=
  ⟨fun s f hs => ⟨hs, h.count s f⟩⟩

instance locks_retains [h : Locks R] : Locks (Retains Q k R) := ⟨fun s b hs => ⟨hs, h.lock s b⟩⟩

/-- A write of entries stores the invoice that was there, or one with the fact. -/
theorem stays_setEntry {e : Entry}
    (he : k = id → e.invoice = (s.entries id).invoice ∨ ∃ inv, e.invoice = some inv ∧ Q inv) :
    Stays Q k s (s.setEntry id e) := by
  intro hs
  by_cases hk : k = id
  · subst hk
    unfold StoredAs
    rw [Store.setEntry_self]
    rcases he rfl with hsame | hnew
    · rw [hsame]
      exact hs
    · exact hnew
  · exact storedAs_of_entry (Store.setEntry_ne s hk e) hs

instance notes_retains [h : Notes R id] : Notes (Retains Q k R) id := by
  refine ⟨fun s e hcore hs => ⟨stays_setEntry (fun _ => .inl ?_) hs, h.note s e hcore⟩⟩
  have hinvoice : e.core.invoice = (s.entries id).core.invoice := by rw [hcore]
  exact hinvoice

instance credits_retains [h : Credits R id] : Credits (Retains Q k R) id :=
  ⟨fun s p hs => ⟨stays_setEntry (fun _ => .inl rfl) hs, h.credit s p⟩⟩

instance saves_retains [hQ : TermFact Q] [hinv : Suits Q k id inv] [h : Saves R id inv] :
    Saves (Retains Q k R) id inv := by
  refine ⟨fun inv' hterms s hs => ⟨stays_setEntry (fun hk => .inr ⟨_, rfl, ?_⟩) hs, h.save inv' hterms s⟩⟩
  exact hQ.congr inv (inv'.withPayments []) hterms (hinv.out hk)

/-! ## Loaded invoices -/

/-- A call that returns an invoice with the fact. -/
class Yields (Q : Invoice → Prop) (k : ℕ) (R : Store → Store → Prop) (id : outParam ℕ)
    (x : SplitM Invoice) : Prop where
  framed : Framed (Retains Q k R) x
  fact : ∀ s inv t, StoredAs Q k s → x s = .ok (inv, t) → k = id → Q inv

section Loaded

variable [Std.Refl R] [IsTrans Store R]

instance framed_yields {x : SplitM Invoice} [hx : Yields Q k R id x] {f : Invoice → SplitM α}
    [hf : ∀ inv : Having Q k id, Framed (Retains Q k R) (f inv)] : Framed (Retains Q k R) (x >>= f) := by
  refine .of fun s a t hrun hs => ?_
  obtain ⟨inv, u, hread, hrest⟩ := bind_ok.1 hrun
  obtain ⟨hu, hsu⟩ := hx.framed.respects s inv u hread hs
  obtain ⟨ht, hut⟩ := (hf ⟨inv, hx.fact s inv u hs hread⟩).respects u a t hrest hu
  exact ⟨ht, trans_of R hsu hut⟩

instance yields_loadInvoice [TermFact Q] : Yields Q k R id (loadInvoice id) := by
  refine ⟨inferInstance, fun s inv t hs hread hk => ?_⟩
  subst hk
  exact hs.load lasting_of_terms (loadInvoice_ok.1 hread).1

instance yields_pure [hinv : Suits Q k id inv] : Yields Q k R id (pure inv) := by
  refine ⟨inferInstance, fun s inv' t _ hread => ?_⟩
  obtain ⟨rfl, -⟩ := pure_ok.1 hread
  exact hinv.out

instance yields_bind {x : SplitM α} [hx : Framed (Retains Q k R) x] {f : α → SplitM Invoice}
    [hf : ∀ a, Yields Q k R id (f a)] : Yields Q k R id (x >>= f) := by
  have hframed : ∀ a, Framed (Retains Q k R) (f a) := fun a => (hf a).framed
  refine ⟨inferInstance, fun s inv t hs hrun => ?_⟩
  obtain ⟨a, u, hread, hrest⟩ := bind_ok.1 hrun
  exact (hf a).fact u inv t (hx.respects s a u hread hs).1 hrest

instance (priority := 1100) yields_andThen {x : SplitM α} [Framed (Retains Q k R) x] {y : SplitM Invoice}
    [Yields Q k R id y] : Yields Q k R id (x >>= fun _ => y) :=
  yields_bind

instance yields_yields {x : SplitM Invoice} [hx : Yields Q k R id x] {f : Invoice → SplitM Invoice}
    [hf : ∀ inv : Having Q k id, Yields Q k R id (f inv)] : Yields Q k R id (x >>= f) := by
  have hframed : ∀ inv : Having Q k id, Framed (Retains Q k R) (f inv) := fun inv => (hf inv).framed
  refine ⟨inferInstance, fun s inv t hs hrun => ?_⟩
  obtain ⟨a, u, hread, hrest⟩ := bind_ok.1 hrun
  exact (hf ⟨a, hx.fact s a u hs hread⟩).fact u inv t (hx.framed.respects s a u hread hs).1 hrest

instance yields_ite {c : Prop} [Decidable c] {x y : SplitM Invoice} [Yields Q k R id x]
    [Yields Q k R id y] : Yields Q k R id (if c then x else y) := by
  split <;> infer_instance

end Loaded

section Updates

variable [hQ : TermFact Q] [h : Suits Q k id inv]

theorem suits_of_terms (inv : Invoice) [h : Suits Q k id inv] {inv' : Invoice}
    (hterms : inv'.terms = inv.terms) : Suits Q k id inv' :=
  ⟨fun hk => hQ.congr inv inv' hterms (h.out hk)⟩

instance suits_withStatus {status : InvoiceStatus} : Suits Q k id (inv.withStatus status) :=
  suits_of_terms inv rfl

instance suits_completed {status : InvoiceStatus} {now : ℕ} :
    Suits Q k id (inv.completed status now) := suits_of_terms inv rfl

instance suits_withFunded {x : ℤ} : Suits Q k id (inv.withFunded x) := suits_of_terms inv rfl

instance suits_withAuctionEnd {n : ℕ} : Suits Q k id (inv.withAuctionEnd n) := suits_of_terms inv rfl

instance suits_withMilestones {n : ℕ} : Suits Q k id (inv.withMilestones n) := suits_of_terms inv rfl

instance suits_withDisputed {b : Bool} : Suits Q k id (inv.withDisputed b) := suits_of_terms inv rfl

instance suits_insurancePaid : Suits Q k id inv.insurancePaid := suits_of_terms inv rfl

instance suits_markRefunded : Suits Q k id (inv.markRefunded a) := suits_of_terms inv rfl

instance suits_resumed : Suits Q k id inv.resumed := suits_of_terms inv rfl

instance suits_credited {x y z : ℤ} : Suits Q k id (inv.credited x y z) := suits_of_terms inv rfl

instance suits_ite {c : Prop} [Decidable c] {inv' : Invoice} [h' : Suits Q k id inv'] :
    Suits Q k id (if c then inv else inv') := by
  split
  · exact h
  · exact h'

instance suits_lazilyExpired : Suits Q k id (lazilyExpired env inv) := by
  unfold lazilyExpired
  infer_instance

instance suits_startHold : Suits Q k id (startHold env inv) :=
  suits_of_terms inv (startHold_terms env inv).1

instance suits_cancelled : Suits Q k id (cancelled inv) := by
  unfold cancelled
  infer_instance

end Updates

/-! ## Refund paths -/

/-- The first token of an invoice. -/
abbrev HeadOf (inv : Invoice) : Type := { token : Address // inv.tokens.head? = some token }

instance (priority := 2000) framed_head {message : String}
    {f : Address → SplitM α} [hf : ∀ token : HeadOf inv, Framed R (f token)] :
    Framed R (orPanic inv.tokens.head? message >>= f) := by
  refine ⟨fun s a t hrun => ?_⟩
  obtain ⟨token, htoken, hrest⟩ := orPanic_bind.1 hrun
  exact (hf ⟨token, htoken⟩).steps s a t hrest

/-- Refunds of the invoice in the first token of an invoice with the fact. -/
class Refunds (Q : Invoice → Prop) (k : ℕ) (R : Store → Store → Prop) (id : ℕ) : Prop where
  move : ∀ (inv : Invoice), (k = id → Q inv) → ∀ s (m : Transfer Memo), m.memo = ⟨id, .refund⟩ →
    inv.tokens.head? = some m.token → R s (s.withLog (m :: s.log))

section Paths

variable [hQ : TermFact Q] [Std.Refl R] [IsTrans Store R] [hrefunds : Refunds Q k R id]

omit hQ [Std.Refl R] [IsTrans Store R] in
instance framed_transfer_head [hinv : Suits Q k id inv] {token : HeadOf inv} {x : ℤ} :
    Framed (Retains Q k R) (transfer env token.1 a x ⟨id, .refund⟩) := by
  refine .of fun s v t hrun hs => ?_
  obtain ⟨-, rfl⟩ := transfer_ok.1 hrun
  exact ⟨hs, hrefunds.move inv hinv.out s _ rfl token.2⟩

omit hQ [Std.Refl R] [IsTrans Store R] in
instance framed_refundTotals_head [Suits Q k id inv] {token : HeadOf inv} {xs : List (Address × ℤ)} :
    Framed (Retains Q k R) (refundTotals env id token.1 xs) := by
  unfold refundTotals
  infer_instance

omit hQ [Std.Refl R] [IsTrans Store R] in
instance framed_refundPositive_head [Suits Q k id inv] {token : HeadOf inv} {xs : List (Address × ℤ)} :
    Framed (Retains Q k R) (refundPositive env id token.1 xs) := by
  unfold refundPositive transferPositive
  infer_instance

variable [ReleaseMoves R id] [Moves R ⟨id, .donation⟩] [Counts R] [Locks R] [Notes R id]
  [∀ inv, Saves R id inv]

instance framed_refundPayers_retains [Suits Q k id inv] : Framed (Retains Q k R) (refundPayers env id inv) := by
  unfold refundPayers
  infer_instance

instance framed_refund_retains : Framed (Retains Q k R) (refund env id) := by
  unfold refund startAuction
  infer_instance

instance framed_claimRefund_retains : Framed (Retains Q k R) (claimRefund env a id) := by
  unfold claimRefund payClaim
  infer_instance

instance framed_cancelInvoice_retains : Framed (Retains Q k R) (cancelInvoice env a id) := by
  unfold cancelInvoice cancelRefunds cancelFunded cancelUnfunded refundCancelled returnBonus
  infer_instance

instance framed_partialRefund_retains {bps : ℕ} : Framed (Retains Q k R) (partialRefund env a id bps) := by
  unfold partialRefund
  infer_instance

instance framed_resolveInvoiceDispute_retains {outcome : DisputeOutcome} :
    Framed (Retains Q k R) (resolveInvoiceDispute env id a outcome) := by
  have hset : ∀ status, Framed (Retains Q k R) (setDisputeRecord id status) :=
    fun _ => framed_note fun _ => rfl
  have houtcome : ∀ inv : Having Q k id, Framed (Retains Q k R) (applyOutcome env id inv outcome) := by
    intro inv
    unfold applyOutcome disputeRelease disputeRefund returnBonus
    cases outcome <;> infer_instance
  unfold resolveInvoiceDispute
  infer_instance

variable [hrelease : ∀ inv actor, Framed R (releaseAs env id inv actor)]

omit hrefunds [ReleaseMoves R id] [Moves R ⟨id, .donation⟩] [Counts R] [Locks R] [Notes R id]
  [∀ inv, Saves R id inv] in
instance framed_releaseAs_retains [hinv : Suits Q k id inv] :
    Framed (Retains Q k R) (releaseAs env id inv a) :=
  .of fun s v t hrun hs => ⟨releaseAs_stays lasting_of_terms hinv.out s v t hrun hs,
    (hrelease inv a).respects s v t hrun⟩

instance framed_autoResolve_retains : Framed (Retains Q k R) (autoResolve env id) := by
  have hrule : ∀ inv : Having Q k id, Framed (Retains Q k R) (applyRule env id inv) := by
    intro inv
    unfold applyRule resolveByRefund
    split <;> infer_instance
  unfold autoResolve
  infer_instance

instance framed_resolveDispute_retains {resolution : ResolveAction} :
    Framed (Retains Q k R) (resolveDispute env id a resolution) := by
  have haction : ∀ inv : Having Q k id, Framed (Retains Q k R) (arbiterAction env id inv resolution) := by
    intro inv
    unfold arbiterAction arbiterRefund returnBonus
    cases resolution <;> infer_instance
  unfold resolveDispute
  infer_instance

instance framed_endDispute_retains [Suits Q k id inv] {status : DisputeStatus} :
    Framed (Retains Q k R) (endDispute env id inv status a) := by
  have hset : Framed (Retains Q k R) (setDisputeRecord id status) := framed_note fun _ => rfl
  unfold endDispute
  infer_instance

instance framed_resolvePayerDispute_retains {outcome : DisputeOutcome} :
    Framed (Retains Q k R) (resolvePayerDispute env id a outcome) := by
  have hset : Framed (Retains Q k R) (setDisputeRecord id .resolved) := framed_note fun _ => rfl
  have houtcome : ∀ (inv : Having Q k id) admin,
      Framed (Retains Q k R) (payerOutcome env id inv admin outcome) := by
    intro inv admin
    unfold payerOutcome payerDisputeRefund
    cases outcome <;> infer_instance
  unfold resolvePayerDispute requireAdmin
  infer_instance

instance framed_expireDispute_retains : Framed (Retains Q k R) (expireDispute env id) := by
  unfold expireDispute
  infer_instance

end Paths

/-! ## Other calls -/

/-- The ids given out so far stay given out. -/
def Numbered (s t : Store) : Prop := s.counter ≤ t.counter

instance numbered_refl : Std.Refl Numbered := ⟨fun s => le_refl s.counter⟩

instance numbered_trans : IsTrans Store Numbered := ⟨fun _ _ _ h₁ h₂ => Nat.le_trans h₁ h₂⟩

instance moves_numbered {memo : Memo} : Moves Numbered memo := ⟨fun s _ _ => le_refl s.counter⟩

instance counts_numbered : Counts Numbered := ⟨fun s _ _ => le_refl s.counter⟩

instance countsVolume_numbered : CountsVolume Numbered := ⟨fun s _ => le_refl s.counter⟩

instance locks_numbered : Locks Numbered := ⟨fun s _ => le_refl s.counter⟩

instance notes_numbered : Notes Numbered id := ⟨fun s _ _ => le_refl s.counter⟩

instance credits_numbered : Credits Numbered id := ⟨fun s _ => le_refl s.counter⟩

instance saves_numbered : Saves Numbered id inv := ⟨fun _ _ s => le_refl s.counter⟩

instance refunds_numbered : Refunds Q k Numbered id := ⟨fun _ _ s _ _ _ => le_refl s.counter⟩

section Others

variable [hQ : TermFact Q]

instance framed_withdraw_retains : Framed (Retains Q k Numbered) (withdraw env id a) := by
  have hdrop : Framed (Retains Q k Numbered) (modifyEntry id fun e => e.dropPayer a) :=
    .of (.modify fun s hs => ⟨stays_setEntry (fun _ => .inl rfl) hs, le_refl s.counter⟩)
  unfold withdraw
  infer_instance

instance framed_withdrawContribution_retains :
    Framed (Retains Q k Numbered) (withdrawContribution env a id) := by
  have hclear : Framed (Retains Q k Numbered)
      (modifyEntry id fun e => { e with contribution := update e.contribution a 0 }) :=
    framed_note fun _ => rfl
  unfold withdrawContribution
  infer_instance

instance framed_partialRelease_retains {x : ℤ} :
    Framed (Retains Q k Numbered) (partialRelease env id a x) := by
  unfold partialRelease payPartialRelease payByPriority payProportional
  infer_instance

instance yields_autoResume [Suits Q k id inv] : Yields Q k Numbered id (autoResume env id inv) := by
  unfold autoResume
  split <;> infer_instance

instance yields_checkPayment {x : ℤ} : Yields Q k Numbered id (checkPayment env a id x) := by
  unfold checkPayment
  infer_instance

instance yields_maybeReleaseMilestones [Suits Q k id inv] :
    Yields Q k Numbered id (maybeReleaseMilestones env id inv) := by
  unfold maybeReleaseMilestones
  infer_instance

instance framed_settlePayment_retains [Suits Q k id inv] {x : ℤ} :
    Framed (Retains Q k Numbered) (settlePayment env id inv x a) := by
  unfold settlePayment
  infer_instance

instance framed_creditPayment_retains [Suits Q k id inv] {x y : ℤ} {b : Bool} :
    Framed (Retains Q k Numbered) (creditPayment env a id inv x y b) := by
  unfold creditPayment
  refine .next fun credited => .next fun premium => .next fun _ => .next fun _ => .next fun _ => ?_
  refine .next fun s => .next fun credit => .next fun funded => ?_
  infer_instance

instance framed_pay_retains {x : ℤ} {n : ℕ} {b : Bool} :
    Framed (Retains Q k Numbered) (pay env a id x n b) := by
  unfold pay payInner
  infer_instance

instance framed_raiseDispute_retains : Framed (Retains Q k Numbered) (raiseDispute env id a) := by
  unfold raiseDispute
  infer_instance

instance framed_raiseInvoiceDispute_retains :
    Framed (Retains Q k Numbered) (raiseInvoiceDispute env id a) := by
  have hopen : Framed (Retains Q k Numbered) (openDisputeRecord env id) := framed_note fun _ => rfl
  unfold raiseInvoiceDispute
  infer_instance

instance framed_raisePayerDispute_retains :
    Framed (Retains Q k Numbered) (raisePayerDispute env id a) := by
  have hopen : Framed (Retains Q k Numbered) (openDisputeRecord env id) := framed_note fun _ => rfl
  unfold raisePayerDispute
  infer_instance

instance framed_releaseInvoice_retains {preimage : Option (List ℕ)} :
    Framed (Retains Q k Numbered) (releaseInvoice env id preimage) := by
  refine .of fun s v t hrun hs => ⟨releaseInvoice_stays lasting_of_terms s v t hrun hs, ?_⟩
  have hstep : (⟨env, .releaseInvoice preimage⟩ : ReleaseStep).run id s = .ok (v, t) := hrun
  obtain ⟨inv, b, b', t', -, -, hrelease, rfl⟩ := ReleaseStep.inner hstep
  have hnumbered : Numbered (s.withLock b) t' := Framed.holds (s.withLock b) v t' hrelease
  exact hnumbered

end Others

end StellarSplit.Split
