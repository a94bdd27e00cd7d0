import StellarSplit.Split.Alignment
import StellarSplit.Split.Succession
import StellarSplit.Split.Terms

/-!
# The token of a refund

Payments are taken in the funding token of an invoice. The refund paths send
its first token instead, the token of the payout to the first recipient. These
are the same token for an invoice that was created with one token for all; with
tokens of the recipients a refund may draw on what other invoices hold.
-/

namespace StellarSplit.Split

open Exec Function Machine

variable {env : Env} {s t u : Store} {v : Unit} {id k newId : ℕ} {inv : Invoice} {f : Address}
  {P : Address → Prop} {Q : Invoice → Prop}

/-! ## The calls -/

/-- A creation with one token for all recipients, or with the tokens of the recipients. -/
structure Creation where
  draft : Invoice
  recipients : Option (List Recipient) := none
  extras : CreationExtras := {}

def Creation.run (env : Env) (c : Creation) : SplitM ℕ :=
  match c.recipients with
  | none => createInvoice env c.draft c.extras
  | some recipients => createInvoiceWithRecipients env c.draft recipients c.extras

/-- The calls that create and edit invoices, pay them, release them and settle their disputes. -/
inductive InvoiceCall where
  | create (creation : Creation)
  | edit (op : AlignOp)
  | fund (id : ℕ) (op : FundOp)
  | arbiter (id : ℕ) (call : ArbiterCall)
  | raiseInvoiceDispute (id : ℕ) (disputer : Address)
  | resolveInvoiceDispute (id : ℕ) (admin : Address) (outcome : DisputeOutcome)
  | payerDispute (call : PayerDisputeCall)

def invoiceStep (c : Env × InvoiceCall) : SplitM Unit :=
  match c.2 with
  | .create creation => ignore (creation.run c.1)
  | .edit op => alignStep (c.1, op)
  | .fund id op => fundStep id (c.1, op)
  | .arbiter id call => arbiterStep id (c.1, call)
  | .raiseInvoiceDispute id disputer => raiseInvoiceDispute c.1 id disputer
  | .resolveInvoiceDispute id admin outcome => resolveInvoiceDispute c.1 id admin outcome
  | .payerDispute call => payerDisputeStep (c.1, call)

/-- The ways in which payers get their payments back. -/
inductive RefundPath where
  | refund
  | claimRefund (payer : Address)
  | cancelInvoice (caller : Address)
  | autoResolve
  | partialRefund (creator : Address) (bps : ℕ)
  | resolveDispute (arbiter : Address) (resolution : ResolveAction)
  | resolveInvoiceDispute (admin : Address) (outcome : DisputeOutcome)
  | resolvePayerDispute (admin : Address) (outcome : DisputeOutcome)
  | expireDispute

def refundBy (env : Env) (id : ℕ) : RefundPath → SplitM Unit
  | .refund => refund env id
  | .claimRefund payer => claimRefund env payer id
  | .cancelInvoice caller => cancelInvoice env caller id
  | .autoResolve => autoResolve env id
  | .partialRefund creator bps => partialRefund env creator id bps
  | .resolveDispute arbiter resolution => resolveDispute env id arbiter resolution
  | .resolveInvoiceDispute admin outcome => resolveInvoiceDispute env id admin outcome
  | .resolvePayerDispute admin outcome => resolvePayerDispute env id admin outcome
  | .expireDispute => expireDispute env id

/-! ## What a refund sends -/

/-- The log has grown, and refunds of the invoice are in the first of the tokens. -/
def RefundsFrom (tokens : List Address) (k : ℕ) (s t : Store) : Prop :=
  ∃ new, t.log = new ++ s.log ∧ ∀ m ∈ new, m.memo = ⟨k, .refund⟩ → tokens.head? = some m.token

section Refunds

variable {tokens : List Address}

theorem RefundsFrom.of_log (h : t.log = s.log) : RefundsFrom tokens k s t :=
  ⟨[], by simpa using h, by simp⟩

instance refundsFrom_refl : Std.Refl (RefundsFrom tokens k) := ⟨fun _ => .of_log rfl⟩

instance refundsFrom_trans : IsTrans Store (RefundsFrom tokens k) := ⟨fun _ _ _ => grown_trans⟩

theorem refundsFrom_move (m : Transfer Memo) (h : m.memo = ⟨k, .refund⟩ → tokens.head? = some m.token) :
    RefundsFrom tokens k s (s.withLog (m :: s.log)) := by
  refine ⟨[m], rfl, fun m' hm' => ?_⟩
  obtain rfl := List.mem_singleton.1 hm'
  exact h

theorem moves_refundsFrom {memo : Memo} (h : memo.purpose ≠ .refund) : Moves (RefundsFrom tokens k) memo := by
  refine ⟨fun s m hm => refundsFrom_move m fun hrefund => absurd ?_ h⟩
  rw [← hm, hrefund]

instance releaseMoves_refundsFrom : ReleaseMoves (RefundsFrom tokens k) id := by
  refine ⟨fun p hp => moves_refundsFrom ?_⟩
  rintro rfl
  cases hp

instance donates_refundsFrom : Moves (RefundsFrom tokens k) ⟨id, .donation⟩ :=
  moves_refundsFrom (by simp)

instance counts_refundsFrom : Counts (RefundsFrom tokens k) := ⟨fun _ _ _ => .of_log rfl⟩

instance countsVolume_refundsFrom : CountsVolume (RefundsFrom tokens k) := ⟨fun _ _ => .of_log rfl⟩

instance locks_refundsFrom : Locks (RefundsFrom tokens k) := ⟨fun _ _ => .of_log rfl⟩

instance notes_refundsFrom : Notes (RefundsFrom tokens k) id := ⟨fun _ _ _ => .of_log rfl⟩

instance credits_refundsFrom : Credits (RefundsFrom tokens k) id := ⟨fun _ _ => .of_log rfl⟩

instance saves_refundsFrom : Saves (RefundsFrom tokens k) id inv := ⟨fun _ _ _ => .of_log rfl⟩

/-- The invoice has these tokens. -/
def HasTokens (tokens : List Address) (inv : Invoice) : Prop := inv.tokens = tokens

instance hasTokens_terms : TermFact (HasTokens tokens) := by
  refine ⟨fun inv inv' hterms htokens => ?_⟩
  have hsame : inv'.terms.tokens = inv.terms.tokens := by rw [hterms]
  exact hsame.trans htokens

instance refunds_refundsFrom : Refunds (HasTokens tokens) k (RefundsFrom tokens k) id := by
  refine ⟨fun inv hinv s m hm hhead => refundsFrom_move m fun hrefund => ?_⟩
  have hid : k = id := by
    have hmemo : (⟨k, .refund⟩ : Memo) = ⟨id, .refund⟩ := hrefund.symm.trans hm
    exact congrArg Memo.invoice hmemo
  rw [← hinv hid]
  exact hhead

/-- Every path sends the first token of the stored invoice. -/
theorem refundBy_token {path : RefundPath} (hinv : (s.entries k).invoice = some inv)
    (hrun : refundBy env k path s = .ok (v, t)) : RefundsFrom inv.tokens k s t := by
  have hframed : Framed (Retains (HasTokens inv.tokens) k (RefundsFrom inv.tokens k)) (refundBy env k path) := by
    cases path <;> unfold refundBy <;> infer_instance
  exact (hframed.respects s v t hrun ⟨inv, hinv, rfl⟩).2

end Refunds

/-! ## What stays of an invoice -/

/-- The invoice is funded in the token, and its payouts are in tokens as asked. -/
def FundedIn (f : Address) (P : Address → Prop) (inv : Invoice) : Prop :=
  inv.fundingToken = f ∧ ∀ token ∈ inv.tokens, P token

instance fundedIn_terms : TermFact (FundedIn f P) := by
  refine ⟨fun inv inv' hterms hinv => ?_⟩
  have hfunding : inv'.terms.fundingToken = inv.terms.fundingToken := by rw [hterms]
  have htokens : inv'.terms.tokens = inv.terms.tokens := by rw [hterms]
  have htokens' : inv'.tokens = inv.tokens := htokens
  refine ⟨hfunding.trans hinv.1, ?_⟩
  rw [htokens']
  exact hinv.2

theorem retains_wrote (h : Wrote id inv s t) (hne : k ≠ id) : Retains Q k Numbered s t :=
  fun hs => ⟨storedAs_of_entry (h.others k hne) hs, h.counter⟩

theorem retains_save [hQ : TermFact Q] (hinv : k = id → Q inv)
    (hsave : saveInvoice env id inv s = .ok (v, t)) : Retains Q k Numbered s t := by
  obtain ⟨-, rfl⟩ := saveInvoice_ok.1 hsave
  refine fun hs => ⟨stays_setEntry (fun hk => .inr ⟨_, rfl, ?_⟩) hs, le_refl s.counter⟩
  exact hQ.congr inv _ rfl (hinv hk)

/-- An invoice that is loaded, changed and saved keeps what the change keeps. -/
theorem retains_rewrote {inv' : Invoice} [TermFact Q] (hload : (s.entries id).load = some inv)
    (hinv : Q inv → Q inv') (hsave : saveInvoice env id inv' s = .ok (v, t)) :
    Retains Q k Numbered s t := by
  intro hs
  refine retains_save (fun hk => ?_) hsave hs
  subst hk
  exact hinv (hs.load lasting_of_terms hload)

theorem createInvoiceWithRecipients_ok {draft : Invoice} {recipients : List Recipient}
    {extras : CreationExtras}
    (hrun : createInvoiceWithRecipients env draft recipients extras s = .ok (id, t)) :
    id = s.counter + 1 ∧ (draft.forRecipients recipients).recipients ≠ [] ∧
      ∃ payments, Wrote id ((((draft.forRecipients recipients).created
        (draft.forRecipients recipients).payoutTokens).withOverfundingPolicy
          draft.overfundingPolicy).withPayments payments) s t := by
  simp only [createInvoiceWithRecipients, require_bind, requireAuth_bind] at hrun
  obtain ⟨-, -, -, hrun⟩ := hrun
  obtain ⟨_, u, hrate, hrun⟩ := bind_ok.1 hrun
  obtain ⟨hid, hchecked, -, payments, hwrote⟩ := createAndConfigure_ok hrun
  have hbefore : Beside id s u := framed_applyRateLimit.respects s _ u hrate
  refine ⟨?_, hchecked.recipients, payments, hwrote.beside hbefore⟩
  rw [hid, hbefore.counter]

/-- The tokens of the payouts that a creation sets. -/
def Creation.tokens (c : Creation) : List Address :=
  match c.recipients with
  | none => c.draft.recipients.map fun _ => c.draft.fundingToken
  | some recipients => recipients.map Recipient.token

theorem Creation.run_ok {c : Creation} (hrun : c.run env s = .ok (id, t)) :
    id = s.counter + 1 ∧
      ∃ inv, Wrote id inv s t ∧ inv.fundingToken = c.draft.fundingToken ∧ inv.tokens = c.tokens := by
  unfold Creation.run at hrun
  unfold Creation.tokens
  cases hrecipients : c.recipients with
  | none =>
      rw [hrecipients] at hrun
      obtain ⟨hid, -, tokens, payments, rfl, -, hwrote⟩ := createInvoice_ok hrun
      exact ⟨hid, _, hwrote, rfl, rfl⟩
  | some recipients =>
      rw [hrecipients] at hrun
      obtain ⟨hid, hsome, payments, hwrote⟩ := createInvoiceWithRecipients_ok hrun
      refine ⟨hid, _, hwrote, rfl, ?_⟩
      have htokens : (c.draft.forRecipients recipients).tokens ≠ [] := by
        intro hnil
        apply hsome
        exact List.map_eq_nil_iff.2 (List.map_eq_nil_iff.1 hnil)
      exact if_neg htokens

theorem rolloverInvoice_retains {caller : Address} {deadline : ℕ} (hk : k ≤ s.counter) [hQ : TermFact Q]
    (hrun : rolloverInvoice env caller id deadline s = .ok (newId, t)) : Retains Q k Numbered s t := by
  intro hs
  rcases eq_or_ne k id with rfl | hne
  · obtain ⟨old, tokens, hload, -, -, -, -, -, hrolled⟩ := rolloverInvoice_ok hk hrun
    refine ⟨?_, ?_⟩
    · unfold StoredAs
      rw [hrolled.old]
      exact ⟨_, rfl, hQ.congr old _ rfl (hs.load lasting_of_terms hload)⟩
    · unfold Numbered
      rw [hrolled.counter]
      exact Nat.le_succ _
  · simp only [rolloverInvoice, requireNotPaused_bind, requireAuth_bind, loadInvoice_bind,
      require_bind] at hrun
    obtain ⟨-, -, old, -, -, -, -, -, hrun⟩ := hrun
    obtain ⟨new, u₁, hcreate, hrun⟩ := bind_ok.1 hrun
    obtain ⟨_, u₂, hcopy, hrun⟩ := bind_ok.1 hrun
    obtain ⟨inv, -, hrun⟩ := loadInvoice_bind.1 hrun
    obtain ⟨_, u₃, hsaveNew, hrun⟩ := bind_ok.1 hrun
    obtain ⟨_, u₄, hsaveOld, hrun⟩ := bind_ok.1 hrun
    obtain ⟨rfl, rfl⟩ := pure_ok.1 hrun
    obtain ⟨-, -, hstored⟩ := createInvoiceInner_ok hcreate
    have hfresh : k ≠ new := by
      have := hstored.fresh
      omega
    simp only [copyShardPayments, getEntry_bind] at hcopy
    have hcreated : Retains Q k Numbered s u₁ := retains_wrote hstored.wrote hfresh
    have hcopied : Retains Q k Numbered u₁ u₂ := by
      obtain rfl := modifyEntry_ok.1 hcopy
      exact fun h => ⟨stays_setEntry (fun heq => absurd heq hfresh) h, le_refl u₁.counter⟩
    have hnew : Retains Q k Numbered u₂ u₃ := retains_save (fun h => absurd h hfresh) hsaveNew
    have hold : Retains Q k Numbered u₃ u₄ := retains_save (fun h => absurd h hne) hsaveOld
    exact trans_of (Retains Q k Numbered)
      (trans_of (Retains Q k Numbered) (trans_of (Retains Q k Numbered) hcreated hcopied) hnew) hold hs

theorem renewInvoice_retains {creator : Address} {deadline : ℕ} (hk : k ≤ s.counter) [hQ : TermFact Q]
    (hrun : renewInvoice env creator id deadline s = .ok (newId, t)) : Retains Q k Numbered s t := by
  intro hs
  rcases eq_or_ne k id with rfl | hne
  · obtain ⟨old, amounts, hload, -, hrenewed⟩ := renewInvoice_ok hk hrun
    refine ⟨?_, ?_⟩
    · unfold StoredAs
      rw [hrenewed.old]
      exact ⟨_, rfl, hQ.congr old _ rfl (hs.load lasting_of_terms hload)⟩
    · unfold Numbered
      rw [hrenewed.counter]
      exact Nat.le_succ _
  · have hclosed : Closed Set.univ (others k) s := fun _ _ _ _ _ _ => Set.mem_univ _
    obtain ⟨-, hchange⟩ := renewInvoice_change hne.symm hk hclosed hrun
    exact ⟨storedAs_of_entry (hchange.entries k (by simp)) hs, hchange.counter⟩

theorem othersOf_mem {α : Type} {n idx : ℕ} {xs ys : List α} (h : othersOf n idx xs = .ok ys) :
    ∀ y ∈ ys, y ∈ xs := by
  unfold othersOf at h
  generalize (List.range n).filter (· ≠ idx) = positions at h
  induction positions generalizing ys with
  | nil =>
      rw [List.mapM_nil] at h
      cases h
      intro y hy
      cases hy
  | cons i positions ih =>
      rw [List.mapM_cons] at h
      cases hi : xs[i]? with
      | none =>
          rw [hi] at h
          cases h
      | some x =>
          rw [unwrap_ok.2 hi] at h
          cases hrest : positions.mapM fun i => unwrap xs[i]? with
          | error e =>
              rw [hrest] at h
              cases h
          | ok rest =>
              rw [hrest] at h
              cases h
              intro y hy
              rcases List.mem_cons.1 hy with rfl | hy
              · exact List.mem_of_getElem? hi
              · exact ih hrest y hy

theorem cloneInvoiceImpl_retains {creator : Address} {sourceId : ℕ} {overrides : CloneOverrides}
    {selection : Option (List ℕ)} (hk : k ≤ s.counter)
    (hrun : cloneInvoiceImpl env creator sourceId overrides selection s = .ok (id, t)) :
    Retains Q k Numbered s t := by
  obtain ⟨source, token, deadline, overflow, -, -, -, -, -, hstored⟩ := cloneInvoiceImpl_ok hrun
  have hfresh := hstored.fresh
  exact retains_wrote hstored.wrote (by omega)

/-- The new recipient is paid in the first token of the invoice. -/
theorem addRecipient_retains {caller recipient : Address} {amount : ℤ}
    (hrun : addRecipient env caller id recipient amount s = .ok (v, t)) :
    Retains (FundedIn f P) k Numbered s t := by
  simp only [addRecipient, requireNotPaused_bind, requireAuth_bind, loadInvoice_bind, require_bind,
    orPanic_bind] at hrun
  obtain ⟨-, -, inv, hload, -, -, -, -, -, -, -, token, htoken, hsave⟩ := hrun
  refine retains_rewrote hload (fun hinv => ?_) hsave
  refine ⟨hinv.1, List.forall_mem_append.2 ⟨hinv.2, List.forall_mem_singleton.2 ?_⟩⟩
  exact hinv.2 token (List.mem_of_mem_head? htoken)

theorem rebalanceRecipients_retains {creator removeAddress : Address}
    (hrun : rebalanceRecipients env creator id removeAddress s = .ok (v, t)) :
    Retains (FundedIn f P) k Numbered s t := by
  simp only [rebalanceRecipients, requireNotPaused_bind, requireAuth_bind, loadInvoice_bind,
    require_bind, orPanic_bind, ofResult_bind] at hrun
  obtain ⟨-, -, inv, hload, -, -, -, -, -, idx, -, removed, -, recipients, -, amounts, -, tokens, hrest,
    claimed, -, newAmounts, -, hsave⟩ := hrun
  refine retains_rewrote hload (fun hinv => ?_) hsave
  exact ⟨hinv.1, fun token htoken => hinv.2 token (othersOf_mem hrest token htoken)⟩

/-- The calls that write invoices keep the funding token, and take the tokens of the payouts from
those that are there. -/
theorem alignStep_retains {c : Env × AlignOp} (hk : k ≤ s.counter)
    (hrun : alignStep c s = .ok (v, t)) : Retains (FundedIn f P) k Numbered s t := by
  obtain ⟨env, op⟩ := c
  cases op with
  | create draft extras =>
      obtain ⟨id, hcreate⟩ := ignore_ok.1 hrun
      obtain ⟨rfl, -, tokens, payments, -, -, hwrote⟩ := createInvoice_ok hcreate
      exact retains_wrote hwrote (by omega)
  | clone creator sourceId overrides =>
      obtain ⟨id, hclone⟩ := ignore_ok.1 hrun
      exact cloneInvoiceImpl_retains hk hclone
  | clonePartial creator sourceId indices overrides =>
      obtain ⟨id, hclone⟩ := ignore_ok.1 hrun
      exact cloneInvoiceImpl_retains hk (require_bind.1 hclone).2
  | renew creator oldId deadline =>
      obtain ⟨newId, hrenew⟩ := ignore_ok.1 hrun
      exact renewInvoice_retains hk hrenew
  | rollover caller id deadline =>
      obtain ⟨newId, hrollover⟩ := ignore_ok.1 hrun
      exact rolloverInvoice_retains hk hrollover
  | addRecipient caller id recipient amount => exact addRecipient_retains hrun
  | rebalance creator id removeAddress => exact rebalanceRecipients_retains hrun
  | adjustSplit caller id newAmounts =>
      obtain ⟨inv, hload, -, hsave⟩ := adjustSplit_ok hrun
      refine retains_rewrote hload ?_ hsave
      exact fun hinv => hinv
  | rotate id oldAddress newAddress =>
      obtain ⟨inv, hload, -, hsave⟩ := rotateRecipientAddress_ok hrun
      refine retains_rewrote hload ?_ hsave
      exact fun hinv => hinv

theorem fundStep_retains {c : Env × FundOp} [TermFact Q] :
    Respects (Retains Q k Numbered) (fundStep id c) := by
  obtain ⟨env, op⟩ := c
  cases op <;> dsimp only [fundStep] <;> exact Framed.holds

theorem arbiterStep_retains {c : Env × ArbiterCall} [TermFact Q] :
    Respects (Retains Q k Numbered) (arbiterStep id c) := by
  obtain ⟨env, call⟩ := c
  cases call <;> dsimp only [arbiterStep] <;> exact Framed.holds

theorem payerDisputeStep_retains {c : Env × PayerDisputeCall} [TermFact Q] :
    Respects (Retains Q k Numbered) (payerDisputeStep c) := by
  obtain ⟨env, call⟩ := c
  cases call <;> dsimp only [payerDisputeStep] <;> exact Framed.holds

/-- The invoice was created, is funded in the token, and its payouts are in tokens as asked. -/
def Tracked (f : Address) (P : Address → Prop) (k : ℕ) (s : Store) : Prop :=
  k ≤ s.counter ∧ StoredAs (FundedIn f P) k s

theorem Tracked.step {c : Env × InvoiceCall} (h : Tracked f P k s)
    (hrun : invoiceStep c s = .ok (v, t)) : Tracked f P k t := by
  obtain ⟨hk, hs⟩ := h
  have hretains : Retains (FundedIn f P) k Numbered s t := by
    obtain ⟨env, call⟩ := c
    cases call with
    | create creation =>
        obtain ⟨id, hcreate⟩ := ignore_ok.1 hrun
        obtain ⟨rfl, inv, hwrote, -, -⟩ := creation.run_ok hcreate
        exact retains_wrote hwrote (by omega)
    | edit op => exact alignStep_retains hk hrun
    | fund id op => exact fundStep_retains s v t hrun
    | arbiter id call => exact arbiterStep_retains s v t hrun
    | raiseInvoiceDispute id disputer => exact framed_raiseInvoiceDispute_retains.respects s v t hrun
    | resolveInvoiceDispute id admin outcome =>
        exact framed_resolveInvoiceDispute_retains.respects s v t hrun
    | payerDispute call => exact payerDisputeStep_retains s v t hrun
  obtain ⟨ht, hcounter⟩ := hretains hs
  exact ⟨hk.trans hcounter, ht⟩

theorem Creation.tracked {c : Creation} (hrun : c.run env s = .ok (k, t))
    (hP : ∀ token ∈ c.tokens, P token) (calls : List (Env × InvoiceCall)) :
    Tracked c.draft.fundingToken P k (runAll invoiceStep t calls) := by
  obtain ⟨-, inv, hwrote, hfunding, htokens⟩ := c.run_ok hrun
  have hfirst : Tracked c.draft.fundingToken P k t := by
    refine ⟨hwrote.known, inv, hwrote.invoice, hfunding, ?_⟩
    rw [htokens]
    exact hP
  exact runAll_invariant (fun _ _ _ _ h hstep => h.step hstep) hfirst calls

/-! ## Refunds in the funding token -/

/-- After every creation and every run, the invoice is still funded in the token of the creation, and
a refund sends it exactly if it is also the first token of the invoice. This is always so when the
creation brings no other tokens. -/
theorem refund_token_iff {c : Creation} {env₀ : Env} (hcreate : c.run env₀ s = .ok (k, t))
    (calls : List (Env × InvoiceCall)) {path : RefundPath}
    (hrefund : refundBy env k path (runAll invoiceStep t calls) = .ok (v, u)) :
    ∃ inv new, ((runAll invoiceStep t calls).entries k).invoice = some inv ∧
      inv.fundingToken = c.draft.fundingToken ∧ u.log = new ++ (runAll invoiceStep t calls).log ∧
      (∀ m ∈ new, m.memo = ⟨k, .refund⟩ →
        (m.token = c.draft.fundingToken ↔ inv.tokens.head? = some c.draft.fundingToken)) ∧
      ((∀ token ∈ c.tokens, token = c.draft.fundingToken) →
        ∀ m ∈ new, m.memo = ⟨k, .refund⟩ → m.token = c.draft.fundingToken) := by
  obtain ⟨-, inv, hinv, hfunding, -⟩ := c.tracked (P := fun _ => True) hcreate (fun _ _ => trivial) calls
  obtain ⟨new, hlog, hnew⟩ := refundBy_token hinv hrefund
  refine ⟨inv, new, hinv, hfunding, hlog, fun m hm hmemo => ?_, fun hsame m hm hmemo => ?_⟩
  · rw [hnew m hm hmemo, Option.some_inj]
  · obtain ⟨-, inv', hinv', -, htokens⟩ := c.tracked hcreate hsame calls
    obtain rfl : inv = inv' := Option.some.inj (hinv.symm.trans hinv')
    exact htokens m.token (List.mem_of_mem_head? (hnew m hm hmemo))

/-- An invoice over token 9 whose first recipient is paid in token 8. -/
def mixedCreation : Creation where
  draft := sampleInvoice
  recipients := some [⟨10, 8⟩, ⟨11, 9⟩]

/-- An invoice over token 8. -/
def otherCreation : Creation where
  draft := { sampleInvoice with fundingToken := 8 }

/-- Another invoice is created, and both are half paid. -/
def bothPaid : List (Env × InvoiceCall) :=
  [(sampleEnv 11 0, .create otherCreation), (sampleEnv 12 0, .fund 1 (.pay 20 50 0 false)),
    (sampleEnv 13 0, .fund 2 (.pay 21 50 0 false))]

/-- The contract after the creation of an invoice and the payments. -/
def paidAfter (c : Creation) : Store :=
  runAll invoiceStep (commit (c.run (sampleEnv 10 0)) {}) bothPaid

/-- The refund of an invoice with one token is in the token of its payment. -/
theorem refund_token_sample : ∃ u, refundBy (sampleEnv 2001 0) 1 .refund
    (paidAfter { draft := sampleInvoice }) = .ok ((), u) ∧ refundedTo 1 20 u = 50 ∧
      ∃ new, u.log = new ++ (paidAfter { draft := sampleInvoice }).log ∧
        ∀ m ∈ new, m.memo = ⟨1, .refund⟩ → m.token = 9 := by
  have hcreate : Creation.run (sampleEnv 10 0) { draft := sampleInvoice } {} =
      .ok (1, commit (Creation.run (sampleEnv 10 0) { draft := sampleInvoice }) {}) :=
    ok_commit (by decide +kernel)
  have hrefund := ok_commit (x := refundBy (sampleEnv 2001 0) 1 .refund)
    (s := paidAfter { draft := sampleInvoice }) (a := ()) (by decide +kernel)
  obtain ⟨inv, new, -, -, hlog, -, hsame⟩ := refund_token_iff hcreate bothPaid hrefund
  exact ⟨_, hrefund, by decide +kernel, new, hlog, hsame (by decide)⟩

/-- With the tokens of the recipients the refund of a payment in token 9 takes token 8, which the
other invoice had been paid in. -/
theorem refund_in_other_token :
    ¬∀ (c : Creation) (env₀ env : Env) (s t u : Store) (k : ℕ) (calls : List (Env × InvoiceCall))
      (path : RefundPath), c.run env₀ s = .ok (k, t) →
      (∀ m ∈ (runAll invoiceStep t calls).log, m.memo = ⟨k, .payment⟩ → m.token = c.draft.fundingToken) →
      refundBy env k path (runAll invoiceStep t calls) = .ok ((), u) →
      ∀ m ∈ u.log, m.memo = ⟨k, .refund⟩ → m.token = c.draft.fundingToken := by
  intro h
  have hcreate : mixedCreation.run (sampleEnv 10 0) {} =
      .ok (1, commit (mixedCreation.run (sampleEnv 10 0)) {}) := ok_commit (by decide +kernel)
  have hpaid : ∀ m ∈ (paidAfter mixedCreation).log, m.memo = ⟨1, .payment⟩ → m.token = 9 := by
    decide +kernel
  have hrefund := ok_commit (x := refundBy (sampleEnv 2001 0) 1 .refund) (s := paidAfter mixedCreation)
    (a := ()) (by decide +kernel)
  have htoken := h mixedCreation _ _ _ _ _ 1 bothPaid .refund hcreate hpaid hrefund
    ⟨8, currentContract, 20, 50, ⟨1, .refund⟩⟩ (by decide +kernel) rfl
  exact absurd htoken (by decide)

end StellarSplit.Split
