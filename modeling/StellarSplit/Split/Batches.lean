import Mathlib.Algebra.BigOperators.Group.List.Basic
import StellarSplit.Lib.Registry
import StellarSplit.Lib.Runs
import StellarSplit.Split.Credits
import StellarSplit.Split.OtherPayments
import StellarSplit.Split.Pools

/-!
# Payment batches

A payer collects payments to several invoices and has them made with one transfer. A batch
names every invoice once and its total is what the items add up to. It is executed at most
once. The execution takes the total, and the funding of each listed invoice grows by its
item and by what the releases on the way forward to it.
-/

namespace StellarSplit.Split.Batches

open Exec Function Machine Registry

/-! ## The contract -/

/-- The storage with the number of the next batch and the limit of items. -/
structure BatchStore where
  ledger : Store := {}
  paymentBatchNextId : Option ℕ := none
  paymentBatchLimit : Option ℕ := none

abbrev BatchM (α : Type) := Call BatchStore SplitFault α

def onLedger {α : Type} (x : SplitM α) : BatchM α :=
  focus BatchStore.ledger (fun s t => { s with ledger := t }) x

def defaultPaymentBatchLimit : ℕ := 25

/-- `payment_batch_limit` -/
def BatchStore.limit (s : BatchStore) : ℕ := s.paymentBatchLimit.getD defaultPaymentBatchLimit

def loadOpenPaymentBatch (batchId : ℕ) (payer : Address) : SplitM PaymentBatch := do
  let s ← get
  let batch ← orPanic (s.batches batchId) "batch not found"
  require (batch.payer = payer) (.panic "not batch owner")
  require (batch.status = .open) (.panic "batch is not open")
  pure batch

def openPaymentBatch (env : Env) (payer token : Address) : BatchM ℕ := do
  onLedger (requireNotPaused env)
  requireAuth env.toLedger payer
  let s ← get
  let id := s.paymentBatchNextId.getD 1
  set { s with paymentBatchNextId := some (id + 1) }
  onLedger (setBatch id { payer := payer, token := token, items := [], total := 0, status := .open })
  pure id

/-- The last item for the invoice, with its position. -/
def existingItem (items : List InvoicePayment) (invoiceId : ℕ) : Option (InvoicePayment × ℕ) :=
  (items.zipIdx.filter fun item => item.1.invoiceId = invoiceId).getLast?

/-- The items with one more payment: an item for the invoice takes it in. -/
def mergedItems (limit : ℕ) (items : List InvoicePayment) (invoiceId : ℕ) (amount newAmount : ℤ) :
    BatchM (List InvoicePayment) :=
  match existingItem items invoiceId with
  | some item => pure (items.set item.2 ⟨invoiceId, newAmount⟩)
  | none => do
      require (items.length < limit) (.panic "BatchLimitExceeded")
      pure (items ++ [⟨invoiceId, amount⟩])

def addToPaymentBatch (env : Env) (payer : Address) (batchId invoiceId : ℕ) (amount : ℤ) :
    BatchM Unit := do
  onLedger (requireNotPaused env)
  requireAuth env.toLedger payer
  let batch ← onLedger (loadOpenPaymentBatch batchId payer)
  require (0 < amount) (.panic "payment amount must be positive")
  let inv ← onLedger (loadInvoice invoiceId)
  onLedger (checkOpen env inv)
  require (fundingTokenFor inv = batch.token) (.panic "all invoices must use the same token")
  let batchedSoFar := ((existingItem batch.items invoiceId).map fun item => item.1.amount).getD 0
  let newAmount ← orPanic (checkedAddI128 batchedSoFar amount) "payment amount overflow"
  require (inv.funded + newAmount ≤ inv.total) (.panic "payment exceeds remaining balance")
  let s ← get
  let items ← mergedItems s.limit batch.items invoiceId amount newAmount
  let total ← orPanic (checkedAddI128 batch.total amount) "batch total overflow"
  onLedger (setBatch batchId { batch with items := items, total := total })

def removeFromPaymentBatch (env : Env) (payer : Address) (batchId invoiceId : ℕ) : BatchM Unit := do
  requireAuth env.toLedger payer
  let batch ← onLedger (loadOpenPaymentBatch batchId payer)
  let kept := batch.items.filter fun item => item.invoiceId ≠ invoiceId
  require (kept.length < batch.items.length) (.panic "invoice not in batch")
  onLedger (setBatch batchId
    { batch with items := kept, total := (kept.map InvoicePayment.amount).sum })

def cancelPaymentBatch (env : Env) (payer : Address) (batchId : ℕ) : BatchM Unit := do
  requireAuth env.toLedger payer
  let batch ← onLedger (loadOpenPaymentBatch batchId payer)
  onLedger (setBatch batchId { batch with status := .cancelled })

/-- No batch is touched. -/
def SameBatches (s t : Store) : Prop := t.batches = s.batches

/-- A call on the batches, or any other call on the invoices. -/
inductive BatchCall where
  | openPaymentBatch (payer token : Address)
  | addToPaymentBatch (payer : Address) (batchId invoiceId : ℕ) (amount : ℤ)
  | removeFromPaymentBatch (payer : Address) (batchId invoiceId : ℕ)
  | cancelPaymentBatch (payer : Address) (batchId : ℕ)
  | executePaymentBatch (payer : Address) (batchId : ℕ)
  | other (x : { x : SplitM Unit // Respects SameBatches x })

def batchStep (c : Env × BatchCall) : BatchM Unit :=
  match c.2 with
  | .openPaymentBatch payer token => ignore (openPaymentBatch c.1 payer token)
  | .addToPaymentBatch payer batchId invoiceId amount =>
      addToPaymentBatch c.1 payer batchId invoiceId amount
  | .removeFromPaymentBatch payer batchId invoiceId => removeFromPaymentBatch c.1 payer batchId invoiceId
  | .cancelPaymentBatch payer batchId => cancelPaymentBatch c.1 payer batchId
  | .executePaymentBatch payer batchId => onLedger (executePaymentBatch c.1 payer batchId)
  | .other x => onLedger x.1

/-- The storage before the first batch. -/
def unbatched (ledger : Store) (limit : Option ℕ) : BatchStore where
  ledger := { ledger with batches := fun _ => none }
  paymentBatchLimit := limit

/-! ## What an execution raises -/

section Raises

variable {env : Env} {s t u : Store} {v : Unit} {id j : ℕ} {inv : Invoice} {payer : Address} {x y leftover : ℤ}
  {next : ℕ → Invoice → Address → SplitM Unit} {actor : Address}

/-- What releases have forwarded to an invoice: the payments of the contract itself. -/
def forwardedInto (k : ℕ) (s : Store) : ℤ := paidBy (s.entries k).payments currentContract

/-- The funding of an invoice grows by `x` and at most by what is forwarded to it besides. -/
structure Raised (j : ℕ) (x : ℤ) (s t : Store) : Prop where
  forwarded : forwardedInto j s ≤ forwardedInto j t
  funded : ∀ inv ∈ (s.entries j).invoice, ∃ inv' ∈ (t.entries j).invoice,
    inv.funded + x ≤ inv'.funded ∧ inv'.funded ≤ inv.funded + x + (forwardedInto j t - forwardedInto j s)

theorem Raised.trans (h₁ : Raised j x s u) (h₂ : Raised j y u t) : Raised j (x + y) s t := by
  refine ⟨h₁.forwarded.trans h₂.forwarded, fun inv hinv => ?_⟩
  obtain ⟨inv₁, hinv₁, hlow₁, hup₁⟩ := h₁.funded inv hinv
  obtain ⟨inv₂, hinv₂, hlow₂, hup₂⟩ := h₂.funded inv₁ hinv₁
  exact ⟨inv₂, hinv₂, by linarith, by linarith⟩

theorem Raised.of_entry (h : t.entries j = s.entries j) : Raised j 0 s t := by
  have hsame : forwardedInto j t = forwardedInto j s := by
    unfold forwardedInto
    rw [h]
  refine ⟨hsame.ge, fun inv hinv => ⟨inv, ?_, by simp, by simp [hsame]⟩⟩
  rwa [h]

theorem forwardedInto_congr (h : (t.entries j).shards = (s.entries j).shards) :
    forwardedInto j t = forwardedInto j s := by
  unfold forwardedInto Entry.payments
  rw [h]

/-- What a nested release leaves: its own record has the funding it was called with. -/
def NextRaised (next : ℕ → Invoice → Address → SplitM Unit) : Prop :=
  ∀ {id inv actor s t} {v : Unit}, isGuarded (s.entries id) inv = false →
    next id inv actor s = .ok (v, t) →
    (∀ j, j ≠ id → Raised j 0 s t) ∧ forwardedInto id s ≤ forwardedInto id t ∧
      ∃ inv' ∈ (t.entries id).invoice, inv'.funded = inv.funded

theorem saveInvoice_raised (hrun : saveInvoice env id inv s = .ok (v, t)) :
    (∀ j, j ≠ id → Raised j 0 s t) ∧ forwardedInto id s ≤ forwardedInto id t ∧
      ∃ inv' ∈ (t.entries id).invoice, inv'.funded = inv.funded := by
  have hstored := saveInvoice_stored hrun
  obtain ⟨-, rfl⟩ := saveInvoice_ok.1 hrun
  refine ⟨fun j hj => .of_entry (Store.setEntry_ne s hj _), ?_, _, hstored, rfl⟩
  refine (forwardedInto_congr ?_).ge
  rw [Store.setEntry_self]

/-- A payment that is recorded before its invoice is released or saved with it. -/
theorem raised_of_push {q : Payment} {target : Invoice} (hload : (s.entries id).load = some target)
    (hpos : q.payer = currentContract → 0 < q.amount) (hpush : pushPayment id q s = .ok (v, u))
    (hrest : (∀ j, j ≠ id → Raised j 0 u t) ∧ forwardedInto id u ≤ forwardedInto id t ∧
      ∃ inv' ∈ (t.entries id).invoice, inv'.funded = target.funded + q.amount) :
    (∀ j, j ≠ id → Raised j 0 s t) ∧ Raised id (if q.payer = currentContract then 0 else q.amount) s t := by
  have hpaid : forwardedInto id u = forwardedInto id s +
      if q.payer = currentContract then q.amount else 0 := pushPayment_paidBy hpush
  have hold : ∀ j, j ≠ id → u.entries j = s.entries j := by
    obtain rfl := modifyEntry_ok.1 hpush
    exact fun j hj => Store.setEntry_ne s hj _
  obtain ⟨hothers, hgrows, inv', hinv', hfunded⟩ := hrest
  refine ⟨fun j hj => ?_, ?_, fun inv hinv => ⟨inv', hinv', ?_⟩⟩
  · have hsame : Raised j 0 s u := .of_entry (hold j hj)
    simpa using hsame.trans (hothers j hj)
  · split_ifs at hpaid with hcontract
    · have := hpos hcontract
      linarith
    · linarith
  · obtain ⟨stored, hstored, rfl⟩ := Option.map_eq_some_iff.1 hload
    obtain rfl : stored = inv := Option.some.inj (hstored.symm.trans hinv)
    have hstart : inv'.funded = stored.funded + q.amount := hfunded
    split_ifs at hpaid ⊢ with hcontract
    · have := hpos hcontract
      exact ⟨by linarith, by linarith⟩
    · exact ⟨by linarith, by linarith⟩

theorem addCumulative_raised (hrun : addCumulative id x s = .ok (v, t)) :
    (∀ j, j ≠ id → t.entries j = s.entries j) ∧ forwardedInto id t = forwardedInto id s := by
  obtain rfl := modifyEntry_ok.1 hrun
  refine ⟨fun j hj => Store.setEntry_ne s hj _, forwardedInto_congr ?_⟩
  rw [Store.setEntry_self]

theorem forwardToInvoice_raised (hnext : NextRaised next) (hpos : 0 < leftover)
    (hrun : forwardToInvoice env next id leftover s = .ok (v, t)) (j : ℕ) : Raised j 0 s t := by
  obtain ⟨target, u₁, u₂, hload, hpush, hcumulative, hrun⟩ := forwardToInvoice_ok hrun
  obtain ⟨hold, hsame⟩ := addCumulative_raised hcumulative
  have hafter : (∀ j, j ≠ id → Raised j 0 u₂ t) ∧ forwardedInto id u₂ ≤ forwardedInto id t ∧
      ∃ inv' ∈ (t.entries id).invoice, inv'.funded = target.funded + leftover := by
    rcases hrun with ⟨-, hunguarded, hrun⟩ | ⟨-, hrun⟩
    · have hfree : isGuarded (u₂.entries id) (target.withFunded (target.funded + leftover)) = false :=
        hunguarded
      exact hnext hfree hrun
    · exact saveInvoice_raised hrun
  obtain ⟨hothers, hself⟩ := raised_of_push hload (fun _ => hpos) hpush ⟨fun j hj => by
    have hcounted : Raised j 0 u₁ u₂ := .of_entry (hold j hj)
    simpa using hcounted.trans (hafter.1 j hj), hsame.ge.trans hafter.2.1, hafter.2.2⟩
  rcases eq_or_ne j id with rfl | hj
  · simpa using hself
  · exact hothers j hj

theorem forwardLeftover_raised (hnext : NextRaised next)
    (hrun : forwardLeftover env next id inv leftover s = .ok (v, t)) (j : ℕ) : Raised j 0 s t := by
  rcases forwardLeftover_cases hrun with rfl | ⟨addr, -, htransfer⟩ | ⟨hpos, -, targetId, -, hforward⟩
  · exact .of_entry rfl
  · obtain ⟨-, rfl⟩ := transfer_ok.1 htransfer
    exact .of_entry rfl
  · exact forwardToInvoice_raised hnext hpos hforward j

theorem releaseFull_raised (hnext : NextRaised next) (hunguarded : isGuarded (s.entries id) inv = false)
    (hrun : releaseFull env next id inv actor s = .ok (v, t)) :
    (∀ j, j ≠ id → Raised j 0 s t) ∧ forwardedInto id s ≤ forwardedInto id t ∧
      ∃ inv' ∈ (t.entries id).invoice, inv'.funded = inv.funded := by
  refine ⟨fun j hj => ?_, ?_⟩
  · obtain ⟨leftover, u, w, failed, fee, hpaid, hforward, -, hfinish⟩ :=
      releaseFull_outside (notMember_of_unguarded hunguarded) hj hrun
    have hbefore : Raised j 0 s u := .of_entry hpaid.entries
    have hafter : Raised j 0 w t := .of_entry hfinish.entries
    simpa using (hbefore.trans (forwardLeftover_raised hnext hforward j)).trans hafter
  · obtain ⟨platformFee, plan, failed, u₁, u₂, u₃, u₄, -, -, hpaid, hmembers, hinsurance, hforward,
      hfinish⟩ := releaseFull_passes hrun
    obtain ⟨-, hentries⟩ := finishRelease_ok hfinish
    have hself : t.entries id = { u₄.entries id with
        invoice := some ((inv.insurancePaid.completed (releaseStatus (u₄.entries id) inv failed)
          env.now).withPayments []) } := by
      rw [hentries, Store.setEntry_self]
    have hchange : Change Set.univ anyMemo s u₁ := change_of_framed framed_payPasses hpaid
    have hmember : id ∉ groupMembers u₁ id := by
      rw [groupMembers_congr hchange]
      exact notMember_of_unguarded hunguarded
    have h₁ : SameShards id s u₁ := framed_payPasses.respects s _ u₁ hpaid
    have h₂ : Outside id u₁ u₂ := releaseGroup_outside hmember hmembers
    have h₃ : SameShards id u₂ u₃ := framed_returnInsurance.respects u₂ _ u₃ hinsurance
    have hforwarded := (forwardLeftover_raised hnext hforward id).forwarded
    refine ⟨?_, _, congrArg Entry.invoice hself, rfl⟩
    calc forwardedInto id s = forwardedInto id u₁ := (forwardedInto_congr h₁).symm
      _ = forwardedInto id u₂ := (forwardedInto_congr (by rw [h₂.entries])).symm
      _ = forwardedInto id u₃ := (forwardedInto_congr h₃).symm
      _ ≤ forwardedInto id u₄ := hforwarded
      _ = forwardedInto id t := (forwardedInto_congr (by rw [hself])).symm

theorem nextRaised_releaseWithin (depth : ℕ) : NextRaised (releaseWithin env depth) := by
  induction depth with
  | zero =>
      intro id inv actor s t v _ hrun
      exact (throw_ok.1 hrun).elim
  | succ depth ih =>
      intro id inv actor s t v hunguarded hrun
      exact releaseFull_raised ih hunguarded (releaseWithin_full (isGuarded_tranches hunguarded) hrun)

theorem creditPoolPayment_raised {p : InvoicePayment} (hpayer : payer ≠ currentContract)
    (hrun : creditPoolPayment env payer p s = .ok (v, t)) (j : ℕ) :
    Raised j (if p.invoiceId = j then p.amount else 0) s t := by
  obtain ⟨loaded, u₁, u₂, hload, hpush, hcumulative, hrun⟩ := creditPoolPayment_passes hrun
  obtain ⟨hold, hsame⟩ := addCumulative_raised hcumulative
  have hafter : (∀ j, j ≠ p.invoiceId → Raised j 0 u₂ t) ∧
      forwardedInto p.invoiceId u₂ ≤ forwardedInto p.invoiceId t ∧
      ∃ inv' ∈ (t.entries p.invoiceId).invoice, inv'.funded = loaded.funded + p.amount := by
    obtain ⟨hfull, hrun⟩ | ⟨-, hrun⟩ := settleCredit_cases hrun
    · exact nextRaised_releaseWithin env.depth hfull.2.1 hrun
    · exact saveInvoice_raised hrun
  obtain ⟨hothers, hself⟩ := raised_of_push hload (fun heq => absurd heq hpayer) hpush ⟨fun j hj => by
    have hcounted : Raised j 0 u₁ u₂ := .of_entry (hold j hj)
    simpa using hcounted.trans (hafter.1 j hj), hsame.ge.trans hafter.2.1, hafter.2.2⟩
  rw [if_neg hpayer] at hself
  split_ifs with hj
  · rw [← hj]
    exact hself
  · exact hothers j (Ne.symm hj)

theorem creditPoolPayments_raised {payments : List InvoicePayment} (hpayer : payer ≠ currentContract)
    (hrun : forM payments (creditPoolPayment env payer) s = .ok (v, t)) (j : ℕ) :
    Raised j (poolSum payments j) s t := by
  induction payments generalizing s with
  | nil =>
      obtain ⟨-, rfl⟩ := pure_ok.1 hrun
      exact .of_entry rfl
  | cons p payments ih =>
      rw [List.forM_cons] at hrun
      obtain ⟨_, u, hfirst, hrest⟩ := bind_ok.1 hrun
      rw [poolSum_cons]
      exact (creditPoolPayment_raised hpayer hfirst j).trans (ih hrest)

end Raises

/-! ## One call -/

section Calls

variable {env : Env} {s t : BatchStore} {u w : Store} {v : Unit} {id invoiceId : ℕ} {payer : Address}
  {amount : ℤ} {batch : PaymentBatch} {items : List InvoicePayment} {limit : ℕ}

/-- A batch is well kept: one positive item for each invoice, the total and the limit. -/
structure Exact (limit : ℕ) (batch : PaymentBatch) : Prop where
  distinct : (batch.items.map InvoicePayment.invoiceId).Nodup
  positive : ∀ p ∈ batch.items, 0 < p.amount
  total : batch.total = (batch.items.map InvoicePayment.amount).sum
  within : batch.items.length ≤ limit

theorem loadOpenPaymentBatch_ok : loadOpenPaymentBatch id payer u = .ok (batch, w) ↔
    u.batches id = some batch ∧ batch.payer = payer ∧ batch.status = .open ∧ u = w := by
  simp only [loadOpenPaymentBatch, get_bind, orPanic_bind, require_bind, pure_ok]
  constructor
  · rintro ⟨_, hbatch, howner, hopen, rfl, rfl⟩
    exact ⟨hbatch, howner, hopen, rfl⟩
  · rintro ⟨hbatch, howner, hopen, rfl⟩
    exact ⟨_, hbatch, howner, hopen, rfl, rfl⟩

theorem existingItem_some {item : InvoicePayment × ℕ} (h : existingItem items invoiceId = some item) :
    items[item.2]? = some item.1 ∧ item.1.invoiceId = invoiceId := by
  obtain ⟨hmem, hid⟩ := List.mem_filter.1 (List.mem_of_getLast? h)
  exact ⟨List.mem_zipIdx_iff_getElem?.1 hmem, of_decide_eq_true hid⟩

theorem existingItem_none (h : existingItem items invoiceId = none) :
    invoiceId ∉ items.map InvoicePayment.invoiceId := by
  intro hmem
  obtain ⟨p, hp, hid⟩ := List.mem_map.1 hmem
  obtain ⟨i, hi⟩ := List.mem_iff_getElem?.1 hp
  have hnone := List.filter_eq_nil_iff.1 (List.getLast?_eq_none_iff.1 h) (p, i)
    (List.mem_zipIdx_iff_getElem?.2 hi)
  exact hnone (decide_eq_true hid)

theorem mergedItems_reads {items' : List InvoicePayment} {newAmount : ℤ}
    (hmerge : mergedItems limit items invoiceId amount newAmount s = .ok (items', t)) : t = s := by
  unfold mergedItems at hmerge
  cases hexisting : existingItem items invoiceId with
  | some item =>
      rw [hexisting] at hmerge
      exact (pure_ok.1 hmerge).2.symm
  | none =>
      rw [hexisting] at hmerge
      exact (pure_ok.1 (require_bind.1 hmerge).2).2.symm

/-- A payment that is added keeps the batch exact, merged or not. -/
theorem Exact.merged {soFar newAmount total : ℤ} (h : Exact limit batch) (hpos : 0 < amount)
    (hsoFar : soFar = ((existingItem batch.items invoiceId).map fun item => item.1.amount).getD 0)
    (hnew : newAmount = soFar + amount) (htotal : total = batch.total + amount)
    (hmerge : mergedItems limit batch.items invoiceId amount newAmount s = .ok (items, t)) :
    Exact limit { batch with items := items, total := total } := by
  unfold mergedItems at hmerge
  cases hexisting : existingItem batch.items invoiceId with
  | some item =>
      rw [hexisting] at hmerge hsoFar
      obtain ⟨rfl, rfl⟩ := pure_ok.1 hmerge
      obtain ⟨hitem, hid⟩ := existingItem_some hexisting
      obtain ⟨hlt, hget⟩ := List.getElem?_eq_some_iff.1 hitem
      have hmem : item.1 ∈ batch.items := List.mem_of_getElem? hitem
      have hold : soFar = item.1.amount := hsoFar
      have hitempos := h.positive item.1 hmem
      refine ⟨?_, fun p hp => ?_, ?_, ?_⟩
      · have hsame : (batch.items.set item.2 ⟨invoiceId, newAmount⟩).map InvoicePayment.invoiceId =
            batch.items.map InvoicePayment.invoiceId := by
          rw [List.map_set]
          refine List.ext_getElem? fun n => ?_
          rw [List.getElem?_set]
          split
          · next heq =>
              subst heq
              rw [List.length_map, if_pos hlt, List.getElem?_map, hitem]
              exact congrArg some hid.symm
          · rfl
        rw [hsame]
        exact h.distinct
      · rcases List.mem_or_eq_of_mem_set hp with hp | rfl
        · exact h.positive p hp
        · have : 0 < soFar + amount := by linarith
          rw [hnew]
          exact this
      · have hlt' : item.2 < (batch.items.map InvoicePayment.amount).length := by
          rwa [List.length_map]
        rw [htotal, h.total, List.map_set, List.sum_set', dif_pos hlt', List.getElem_map, hget]
        linarith
      · rw [List.length_set]
        exact h.within
  | none =>
      rw [hexisting] at hmerge hsoFar
      obtain ⟨hroom, hmerge⟩ := require_bind.1 hmerge
      obtain ⟨rfl, rfl⟩ := pure_ok.1 hmerge
      have hfresh := existingItem_none hexisting
      refine ⟨?_, fun p hp => ?_, ?_, ?_⟩
      · rw [List.map_append, List.map_singleton]
        exact List.nodup_append.2 ⟨h.distinct, List.nodup_singleton _, by
          rintro k hk _ hmem rfl
          obtain rfl := List.mem_singleton.1 hmem
          exact hfresh hk⟩
      · rcases List.mem_append.1 hp with hp | hp
        · exact h.positive p hp
        · obtain rfl := List.mem_singleton.1 hp
          exact hpos
      · rw [htotal, h.total]
        simp
      · simp only [List.length_append, List.length_singleton]
        omega

/-- What a call does to the batches. -/
inductive BatchChange (s t : BatchStore) : Prop where
  | same (hbatches : t.ledger.batches = s.ledger.batches) (hnext : t.paymentBatchNextId = s.paymentBatchNextId)
      (hlimit : t.limit = s.limit)
  | opens (batch : PaymentBatch) (hitems : batch.items = []) (htotal : batch.total = 0)
      (hbatches : t.ledger.batches = update s.ledger.batches (s.paymentBatchNextId.getD 1) (some batch))
      (hnext : t.paymentBatchNextId = some (s.paymentBatchNextId.getD 1 + 1)) (hlimit : t.limit = s.limit)
  | rewrites (id : ℕ) (batch batch' : PaymentBatch) (hbatch : s.ledger.batches id = some batch)
      (hopen : batch.status = .open) (hexact : Exact s.limit batch → Exact s.limit batch')
      (hbatches : t.ledger.batches = update s.ledger.batches id (some batch'))
      (hnext : t.paymentBatchNextId = s.paymentBatchNextId) (hlimit : t.limit = s.limit)

theorem openPaymentBatch_change {token : Address} (hrun : openPaymentBatch env payer token s = .ok (id, t)) :
    BatchChange s t := by
  obtain ⟨_, u, hpaused, hrun⟩ := focus_bind.1 hrun
  obtain ⟨-, rfl⟩ := requireNotPaused_ok.1 hpaused
  obtain ⟨-, hrun⟩ := requireAuth_bind.1 hrun
  obtain ⟨_, s₁, hset, hrun⟩ := bind_ok.1 (get_bind.1 hrun)
  obtain rfl := set_ok.1 hset
  obtain ⟨_, w, hbatch, hrun⟩ := focus_bind.1 hrun
  obtain rfl := modify_ok.1 hbatch
  obtain ⟨-, rfl⟩ := pure_ok.1 hrun
  exact .opens _ rfl rfl rfl rfl rfl

theorem addToPaymentBatch_change (hrun : addToPaymentBatch env payer id invoiceId amount s = .ok (v, t)) :
    BatchChange s t := by
  obtain ⟨_, u, hpaused, hrun⟩ := focus_bind.1 hrun
  obtain ⟨-, rfl⟩ := requireNotPaused_ok.1 hpaused
  obtain ⟨-, hrun⟩ := requireAuth_bind.1 hrun
  obtain ⟨batch, u, hload, hrun⟩ := focus_bind.1 hrun
  obtain ⟨hbatch, -, hopen, rfl⟩ := loadOpenPaymentBatch_ok.1 hload
  obtain ⟨hpos, hrun⟩ := require_bind.1 hrun
  obtain ⟨inv, u, hinv, hrun⟩ := focus_bind.1 hrun
  obtain ⟨-, rfl⟩ := loadInvoice_ok.1 hinv
  obtain ⟨_, u, hchecks, hrun⟩ := focus_bind.1 hrun
  have hreads : Framed Eq (checkOpen env inv) := by
    unfold checkOpen
    infer_instance
  obtain rfl := hreads.respects _ _ u hchecks
  obtain ⟨-, hrun⟩ := require_bind.1 hrun
  obtain ⟨newAmount, hnew, hrun⟩ := orPanic_bind.1 hrun
  obtain ⟨-, hrun⟩ := require_bind.1 hrun
  obtain ⟨items, s₁, hmerge, hrun⟩ := bind_ok.1 (get_bind.1 hrun)
  obtain ⟨total, htotal, hrun⟩ := orPanic_bind.1 hrun
  obtain ⟨w, hset, rfl⟩ := focus_ok.1 hrun
  obtain rfl := mergedItems_reads hmerge
  obtain rfl := modify_ok.1 hset
  refine .rewrites id batch _ hbatch hopen (fun h => ?_) rfl rfl rfl
  exact h.merged hpos rfl (checkedAddI128_eq hnew) (checkedAddI128_eq htotal) hmerge

theorem removeFromPaymentBatch_change (hrun : removeFromPaymentBatch env payer id invoiceId s = .ok (v, t)) :
    BatchChange s t := by
  obtain ⟨-, hrun⟩ := requireAuth_bind.1 hrun
  obtain ⟨batch, u, hload, hrun⟩ := focus_bind.1 hrun
  obtain ⟨hbatch, -, hopen, rfl⟩ := loadOpenPaymentBatch_ok.1 hload
  obtain ⟨-, hrun⟩ := require_bind.1 hrun
  obtain ⟨w, hset, rfl⟩ := focus_ok.1 hrun
  obtain rfl := modify_ok.1 hset
  refine .rewrites id batch _ hbatch hopen (fun h => ?_) rfl rfl rfl
  refine ⟨h.distinct.sublist (List.filter_sublist.map _), fun p hp => h.positive p (List.mem_of_mem_filter hp),
    rfl, (List.length_filter_le _ _).trans h.within⟩

theorem cancelPaymentBatch_change (hrun : cancelPaymentBatch env payer id s = .ok (v, t)) :
    BatchChange s t ∧ ∃ batch, t.ledger.batches id = some batch ∧ batch.status = .cancelled := by
  obtain ⟨-, hrun⟩ := requireAuth_bind.1 hrun
  obtain ⟨batch, u, hload, hrun⟩ := focus_bind.1 hrun
  obtain ⟨hbatch, -, hopen, rfl⟩ := loadOpenPaymentBatch_ok.1 hload
  obtain ⟨w, hset, rfl⟩ := focus_ok.1 hrun
  obtain rfl := modify_ok.1 hset
  refine ⟨.rewrites id batch { batch with status := .cancelled } hbatch hopen (fun h => ?_) rfl rfl rfl,
    { batch with status := .cancelled }, ?_, rfl⟩
  · exact ⟨h.distinct, h.positive, h.total, h.within⟩
  · exact update_self ..

/-! ### Calls that touch no batch -/

instance sameBatches_refl : Std.Refl SameBatches := ⟨fun _ => rfl⟩

instance sameBatches_trans : IsTrans Store SameBatches := ⟨fun _ _ _ h₁ h₂ => Eq.trans h₂ h₁⟩

instance moves_sameBatches {memo : Memo} : Moves SameBatches memo := ⟨fun _ _ _ => rfl⟩

instance releaseMoves_sameBatches {k : ℕ} : ReleaseMoves SameBatches k := ⟨fun _ _ => inferInstance⟩

instance counts_sameBatches : Counts SameBatches := ⟨fun _ _ _ => rfl⟩

instance countsVolume_sameBatches : CountsVolume SameBatches := ⟨fun _ _ => rfl⟩

instance notes_sameBatches {k : ℕ} : Notes SameBatches k := ⟨fun _ _ _ => rfl⟩

instance credits_sameBatches {k : ℕ} : Credits SameBatches k := ⟨fun _ _ => rfl⟩

instance saves_sameBatches {k : ℕ} {inv : Invoice} : Saves SameBatches k inv := ⟨fun _ _ _ => rfl⟩

instance framed_poolPayInner_sameBatches : Framed SameBatches (poolPayInner env payer items) := by
  have hcredit : ∀ p, Framed SameBatches (creditPoolPayment env payer p) := by
    intro p
    unfold creditPoolPayment
    infer_instance
  have hcollect : ∀ token, Framed SameBatches (collectPool env token payer items) := by
    intro token
    unfold collectPool
    split <;> infer_instance
  unfold poolPayInner
  infer_instance

/-- What an execution does to the ledger: the batch is marked, its total taken and the funding of every
listed invoice raised. -/
structure Executes (payer : Address) (id : ℕ) (batch : PaymentBatch) (u w : Store) : Prop where
  stored : u.batches id = some batch
  owner : batch.payer = payer
  wasOpen : batch.status = .open
  marked : w.batches = update u.batches id (some { batch with status := .executed })
  taken : takenFrom payer w = takenFrom payer u + (batch.items.map InvoicePayment.amount).sum
  raised : ∀ j, Raised j (poolSum batch.items j) u w
  known : ∀ p ∈ batch.items, ∃ inv, (u.entries p.invoiceId).invoice = some inv

theorem executePaymentBatch_ok (hrun : executePaymentBatch env payer id u = .ok (v, w)) :
    ∃ batch, Executes payer id batch u w := by
  obtain ⟨batch, u₁, hbatch, hpayer, howner, hopen, -, hset, hinner⟩ := executePaymentBatch_passes hrun
  obtain rfl := modify_ok.1 hset
  have hbatches : SameBatches _ w := framed_poolPayInner_sameBatches.respects _ v w hinner
  obtain ⟨hlisted, u₂, -, hentries, htaken, hcredit⟩ := poolPayInner_parts hinner
  have hkept := (creditPoolPayments_recorded hcredit).1
  refine ⟨batch, hbatch, howner, hopen, hbatches, hkept.trans htaken, fun j => ?_, fun p hp => ?_⟩
  · have hsame : Raised j 0 u u₂ := .of_entry (by rw [hentries])
    simpa using hsame.trans (creditPoolPayments_raised hpayer hcredit j)
  · obtain ⟨-, inv, hload⟩ := hlisted p hp
    obtain ⟨stored, hstored, -⟩ := Option.map_eq_some_iff.1 hload
    exact ⟨stored, hstored⟩

theorem batchStep_change {c : Env × BatchCall} (hrun : batchStep c s = .ok (v, t)) : BatchChange s t := by
  obtain ⟨env, call⟩ := c
  cases call with
  | openPaymentBatch payer token =>
      obtain ⟨id, hopen⟩ := ignore_ok.1 hrun
      exact openPaymentBatch_change hopen
  | addToPaymentBatch payer id invoiceId amount => exact addToPaymentBatch_change hrun
  | removeFromPaymentBatch payer id invoiceId => exact removeFromPaymentBatch_change hrun
  | cancelPaymentBatch payer id => exact (cancelPaymentBatch_change hrun).1
  | executePaymentBatch payer id =>
      have hledger : onLedger (executePaymentBatch env payer id) s = .ok (v, t) := hrun
      obtain ⟨w, hexecute, rfl⟩ := focus_ok.1 hledger
      obtain ⟨batch, h⟩ := executePaymentBatch_ok hexecute
      refine .rewrites id batch { batch with status := .executed } h.stored h.wasOpen (fun hexact => ?_)
        h.marked rfl rfl
      exact ⟨hexact.distinct, hexact.positive, hexact.total, hexact.within⟩
  | other x =>
      have hledger : onLedger x.1 s = .ok (v, t) := hrun
      obtain ⟨w, hother, rfl⟩ := focus_ok.1 hledger
      exact .same (x.2 _ v w hother) rfl rfl

/-! ## Runs -/

/-- The batches are well kept and numbered below the next one. -/
structure Kept (s : BatchStore) : Prop where
  exact : ∀ id batch, s.ledger.batches id = some batch → Exact s.limit batch
  numbered : ∀ id batch, s.ledger.batches id = some batch → id < s.paymentBatchNextId.getD 1

theorem Kept.step (h : Kept s) (hchange : BatchChange s t) : Kept t := by
  cases hchange with
  | same hbatches hnext hlimit =>
      refine ⟨fun id batch hbatch => ?_, fun id batch hbatch => ?_⟩ <;> rw [hbatches] at hbatch
      · rw [hlimit]
        exact h.exact id batch hbatch
      · rw [hnext]
        exact h.numbered id batch hbatch
  | opens new hitems htotal hbatches hnext hlimit =>
      constructor
      · rw [hbatches, hlimit]
        refine forall_update h.exact ?_
        constructor <;> simp [hitems, htotal]
      · rw [hbatches, hnext]
        refine forall_update (fun id batch hbatch => ?_) (Nat.lt_succ_self _)
        exact (h.numbered id batch hbatch).trans (Nat.lt_succ_self _)
  | rewrites k old new hold hopen hexact hbatches hnext hlimit =>
      constructor
      · rw [hbatches, hlimit]
        exact forall_update h.exact (hexact (h.exact k old hold))
      · rw [hbatches, hnext]
        exact forall_update h.numbered (h.numbered k old hold)

/-- A batch that is not open any more stays as it is. -/
structure Closed (id : ℕ) (batch : PaymentBatch) (s : BatchStore) : Prop where
  kept : Kept s
  stored : s.ledger.batches id = some batch
  notOpen : batch.status ≠ .open

theorem Closed.step (h : Closed id batch s) (hchange : BatchChange s t) : Closed id batch t := by
  refine ⟨h.kept.step hchange, ?_, h.notOpen⟩
  cases hchange with
  | same hbatches hnext hlimit => rw [hbatches, h.stored]
  | opens new hitems htotal hbatches hnext hlimit =>
      have hlt := h.kept.numbered id batch h.stored
      rw [hbatches, update_of_ne hlt.ne, h.stored]
  | rewrites k old new hold hopen hexact hbatches hnext hlimit =>
      have hne : id ≠ k := by
        rintro rfl
        obtain rfl := Option.some.inj (hold.symm.trans h.stored)
        exact h.notOpen hopen
      rw [hbatches, update_of_ne hne, h.stored]

/-- No later call executes a batch that is not open any more. -/
theorem Closed.not_executed (h : Closed id batch s) (later : List (Env × BatchCall)) (env : Env)
    (payer : Address) (r : Unit × BatchStore) :
    batchStep (env, .executePaymentBatch payer id) (runAll batchStep s later) ≠ .ok r := by
  intro hrun
  have hlater : Closed id batch (runAll batchStep s later) :=
    runAll_invariant (fun s c v t hs hstep => hs.step (batchStep_change hstep)) h later
  obtain ⟨v, t⟩ := r
  have hledger : onLedger (executePaymentBatch env payer id) (runAll batchStep s later) = .ok (v, t) := hrun
  obtain ⟨w, hexecute, -⟩ := focus_ok.1 hledger
  obtain ⟨batch', hbatch⟩ := executePaymentBatch_ok hexecute
  obtain rfl := Option.some.inj (hbatch.stored.symm.trans hlater.stored)
  exact hlater.notOpen hbatch.wasOpen

theorem kept_runAll (ledger : Store) (limit : Option ℕ) (calls : List (Env × BatchCall)) :
    Kept (runAll batchStep (unbatched ledger limit) calls) := by
  refine runAll_invariant (fun s c v t hs hstep => hs.step (batchStep_change hstep)) ?_ calls
  refine ⟨fun id batch h => ?_, fun id batch h => ?_⟩ <;> cases h

theorem limit_runAll (ledger : Store) (limit : Option ℕ) (calls : List (Env × BatchCall)) :
    (runAll batchStep (unbatched ledger limit) calls).limit = limit.getD defaultPaymentBatchLimit := by
  refine runAll_invariant (I := fun s : BatchStore => s.limit = limit.getD defaultPaymentBatchLimit)
    (fun s c v t hs hstep => ?_) rfl calls
  cases batchStep_change hstep with
  | same _ _ hlimit => exact hlimit.trans hs
  | opens _ _ _ _ _ hlimit => exact hlimit.trans hs
  | rewrites _ _ _ _ _ _ _ _ hlimit => exact hlimit.trans hs

theorem poolSum_of_notMem {k : ℕ} (h : k ∉ items.map InvoicePayment.invoiceId) : poolSum items k = 0 := by
  induction items with
  | nil => rfl
  | cons q items ih =>
      rw [List.map_cons, List.mem_cons, not_or] at h
      rw [poolSum_cons, if_neg (Ne.symm h.1), ih h.2, add_zero]

/-- With an item for each invoice, what a list has for an invoice is the amount of its item. -/
theorem poolSum_of_mem (h : (items.map InvoicePayment.invoiceId).Nodup) {p : InvoicePayment} (hp : p ∈ items) :
    poolSum items p.invoiceId = p.amount := by
  induction items with
  | nil => cases hp
  | cons q items ih =>
      rw [List.map_cons, List.nodup_cons] at h
      rw [poolSum_cons]
      rcases List.mem_cons.1 hp with rfl | hp
      · rw [if_pos rfl, poolSum_of_notMem h.1, add_zero]
      · have hne : q.invoiceId ≠ p.invoiceId := fun heq => h.1 (heq ▸ List.mem_map_of_mem hp)
        rw [if_neg hne, zero_add, ih h.2 hp]

/-! ## Single use and exact -/

/-- What the execution of a batch by its payer leaves. -/
structure Settled (payer : Address) (id : ℕ) (batch : PaymentBatch) (s t : BatchStore) : Prop where
  owner : batch.payer = payer
  marked : t.ledger.batches = update s.ledger.batches id (some { batch with status := .executed })
  taken : takenFrom payer t.ledger = takenFrom payer s.ledger + batch.total
  funded : ∀ p ∈ batch.items, ∃ inv inv', (s.ledger.entries p.invoiceId).invoice = some inv ∧
    (t.ledger.entries p.invoiceId).invoice = some inv' ∧ inv.funded + p.amount ≤ inv'.funded ∧
    inv'.funded ≤ inv.funded + p.amount +
      (forwardedInto p.invoiceId t.ledger - forwardedInto p.invoiceId s.ledger)

theorem settled_of_execute (h : Kept s)
    (hrun : batchStep (env, .executePaymentBatch payer id) s = .ok (v, t)) :
    ∃ batch, s.ledger.batches id = some batch ∧ batch.status = .open ∧ Settled payer id batch s t ∧
      Closed id { batch with status := .executed } t := by
  have hledger : onLedger (executePaymentBatch env payer id) s = .ok (v, t) := hrun
  have hkept := h.step (batchStep_change hrun)
  obtain ⟨w, hexecute, rfl⟩ := focus_ok.1 hledger
  obtain ⟨batch, hbatch⟩ := executePaymentBatch_ok hexecute
  have hexact := h.exact id batch hbatch.stored
  refine ⟨batch, hbatch.stored, hbatch.wasOpen, ⟨hbatch.owner, hbatch.marked, ?_, fun p hp => ?_⟩, hkept, ?_, ?_⟩
  · rw [hexact.total]
    exact hbatch.taken
  · obtain ⟨inv, hinv⟩ := hbatch.known p hp
    obtain ⟨inv', hinv', hraised⟩ := (hbatch.raised p.invoiceId).funded inv hinv
    rw [poolSum_of_mem hexact.distinct hp] at hraised
    exact ⟨inv, inv', hinv, hinv', hraised⟩
  · have hstored : w.batches id = some { batch with status := .executed } := by
      rw [hbatch.marked, update_self]
    exact hstored
  · simp

theorem closed_of_cancel (h : Kept s)
    (hrun : batchStep (env, .cancelPaymentBatch payer id) s = .ok (v, t)) : ∃ batch, Closed id batch t := by
  obtain ⟨hchange, batch, hbatch, hstatus⟩ := cancelPaymentBatch_change hrun
  exact ⟨batch, h.step hchange, hbatch, by simp [hstatus]⟩

/-- After every run of batch calls: the batches are exact; an execution takes the total of the batch
from its payer and raises the funding of each listed invoice by its item, and beyond that at most by
what releases forward to it on the way; no batch is executed twice or after it was cancelled; and an
execution that fails leaves everything as it was. -/
theorem batches_settle (ledger : Store) (limit : Option ℕ) (calls : List (Env × BatchCall)) :
    let s := runAll batchStep (unbatched ledger limit) calls
    (∀ id batch, s.ledger.batches id = some batch → Exact (limit.getD defaultPaymentBatchLimit) batch) ∧
      (∀ env payer id t, batchStep (env, .executePaymentBatch payer id) s = .ok ((), t) →
        ∃ batch, s.ledger.batches id = some batch ∧ batch.status = .open ∧ Settled payer id batch s t ∧
          ∀ later env' payer' r,
            batchStep (env', .executePaymentBatch payer' id) (runAll batchStep t later) ≠ .ok r) ∧
      (∀ env payer id t, batchStep (env, .cancelPaymentBatch payer id) s = .ok ((), t) →
        ∀ later env' payer' r,
          batchStep (env', .executePaymentBatch payer' id) (runAll batchStep t later) ≠ .ok r) ∧
      ∀ env payer id e, batchStep (env, .executePaymentBatch payer id) s = .error e →
        runAll batchStep s [(env, .executePaymentBatch payer id)] = s := by
  intro s
  have hkept : Kept s := kept_runAll ledger limit calls
  refine ⟨fun id batch hbatch => ?_, fun env payer id t hrun => ?_, fun env payer id t hrun => ?_,
    fun env payer id e hrun => commit_error hrun⟩
  · rw [← limit_runAll ledger limit calls]
    exact hkept.exact id batch hbatch
  · obtain ⟨batch, hbatch, hopen, hsettled, hclosed⟩ := settled_of_execute hkept hrun
    exact ⟨batch, hbatch, hopen, hsettled, hclosed.not_executed⟩
  · obtain ⟨batch, hclosed⟩ := closed_of_cancel hkept hrun
    exact hclosed.not_executed

end Calls

/-- Invoice 2 pays a third and two thirds of its funding to its recipients and forwards the rest to
invoice 1. -/
def forwardingLedger : Store :=
  commit (createInvoice (sampleEnv 6 0)
    { sampleInvoice with
      splitRules := [.percentage 3333, .percentage 6667]
      forwardInvoiceId := some 1 } {})
    (commit (createInvoice (sampleEnv 5 0) sampleInvoice {}) {})

/-- Payer 20 collects 40 for invoice 1 and 100 for invoice 2. -/
def collecting : List (Env × BatchCall) :=
  [(sampleEnv 10 0, .openPaymentBatch 20 9), (sampleEnv 11 0, .addToPaymentBatch 20 1 1 40),
    (sampleEnv 12 0, .addToPaymentBatch 20 1 2 100)]

def collected : BatchStore := runAll batchStep (unbatched forwardingLedger none) collecting

def settled : BatchStore := commit (batchStep (sampleEnv 13 0, .executePaymentBatch 20 1)) collected

/-- The item of invoice 1. -/
def firstItem : InvoicePayment := ⟨1, 40⟩

def collectedBatch : PaymentBatch where
  payer := 20
  token := 9
  items := [firstItem, ⟨2, 100⟩]
  total := 140
  status := .open

/-- The release of invoice 2 raises invoice 1 by one more than its item. -/
theorem item_raised_by_forward :
    ¬∀ (ledger : Store) (limit : Option ℕ) (calls : List (Env × BatchCall)) (env : Env) (payer : Address)
      (id : ℕ) (t : BatchStore) (batch : PaymentBatch),
      batchStep (env, .executePaymentBatch payer id) (runAll batchStep (unbatched ledger limit) calls) =
        .ok ((), t) →
      (runAll batchStep (unbatched ledger limit) calls).ledger.batches id = some batch →
      ∀ p ∈ batch.items,
        (t.ledger.entries p.invoiceId).invoice.map Invoice.funded =
          ((runAll batchStep (unbatched ledger limit) calls).ledger.entries p.invoiceId).invoice.map
            fun inv => inv.funded + p.amount := by
  intro h
  have hexecute : batchStep (sampleEnv 13 0, .executePaymentBatch 20 1) collected = .ok ((), settled) :=
    ok_commit (by decide +kernel)
  have hbatch : collected.ledger.batches 1 = some collectedBatch := by decide +kernel
  have hraised := h forwardingLedger none collecting (sampleEnv 13 0) 20 1 settled collectedBatch hexecute
    hbatch firstItem (List.mem_cons_self ..)
  have hbefore : ((runAll batchStep (unbatched forwardingLedger none) collecting).ledger.entries
      firstItem.invoiceId).invoice.map (fun inv => inv.funded + firstItem.amount) = some 40 := by
    decide +kernel
  have hafter : (settled.ledger.entries firstItem.invoiceId).invoice.map Invoice.funded = some 41 := by
    decide +kernel
  rw [hafter, hbefore] at hraised
  exact absurd hraised (by decide)

end StellarSplit.Split.Batches
