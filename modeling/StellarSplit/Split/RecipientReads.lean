import StellarSplit.Lib.Registry
import StellarSplit.Lib.Runs
import StellarSplit.Split.Currency

/-!
# Reads of the recipients

The recipients of an invoice are in its record, in a list that a creation saves beside
it, and in a cache that the first read fills from that list. Nothing renews the list or
drops the cache, so the reads part when a call changes the recipients of an invoice that
has a list. Clones and renewals save no list, and all reads of them fall back to the
record.
-/

namespace StellarSplit.Split.RecipientReads

open Exec Function Machine Registry

variable {env : Env} {v : Unit} {id k newId : ℕ} {inv inv' : Invoice} {P : List Address → Prop}

/-! ## The contract -/

/-- The storage with the saved lists of recipients and the cache of them. -/
structure ReadStore where
  ledger : Store := {}
  recipientsList : ℕ → Option (List Address) := fun _ => none
  recipientsCache : ℕ → Option (List Address) := fun _ => none

abbrev ReadM (α : Type) := Call ReadStore SplitFault α

def onLedger {α : Type} (x : SplitM α) : ReadM α :=
  focus ReadStore.ledger (fun s t => { s with ledger := t }) x

/-- The saved list, or the empty one. -/
def ReadStore.saved (s : ReadStore) (id : ℕ) : List Address := (s.recipientsList id).getD []

def saveRecipientsList (id : ℕ) (recipients : List Address) : ReadM Unit :=
  modify fun s => { s with recipientsList := update s.recipientsList id (some recipients) }

def loadRecipientsCached (id : ℕ) : ReadM (List Address) := do
  let s ← get
  match s.recipientsCache id with
  | some cached => pure cached
  | none =>
      set { s with recipientsCache := update s.recipientsCache id (some (s.saved id)) }
      pure (s.saved id)

def getInvoiceRecipients (id : ℕ) : ReadM (List Address) := do
  let inv ← onLedger (loadInvoice id)
  let cached ← loadRecipientsCached id
  pure (if cached.length = inv.recipients.length then cached else inv.recipients)

def getRecipientsList (id : ℕ) : ReadM (List Address) := do
  let s ← get
  if s.saved id ≠ [] then pure (s.saved id)
  else do
    let inv ← onLedger (loadInvoice id)
    pure inv.recipients

/-- A call that goes through `_create_invoice_inner`, which saves the recipients of the new
invoice. -/
def creating (x : SplitM ℕ) : ReadM Unit := do
  let id ← onLedger x
  let inv ← onLedger (loadInvoice id)
  saveRecipientsList id inv.recipients

/-- A call on the invoices, or a read of the recipients. -/
inductive ReadCall where
  | call (call : InvoiceCall)
  | getInvoiceRecipients (id : ℕ)
  | getRecipientsList (id : ℕ)

def readStep (c : Env × ReadCall) : ReadM Unit :=
  match c.2 with
  | .call (.create creation) => creating (creation.run c.1)
  | .call (.edit (.create draft extras)) => creating (createInvoice c.1 draft extras)
  | .call (.edit (.rollover caller id deadline)) => creating (rolloverInvoice c.1 caller id deadline)
  | .call call => onLedger (invoiceStep (c.1, call))
  | .getInvoiceRecipients id => ignore (getInvoiceRecipients id)
  | .getRecipientsList id => ignore (getRecipientsList id)

/-- Both reads return the recipients that the record of the invoice has. -/
def ReadsAgree (s : ReadStore) : Prop :=
  ∀ id inv, (s.ledger.entries id).load = some inv →
    (∃ t, getInvoiceRecipients id s = .ok (inv.recipients, t)) ∧
      ∃ t, getRecipientsList id s = .ok (inv.recipients, t)

/-- The invoice whose recipients a call changes. -/
def InvoiceCall.rewritten : InvoiceCall → Option ℕ
  | .edit (.addRecipient _ id _ _) => some id
  | .edit (.rebalance _ id _) => some id
  | .edit (.rotate id oldAddress newAddress) => if oldAddress = newAddress then none else some id
  | _ => none

/-- The call leaves the recipients of the invoices alone that have a saved list. -/
def KeepsLists (s : ReadStore) (c : Env × ReadCall) : Prop :=
  match c.2 with
  | .call call => ∀ id ∈ InvoiceCall.rewritten call, s.saved id = []
  | _ => True

/-! ## What the calls on the invoices change -/

section Ledger

variable {s t : Store}

/-- A fact about the recipients of the invoice. -/
def OnRecipients (P : List Address → Prop) (inv : Invoice) : Prop := P inv.recipients

instance onRecipients_terms : TermFact (OnRecipients P) := by
  refine ⟨fun inv inv' hterms hinv => ?_⟩
  have hsame : inv'.terms.recipients = inv.terms.recipients := by rw [hterms]
  have hsame' : inv'.recipients = inv.recipients := hsame
  unfold OnRecipients
  rw [hsame']
  exact hinv

theorem length_othersOf {α : Type} {n idx : ℕ} {xs ys : List α} (hidx : idx < n)
    (h : othersOf n idx xs = .ok ys) : ys.length + 1 = n := by
  have hmap : ∀ {positions : List ℕ} {ys : List α},
      (positions.mapM fun i => unwrap xs[i]?) = .ok ys → ys.length = positions.length := by
    intro positions
    induction positions with
    | nil =>
        intro ys h
        cases h
        rfl
    | cons i positions ih =>
        intro ys h
        rw [List.mapM_cons] at h
        obtain ⟨x, -, h⟩ := except_bind_ok.1 h
        obtain ⟨rest, hrest, h⟩ := except_bind_ok.1 h
        cases h
        rw [List.length_cons, List.length_cons, ih hrest]
  have herase : (List.range n).filter (· ≠ idx) = (List.range n).erase idx := by
    rw [List.nodup_range.erase_eq_filter]
    refine List.filter_congr fun i _ => ?_
    rw [Bool.eq_iff_iff, decide_eq_true_iff, bne_iff_ne]
  rw [hmap h, herase, List.length_erase_of_mem (List.mem_range.2 hidx), List.length_range]
  omega

/-- Adding, removing or replacing a recipient writes other recipients to the record. -/
theorem invoiceStep_rewrites {call : InvoiceCall} (hid : id ∈ InvoiceCall.rewritten call)
    (hrun : invoiceStep (env, call) s = .ok (v, t)) :
    ∃ inv inv', (s.entries id).load = some inv ∧ inv'.recipients ≠ inv.recipients ∧
      saveInvoice env id inv' s = .ok (v, t) := by
  cases call with
  | edit op =>
      cases op with
      | addRecipient caller id' recipient amount =>
          obtain rfl : id' = id := by simpa [InvoiceCall.rewritten] using hid
          have hadd : addRecipient env caller id' recipient amount s = .ok (v, t) := hrun
          simp only [addRecipient, requireNotPaused_bind, requireAuth_bind, loadInvoice_bind, require_bind,
            orPanic_bind] at hadd
          obtain ⟨-, -, inv, hload, -, -, -, -, -, -, -, token, -, hsave⟩ := hadd
          refine ⟨inv, _, hload, fun heq => ?_, hsave⟩
          have hlen := congrArg List.length heq
          simp [Invoice.withRecipient] at hlen
      | rebalance creator id' removeAddress =>
          obtain rfl : id' = id := by simpa [InvoiceCall.rewritten] using hid
          have hrebalance : rebalanceRecipients env creator id' removeAddress s = .ok (v, t) := hrun
          simp only [rebalanceRecipients, requireNotPaused_bind, requireAuth_bind, loadInvoice_bind,
            require_bind, orPanic_bind, ofResult_bind] at hrebalance
          obtain ⟨-, -, inv, hload, -, -, -, -, -, idx, hfind, removed, -, recipients, hrest, amounts, -,
            tokens, -, claimed, -, newAmounts, -, hsave⟩ := hrebalance
          refine ⟨inv, _, hload, fun heq => ?_, hsave⟩
          have hidx : idx < inv.recipients.length := (List.findIdx?_eq_some_iff_getElem.1 hfind).1
          have hlen : recipients.length = inv.recipients.length := congrArg List.length heq
          have hfewer := length_othersOf hidx hrest
          omega
      | rotate id' oldAddress newAddress =>
          have hcase : oldAddress ≠ newAddress ∧ id' = id := by simpa [InvoiceCall.rewritten] using hid
          obtain ⟨hne, rfl⟩ := hcase
          obtain ⟨inv, hload, hmem, hsave⟩ := rotateRecipientAddress_ok hrun
          refine ⟨inv, _, hload, fun heq => ?_, hsave⟩
          have hmap : inv.recipients.map (fun r => if r = oldAddress then newAddress else r) =
              inv.recipients.map id := heq.trans (List.map_id _).symm
          have hfixed := List.map_inj_left.1 hmap oldAddress hmem
          rw [if_pos rfl] at hfixed
          exact hne hfixed.symm
      | create | clone | clonePartial | renew | rollover | adjustSplit => cases hid
  | create | fund | arbiter | raiseInvoiceDispute | resolveInvoiceDispute | payerDispute => cases hid

/-- The other calls keep the recipients of every invoice. -/
theorem invoiceStep_retains {call : InvoiceCall} (hnone : InvoiceCall.rewritten call = none)
    (hk : k ≤ s.counter) (hrun : invoiceStep (env, call) s = .ok (v, t)) :
    Retains (OnRecipients P) k Numbered s t := by
  cases call with
  | create creation =>
      obtain ⟨id, hcreate⟩ := ignore_ok.1 hrun
      obtain ⟨rfl, inv, hwrote, -, -⟩ := creation.run_ok hcreate
      exact retains_wrote hwrote (by omega)
  | edit op =>
      cases op with
      | create draft extras =>
          obtain ⟨id, hcreate⟩ := ignore_ok.1 hrun
          obtain ⟨rfl, -, tokens, payments, -, -, hwrote⟩ := createInvoice_ok hcreate
          exact retains_wrote hwrote (by omega)
      | clone creator sourceId overrides =>
          obtain ⟨id, hclone⟩ := ignore_ok.1 hrun
          exact cloneInvoiceImpl_retains hk hclone
      | clonePartial creator sourceId indices overrides =>
          obtain ⟨id, hclone⟩ := ignore_ok.1 hrun
          exact cloneInvoiceImpl_retains hk (require_bind.1 hclone).2
      | renew creator oldId deadline =>
          obtain ⟨newId, hrenew⟩ := ignore_ok.1 hrun
          exact renewInvoice_retains hk hrenew
      | rollover caller id deadline =>
          obtain ⟨newId, hrollover⟩ := ignore_ok.1 hrun
          exact rolloverInvoice_retains hk hrollover
      | addRecipient | rebalance => cases hnone
      | adjustSplit caller id newAmounts =>
          obtain ⟨inv, hload, -, hsave⟩ := adjustSplit_ok hrun
          refine retains_rewrote hload ?_ hsave
          exact fun hinv => hinv
      | rotate id oldAddress newAddress =>
          obtain rfl : oldAddress = newAddress := by simpa [InvoiceCall.rewritten] using hnone
          obtain ⟨inv, hload, -, hsave⟩ := rotateRecipientAddress_ok hrun
          refine retains_rewrote hload (fun hinv => ?_) hsave
          have hsame : (inv.withRotated oldAddress oldAddress).recipients = inv.recipients := by
            refine (List.map_congr_left fun r _ => ?_).trans (List.map_id _)
            split
            · next heq => exact heq.symm
            · rfl
          unfold OnRecipients
          rw [hsame]
          exact hinv
  | fund id op => exact fundStep_retains s v t hrun
  | arbiter id call => exact arbiterStep_retains s v t hrun
  | raiseInvoiceDispute id disputer => exact framed_raiseInvoiceDispute_retains.respects s v t hrun
  | resolveInvoiceDispute id admin outcome =>
      exact framed_resolveInvoiceDispute_retains.respects s v t hrun
  | payerDispute call => exact payerDisputeStep_retains s v t hrun

/-- A new invoice has the next number, and the recipients of the older ones stay. -/
structure Opens (id : ℕ) (s t : Store) : Prop where
  fresh : id = s.counter + 1
  known : id ≤ t.counter
  retains : ∀ k, k ≤ s.counter → ∀ P, Retains (OnRecipients P) k Numbered s t

theorem opens_of_wrote (h : Wrote id inv s t) (hid : id = s.counter + 1) : Opens id s t :=
  ⟨hid, h.known, fun _ hk _ => retains_wrote h (by omega)⟩

theorem rolloverInvoice_opens {caller : Address} {deadline : ℕ}
    (hrun : rolloverInvoice env caller id deadline s = .ok (newId, t)) : Opens newId s t := by
  have hretains := fun k (hk : k ≤ s.counter) P => rolloverInvoice_retains (Q := OnRecipients P) hk hrun
  simp only [rolloverInvoice, requireNotPaused_bind, requireAuth_bind, loadInvoice_bind,
    require_bind] at hrun
  obtain ⟨-, -, old, -, -, -, -, -, hrun⟩ := hrun
  obtain ⟨new, u₁, hcreate, hrun⟩ := bind_ok.1 hrun
  obtain ⟨_, u₂, hcopy, hrun⟩ := bind_ok.1 hrun
  obtain ⟨inv, -, hrun⟩ := loadInvoice_bind.1 hrun
  obtain ⟨_, u₃, hsaveNew, hrun⟩ := bind_ok.1 hrun
  obtain ⟨_, u₄, hsaveOld, hrun⟩ := bind_ok.1 hrun
  obtain ⟨rfl, rfl⟩ := pure_ok.1 hrun
  obtain ⟨-, -, hstored⟩ := createInvoiceInner_ok hcreate
  simp only [copyShardPayments, getEntry_bind] at hcopy
  obtain rfl := modifyEntry_ok.1 hcopy
  obtain ⟨-, rfl⟩ := saveInvoice_ok.1 hsaveNew
  obtain ⟨-, rfl⟩ := saveInvoice_ok.1 hsaveOld
  refine ⟨hstored.fresh, ?_, hretains⟩
  exact (hstored.fresh.trans hstored.counter.symm).le

end Ledger

/-! ## Lists and caches -/

variable {s t : ReadStore}

/-- A saved list belongs to an invoice, and what is cached is what was saved. -/
structure Sound (s : ReadStore) : Prop where
  known : ∀ id, s.saved id ≠ [] → id ≤ s.ledger.counter
  stored : ∀ id, s.saved id ≠ [] → StoredAs (OnRecipients fun _ => True) id s.ledger
  cached : ∀ id cached, s.recipientsCache id = some cached → cached = [] ∨ cached = s.saved id

/-- The invoices have the recipients that were saved for them. -/
def Current (s : ReadStore) : Prop :=
  ∀ id, s.saved id ≠ [] → StoredAs (OnRecipients (· = s.saved id)) id s.ledger

theorem loadRecipientsCached_ok {recipients : List Address} :
    loadRecipientsCached id s = .ok (recipients, t) ↔
      (s.recipientsCache id = some recipients ∧ t = s) ∨
        (s.recipientsCache id = none ∧ recipients = s.saved id ∧
          t = { s with recipientsCache := update s.recipientsCache id (some (s.saved id)) }) := by
  unfold loadRecipientsCached
  rw [get_bind]
  cases hcache : s.recipientsCache id with
  | none =>
      simp only [bind_ok, set_ok, pure_ok, reduceCtorEq, false_and, true_and, false_or]
      constructor
      · rintro ⟨_, _, rfl, rfl, rfl⟩
        exact ⟨rfl, rfl⟩
      · rintro ⟨rfl, rfl⟩
        exact ⟨(), _, rfl, rfl, rfl⟩
  | some cached =>
      simp only [pure_ok, Option.some.injEq, reduceCtorEq, false_and, or_false]
      exact and_congr_right fun _ => eq_comm

theorem getInvoiceRecipients_reads (hload : (s.ledger.entries id).load = some inv) :
    ∃ cached, (s.recipientsCache id = some cached ∨ s.recipientsCache id = none ∧ cached = s.saved id) ∧
      ∃ t, getInvoiceRecipients id s =
        .ok (if cached.length = inv.recipients.length then cached else inv.recipients, t) := by
  obtain ⟨cached, t, hcached⟩ : ∃ cached t, loadRecipientsCached id s = .ok (cached, t) := by
    cases hcache : s.recipientsCache id with
    | none => exact ⟨_, _, loadRecipientsCached_ok.2 (.inr ⟨hcache, rfl, rfl⟩)⟩
    | some cached => exact ⟨_, _, loadRecipientsCached_ok.2 (.inl ⟨hcache, rfl⟩)⟩
  refine ⟨cached, ?_, t, ?_⟩
  · rcases loadRecipientsCached_ok.1 hcached with ⟨hcache, -⟩ | ⟨hcache, heq, -⟩
    · exact .inl hcache
    · exact .inr ⟨hcache, heq⟩
  · refine focus_bind.2 ⟨inv, s.ledger, loadInvoice_ok.2 ⟨hload, rfl⟩, ?_⟩
    exact bind_ok.2 ⟨cached, t, hcached, rfl⟩

theorem getRecipientsList_reads (hload : (s.ledger.entries id).load = some inv) :
    getRecipientsList id s = .ok (if s.saved id ≠ [] then s.saved id else inv.recipients, s) := by
  unfold getRecipientsList
  refine get_bind.2 ?_
  split
  · rfl
  · exact focus_bind.2 ⟨inv, s.ledger, loadInvoice_ok.2 ⟨hload, rfl⟩, rfl⟩

/-- With sound lists the reads agree exactly if the lists are current. -/
theorem Sound.readsAgree_iff (h : Sound s) : ReadsAgree s ↔ Current s := by
  constructor
  · intro hagree id hsaved
    obtain ⟨stored, hstored, -⟩ := h.stored id hsaved
    have hload : (s.ledger.entries id).load =
        some (stored.withPayments (s.ledger.entries id).payments) := by
      simp [Entry.load, hstored]
    obtain ⟨-, t, hread⟩ := hagree id _ hload
    rw [getRecipientsList_reads hload, if_pos hsaved] at hread
    have hsame : s.saved id = stored.recipients := congrArg Prod.fst (Except.ok.inj hread)
    exact ⟨stored, hstored, hsame.symm⟩
  · intro hcurrent id inv hload
    have hrecord : s.saved id ≠ [] → s.saved id = inv.recipients :=
      fun hsaved => ((hcurrent id hsaved).load lasting_of_terms hload).symm
    refine ⟨?_, s, ?_⟩
    · obtain ⟨cached, hcached, t, hread⟩ := getInvoiceRecipients_reads hload
      refine ⟨t, hread.trans ?_⟩
      have hcase : cached = [] ∨ cached = s.saved id := by
        rcases hcached with hcache | ⟨-, heq⟩
        · exact h.cached id cached hcache
        · exact .inr heq
      -- an entry of the right length is empty as the record is, or it is the saved list
      congr 2
      split
      · next hlen =>
          by_cases hnil : cached = []
          · rw [hnil] at hlen ⊢
            exact (List.length_eq_zero_iff.1 hlen.symm).symm
          · obtain rfl := hcase.resolve_left hnil
            exact hrecord hnil
      · rfl
    · rw [getRecipientsList_reads hload]
      split
      · next hsaved => rw [hrecord hsaved]
      · rfl

/-! ## One call -/

/-- Only a miss of the cache writes, and it writes what is saved. -/
theorem getInvoiceRecipients_ok {recipients : List Address}
    (hrun : getInvoiceRecipients id s = .ok (recipients, t)) :
    t.ledger = s.ledger ∧ t.recipientsList = s.recipientsList ∧
      (t.recipientsCache = s.recipientsCache ∨
        t.recipientsCache = update s.recipientsCache id (some (s.saved id))) := by
  obtain ⟨inv, u, hload, hrun⟩ := focus_bind.1 hrun
  obtain ⟨-, rfl⟩ := loadInvoice_ok.1 hload
  obtain ⟨cached, u, hcached, hrun⟩ := bind_ok.1 hrun
  obtain ⟨-, rfl⟩ := pure_ok.1 hrun
  rcases loadRecipientsCached_ok.1 hcached with ⟨-, rfl⟩ | ⟨-, -, rfl⟩
  · exact ⟨rfl, rfl, .inl rfl⟩
  · exact ⟨rfl, rfl, .inr rfl⟩

theorem getRecipientsList_ok {recipients : List Address}
    (hrun : getRecipientsList id s = .ok (recipients, t)) : t = s := by
  have hlist := get_bind.1 hrun
  split at hlist
  · exact (pure_ok.1 hlist).2.symm
  · obtain ⟨inv, u, hload, hread⟩ := focus_bind.1 hlist
    obtain ⟨-, rfl⟩ := loadInvoice_ok.1 hload
    exact (pure_ok.1 hread).2.symm

/-- What a call does to the lists. -/
inductive Step (c : Env × ReadCall) (s t : ReadStore) : Prop where
  /-- It creates an invoice and saves the list of its recipients. -/
  | opens (id : ℕ) (inv : Invoice) (hopens : Opens id s.ledger t.ledger)
      (hstored : (t.ledger.entries id).load = some inv)
      (hlist : t.recipientsList = update s.recipientsList id (some inv.recipients))
      (hcache : t.recipientsCache = s.recipientsCache) (hkeeps : KeepsLists s c)
  /-- It changes the recipients of an invoice. -/
  | rewrites (id : ℕ) (inv inv' : Invoice) (hload : (s.ledger.entries id).load = some inv)
      (hne : inv'.recipients ≠ inv.recipients)
      (hsave : saveInvoice c.1 id inv' s.ledger = .ok ((), t.ledger))
      (hlist : t.recipientsList = s.recipientsList) (hcache : t.recipientsCache = s.recipientsCache)
      (hkeeps : KeepsLists s c ↔ s.saved id = [])
  /-- It keeps all recipients, and it may fill the cache. -/
  | keeps (hretains : ∀ k, k ≤ s.ledger.counter → ∀ P,
        Retains (OnRecipients P) k Numbered s.ledger t.ledger)
      (hlist : t.recipientsList = s.recipientsList)
      (hcache : t.recipientsCache = s.recipientsCache ∨
        ∃ id, t.recipientsCache = update s.recipientsCache id (some (s.saved id)))
      (hkeeps : KeepsLists s c)

theorem creating_step {x : SplitM ℕ} {c : Env × ReadCall} (hkeeps : KeepsLists s c)
    (hx : ∀ id u, x s.ledger = .ok (id, u) → Opens id s.ledger u)
    (hrun : creating x s = .ok (v, t)) : Step c s t := by
  obtain ⟨id, u, hcreate, hrun⟩ := focus_bind.1 hrun
  obtain ⟨inv, u', hload, hrun⟩ := focus_bind.1 hrun
  obtain ⟨hstored, rfl⟩ := loadInvoice_ok.1 hload
  obtain rfl := modify_ok.1 hrun
  exact .opens id inv (hx id u hcreate) hstored rfl rfl hkeeps

theorem onLedger_step {env : Env} {call : InvoiceCall}
    (hrun : onLedger (invoiceStep (env, call)) s = .ok (v, t)) : Step (env, .call call) s t := by
  obtain ⟨u, hstep, rfl⟩ := focus_ok.1 hrun
  cases hcase : InvoiceCall.rewritten call with
  | none =>
      refine .keeps (fun k hk P => invoiceStep_retains hcase hk hstep) rfl (.inl rfl) ?_
      intro id hid
      rw [hcase] at hid
      cases hid
  | some id =>
      obtain ⟨inv, inv', hload, hne, hsave⟩ := invoiceStep_rewrites hcase hstep
      refine .rewrites id inv inv' hload hne hsave rfl rfl ?_
      simp [KeepsLists, hcase]

theorem readStep_cases {c : Env × ReadCall} (hrun : readStep c s = .ok (v, t)) : Step c s t := by
  obtain ⟨env, call⟩ := c
  cases call with
  | call call =>
      cases call with
      | create creation =>
          refine creating_step (by simp [KeepsLists, InvoiceCall.rewritten]) (fun id u hcreate => ?_) hrun
          obtain ⟨hid, inv, hwrote, -, -⟩ := creation.run_ok hcreate
          exact opens_of_wrote hwrote hid
      | edit op =>
          cases op with
          | create draft extras =>
              refine creating_step (by simp [KeepsLists, InvoiceCall.rewritten]) (fun id u hcreate => ?_) hrun
              obtain ⟨hid, -, tokens, payments, -, -, hwrote⟩ := createInvoice_ok hcreate
              exact opens_of_wrote hwrote hid
          | rollover caller id deadline =>
              refine creating_step (by simp [KeepsLists, InvoiceCall.rewritten]) ?_ hrun
              exact fun newId u hrollover => rolloverInvoice_opens hrollover
          | clone | clonePartial | renew | addRecipient | rebalance | adjustSplit | rotate =>
              exact onLedger_step hrun
      | fund | arbiter | raiseInvoiceDispute | resolveInvoiceDispute | payerDispute =>
          exact onLedger_step hrun
  | getInvoiceRecipients id =>
      obtain ⟨recipients, hread⟩ := ignore_ok.1 hrun
      obtain ⟨hledger, hlist, hcache⟩ := getInvoiceRecipients_ok hread
      refine .keeps ?_ hlist (hcache.imp_right fun h => ⟨id, h⟩) trivial
      intro k hk P
      rw [hledger]
      exact refl_of (Retains (OnRecipients P) k Numbered) s.ledger
  | getRecipientsList id =>
      obtain ⟨recipients, hread⟩ := ignore_ok.1 hrun
      obtain rfl := getRecipientsList_ok hread
      exact .keeps (fun k _ P => refl_of (Retains (OnRecipients P) k Numbered) _) rfl (.inl rfl) trivial

/-- Calls that save no list keep the lists sound. -/
theorem Sound.keeps (h : Sound s)
    (hretains : ∀ k, k ≤ s.ledger.counter →
      Retains (OnRecipients fun _ => True) k Numbered s.ledger t.ledger)
    (hlist : t.recipientsList = s.recipientsList)
    (hcache : t.recipientsCache = s.recipientsCache ∨
      ∃ id, t.recipientsCache = update s.recipientsCache id (some (s.saved id))) : Sound t := by
  have hsaved : t.saved = s.saved := by
    unfold ReadStore.saved
    rw [hlist]
  refine ⟨fun k hk => ?_, fun k hk => ?_, fun k cached hk => ?_⟩
  · rw [hsaved] at hk
    exact (h.known k hk).trans (hretains k (h.known k hk) (h.stored k hk)).2
  · rw [hsaved] at hk
    exact (hretains k (h.known k hk) (h.stored k hk)).1
  · rw [hsaved]
    rcases hcache with hcache | ⟨id, hcache⟩
    · rw [hcache] at hk
      exact h.cached k cached hk
    · rw [hcache] at hk
      rcases update_cases hk with ⟨rfl, rfl⟩ | ⟨-, hold⟩
      · exact .inr rfl
      · exact h.cached k cached hold

theorem Sound.step {c : Env × ReadCall} (h : Sound s) (hstep : Step c s t) : Sound t := by
  rcases hstep with ⟨id, inv, hopens, hstored, hlist, hcache, -⟩ |
    ⟨id, inv, inv', hload, hne, hsave, hlist, hcache, -⟩ | ⟨hretains, hlist, hcache, -⟩
  · have hself : t.saved id = inv.recipients := by
      unfold ReadStore.saved
      rw [hlist, update_self]
      rfl
    have hother : ∀ k, k ≠ id → t.saved k = s.saved k := by
      intro k hk
      unfold ReadStore.saved
      rw [hlist, update_of_ne hk]
    have holder : ∀ k, s.saved k ≠ [] → k ≠ id := by
      intro k hk
      have hknown := h.known k hk
      have hfresh := hopens.fresh
      omega
    refine ⟨fun k hk => ?_, fun k hk => ?_, fun k cached hk => ?_⟩
    · rcases eq_or_ne k id with rfl | hne
      · exact hopens.known
      · rw [hother k hne] at hk
        have hknown := h.known k hk
        exact hknown.trans (hopens.retains k hknown _ (h.stored k hk)).2
    · rcases eq_or_ne k id with rfl | hne
      · obtain ⟨stored, hinvoice, -⟩ := Option.map_eq_some_iff.1 hstored
        exact ⟨stored, hinvoice, trivial⟩
      · rw [hother k hne] at hk
        exact (hopens.retains k (h.known k hk) _ (h.stored k hk)).1
    · rw [hcache] at hk
      by_cases hnil : cached = []
      · exact .inl hnil
      · obtain rfl := (h.cached k cached hk).resolve_left hnil
        exact .inr (hother k (holder k hnil)).symm
  · exact h.keeps (fun k _ => retains_save (fun _ => trivial) hsave) hlist (.inl hcache)
  · exact h.keeps (fun k hk => hretains k hk _) hlist hcache

/-- A returning call keeps the lists current exactly if it leaves the recipients of the listed
invoices alone. -/
theorem Current.step_iff {c : Env × ReadCall} (hsound : Sound s) (h : Current s) (hstep : Step c s t) :
    Current t ↔ KeepsLists s c := by
  rcases hstep with ⟨id, inv, hopens, hstored, hlist, -, hkeeps⟩ |
    ⟨id, inv, inv', hload, hne, hsave, hlist, -, hkeeps⟩ | ⟨hretains, hlist, -, hkeeps⟩
  · refine iff_of_true (fun k hk => ?_) hkeeps
    rcases eq_or_ne k id with rfl | hne
    · have hself : t.saved k = inv.recipients := by
        unfold ReadStore.saved
        rw [hlist, update_self]
        rfl
      obtain ⟨stored, hinvoice, rfl⟩ := Option.map_eq_some_iff.1 hstored
      exact ⟨stored, hinvoice, hself.symm⟩
    · have hother : t.saved k = s.saved k := by
        unfold ReadStore.saved
        rw [hlist, update_of_ne hne]
      rw [hother] at hk ⊢
      exact (hopens.retains k (hsound.known k hk) _ (h k hk)).1
  · have hsaved : t.saved = s.saved := by
      unfold ReadStore.saved
      rw [hlist]
    rw [hkeeps]
    constructor
    · intro hcurrent
      by_contra hlisted
      have hbefore : inv.recipients = s.saved id := (h id hlisted).load lasting_of_terms hload
      rw [← hsaved] at hlisted
      obtain ⟨stored, hstored, hafter⟩ := hcurrent id hlisted
      rw [saveInvoice_stored hsave] at hstored
      cases hstored
      rw [hsaved, ← hbefore] at hafter
      exact hne hafter
    · intro hnil k hk
      rw [hsaved] at hk ⊢
      have hother : k ≠ id := by
        rintro rfl
        exact hk hnil
      exact (retains_save (fun heq => absurd heq hother) hsave (h k hk)).1
  · refine iff_of_true (fun k hk => ?_) hkeeps
    have hsaved : t.saved = s.saved := by
      unfold ReadStore.saved
      rw [hlist]
    rw [hsaved] at hk ⊢
    exact (hretains k (hsound.known k hk) _ (h k hk)).1

/-! ## Runs -/

theorem sound_runAll (ledger : Store) (calls : List (Env × ReadCall)) :
    Sound (runAll readStep { ledger := ledger } calls) := by
  refine runAll_invariant (fun s c v t h hrun => h.step (readStep_cases hrun)) ?_ calls
  exact ⟨fun _ h => absurd rfl h, fun _ h => absurd rfl h, fun _ _ h => by cases h⟩

/-- From a storage without saved lists, the three reads agree for every invoice all along the run
exactly if no returning call changes the recipients of an invoice that has a saved list. -/
theorem reads_agree_iff (ledger : Store) (calls : List (Env × ReadCall)) :
    (∀ before, before <+: calls → ReadsAgree (runAll readStep { ledger := ledger } before)) ↔
      Along KeepsLists readStep { ledger := ledger } calls := by
  have hagree : ∀ before, ReadsAgree (runAll readStep { ledger := ledger } before) ↔
      Current (runAll readStep { ledger := ledger } before) :=
    fun before => (sound_runAll ledger before).readsAgree_iff
  constructor
  · intro h
    rw [along_iff]
    rintro before c hprefix ⟨⟨v, t⟩, hrun⟩
    have hcurrent := (hagree before).1 (h before ((List.prefix_append _ _).trans hprefix))
    refine (hcurrent.step_iff (sound_runAll ledger before) (readStep_cases hrun)).1 ?_
    have hafter := (hagree (before ++ [c])).1 (h _ hprefix)
    rw [runAll_snoc, commit_ok hrun] at hafter
    exact hafter
  · rintro h before ⟨rest, rfl⟩
    rw [hagree]
    refine (runAll_induction (I := fun s => Sound s ∧ Current s) (fun s c v t hs hkeeps hrun => ?_) ?_
      (along_append.1 h).1).2
    · have hstep := readStep_cases hrun
      exact ⟨hs.1.step hstep, (hs.2.step_iff hs.1 hstep).2 hkeeps⟩
    · exact ⟨sound_runAll ledger [], fun _ hnil => absurd rfl hnil⟩

/-- An invoice of 10 and 11 is created, and 10 moves its payouts to 12. -/
def rotatedCalls : List (Env × ReadCall) :=
  [(sampleEnv 10 0, .call (.create { draft := sampleInvoice })),
    (sampleEnv 11 0, .call (.edit (.rotate 1 10 12)))]

/-- After a rotation the saved list still has the old address. -/
theorem reads_part_after_rotation :
    ¬∀ (ledger : Store) (calls : List (Env × ReadCall)),
      ReadsAgree (runAll readStep { ledger := ledger } calls) := by
  intro h
  have hrecord : (((runAll readStep { ledger := {} } rotatedCalls).ledger.entries 1).load.map
      Invoice.recipients) = some [12, 11] := by decide +kernel
  obtain ⟨inv, hload, hrecipients⟩ := Option.map_eq_some_iff.1 hrecord
  obtain ⟨-, t, hread⟩ := h {} rotatedCalls 1 inv hload
  have hlist : (getRecipientsList 1 (runAll readStep { ledger := {} } rotatedCalls)).toOption.map Prod.fst =
      some [10, 11] := by decide +kernel
  rw [hread, hrecipients] at hlist
  have hsame : ([12, 11] : List Address) = [10, 11] := Option.some.inj hlist
  exact absurd hsame (by decide)

end StellarSplit.Split.RecipientReads
