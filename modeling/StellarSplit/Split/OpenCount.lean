import StellarSplit.Lib.Occupancy
import StellarSplit.Lib.Runs
import StellarSplit.Split.Currency

/-!
# Open invoices

The contract counts the open invoices of every creator and lets nobody have more than
the cap. A creation counts its invoice, and a full release, the last retry of a failed
payout and a cancellation take it off again. The other ways in which invoices begin, end
or change hands leave the counter alone. The count stays exact along the runs that keep
to calls which count what they do.
-/

namespace StellarSplit.Split

/-! ## Invoices -/

def Invoice.withCreator (inv : Invoice) (creator : Address) : Invoice := { inv with creator := creator }

/-- The terminal states of an invoice. -/
def InvoiceStatus.isTerminal : InvoiceStatus → Bool
  | .released | .refunded | .cancelled | .finalised | .deleted => true
  | .pending | .expired | .disputed | .partiallyReleased | .payoutInProgress => false

/-- The creator of an invoice that is not in a terminal state. -/
def Invoice.opener (inv : Invoice) : Option Address :=
  if inv.status.isTerminal then none else some inv.creator

/-- The terms of an invoice and whether it is in a terminal state. -/
def Invoice.key (inv : Invoice) : Invoice × Bool := (inv.terms, inv.status.isTerminal)

theorem Invoice.completed_key (inv : Invoice) (status : InvoiceStatus) (now : ℕ) :
    (inv.insurancePaid.completed status now).key = (inv.terms, status.isTerminal) := by
  cases inv
  rfl

/-- What decides for whom an entry counts, where it forwards to and what a payment or a forward does
to it. -/
def Entry.key (e : Entry) :
    Option (Invoice × Bool) × Option ℕ × Option (List Address) × Bool × (Address → Bool) :=
  (e.invoice.map Invoice.key, e.group, e.cosigners, e.authRequired, e.recipientVerified)

/-- The invoice that what a release leaves is forwarded to. -/
def Entry.forwards (e : Entry) : Option ℕ :=
  e.invoice.bind fun inv => if inv.forwardTo = none then inv.forwardInvoiceId else none

/-- Nothing but funding decides about the stored invoice. -/
def Entry.unguarded (e : Entry) : Bool := e.invoice.any fun inv => !isGuarded e inv

end StellarSplit.Split

namespace StellarSplit.Split.OpenCount

open Exec Function Machine Occupancy

/-! ## The contract -/

/-- The record of a deleted invoice. -/
structure Tombstone where
  invoiceId : ℕ
  deletedAtLedger : ℕ
  deletedBy : Address
deriving DecidableEq, Repr

/-- The storage with the nominated creators and the deleted invoices. -/
structure CountStore where
  ledger : Store := {}
  pendingCreator : ℕ → Option Address := fun _ => none
  tombstones : ℕ → Option Tombstone := fun _ => none

abbrev CountM (α : Type) := Call CountStore SplitFault α

def onLedger {α : Type} (x : SplitM α) : CountM α :=
  focus CountStore.ledger (fun s t => { s with ledger := t }) x

def transferInvoice (env : Env) (id : ℕ) (newCreator : Address) : SplitM Unit := do
  requireNotPaused env
  let inv ← loadInvoice id
  require (inv.status = .pending) (.panic "invoice is not pending")
  require (inv.disputed = false) (.panic "invoice is disputed")
  requireAuth env.toLedger inv.creator
  saveInvoice env id (inv.withCreator newCreator)

def nominateNewCreator (env : Env) (caller : Address) (id : ℕ) (successor : Address) : CountM Unit := do
  requireAuth env.toLedger caller
  let inv ← onLedger (loadInvoice id)
  require (inv.status ≠ .deleted) (.panic "InvoiceDeleted")
  require (inv.creator = caller) (.panic "OnlyCreator")
  modify fun s => { s with pendingCreator := update s.pendingCreator id (some successor) }

def acceptCreatorRole (env : Env) (successor : Address) (id : ℕ) : CountM Unit := do
  requireAuth env.toLedger successor
  let s ← get
  let pending ← orPanic (s.pendingCreator id) "no pending creator nomination"
  require (pending = successor) (.panic "NotNominated")
  let inv ← onLedger (loadInvoice id)
  require (inv.status ≠ .deleted) (.panic "InvoiceDeleted")
  onLedger (saveInvoice env id (inv.withCreator successor))
  modify fun s => { s with pendingCreator := update s.pendingCreator id none }

def deleteInvoice (env : Env) (caller : Address) (id : ℕ) : CountM Unit := do
  requireAuth env.toLedger caller
  let inv ← onLedger (loadInvoice id)
  require (inv.status ≠ .deleted) (.panic "InvoiceDeleted")
  require (inv.creator = caller) (.panic "OnlyCreator")
  require (inv.status = .pending) (.panic "InvalidStatus")
  require (inv.funded = 0) (.panic "FundsUnclaimed")
  modify fun s => { s with tombstones := update s.tombstones id (some ⟨id, env.sequence, caller⟩) }
  onLedger (saveInvoice env id (inv.withStatus .deleted))

/-! ## The number of open invoices -/

/-- The creator who has the invoice open. -/
def openerOf (s : Store) (id : ℕ) : Option Address := (s.entries id).invoice.bind Invoice.opener

/-- How many invoices of the creator are not in a terminal state. -/
def openNumber (s : Store) (creator : Address) : ℕ :=
  seats (Finset.range (s.counter + 1)) (openerOf s) creator

/-- The counter of every creator is the number of the creator's open invoices. -/
def CountExact (s : Store) : Prop := ∀ creator, s.stats.openInvoices creator = openNumber s creator

def isOpen (s : Store) (id : ℕ) : Bool := (openerOf s id).isSome

/-! ### Relations -/

/-- Neither the counter nor the creators who have the invoices open change. -/
structure SameCount (s t : Store) : Prop where
  counter : t.counter = s.counter
  counted : t.stats.openInvoices = s.stats.openInvoices
  openers : ∀ k, (t.entries k).invoice.map Invoice.opener = (s.entries k).invoice.map Invoice.opener

/-- A call that leaves the counter and the keys of all entries alone. -/
structure Level (s t : Store) : Prop where
  counter : t.counter = s.counter
  counted : t.stats.openInvoices = s.stats.openInvoices
  key : ∀ k, (t.entries k).key = (s.entries k).key

section Relations

variable {env : Env} {s t u : Store} {v : Unit} {id : ℕ} {inv stored : Invoice}

theorem Level.refl (s : Store) : Level s s := ⟨rfl, rfl, fun _ => rfl⟩

theorem Level.trans (h₁ : Level s t) (h₂ : Level t u) : Level s u :=
  ⟨h₂.counter.trans h₁.counter, h₂.counted.trans h₁.counted, fun k => (h₂.key k).trans (h₁.key k)⟩

instance level_refl : Std.Refl Level := ⟨.refl⟩

instance level_trans : IsTrans Store Level := ⟨fun _ _ _ => .trans⟩

theorem level_setEntry {e : Entry} (h : e.key = (s.entries id).key) : Level s (s.setEntry id e) := by
  refine ⟨rfl, rfl, fun k => ?_⟩
  rcases eq_or_ne k id with rfl | hk
  · rw [Store.setEntry_self, h]
  · rw [Store.setEntry_ne s hk]

instance moves_level {memo : Memo} : Moves Level memo := ⟨fun _ _ _ => ⟨rfl, rfl, fun _ => rfl⟩⟩

instance locks_level : Locks Level := ⟨fun _ _ => ⟨rfl, rfl, fun _ => rfl⟩⟩

instance notes_level : Notes Level id := by
  refine ⟨fun s e hcore => level_setEntry ?_⟩
  have hkey : e.core.key = (s.entries id).core.key := by rw [hcore]
  exact hkey

instance credits_level : Credits Level id := ⟨fun _ _ => level_setEntry rfl⟩

/-- Saving an invoice with the same terms that is as open as the stored one. -/
theorem saveInvoice_level (hkey : (s.entries id).invoice.map Invoice.key = some inv.key)
    (hrun : saveInvoice env id inv s = .ok (v, t)) : Level s t := by
  obtain ⟨-, rfl⟩ := saveInvoice_ok.1 hrun
  refine level_setEntry ?_
  unfold Entry.key
  rw [hkey]
  rfl

theorem Level.sameCount (h : Level s t) : SameCount s t := by
  refine ⟨h.counter, h.counted, fun k => ?_⟩
  have hkey : (t.entries k).invoice.map Invoice.key = (s.entries k).invoice.map Invoice.key :=
    congrArg Prod.fst (h.key k)
  have hopener : ∀ e : Entry, e.invoice.map Invoice.opener =
      (e.invoice.map Invoice.key).map fun key => if key.2 then none else some key.1.creator := by
    intro e
    rw [Option.map_map]
    rfl
  rw [hopener, hkey, hopener]

/-- The count is exact, and ids that were not handed out have no invoice. -/
structure Exact (s : Store) : Prop where
  count : CountExact s
  numbered : ∀ k, s.counter < k → (s.entries k).invoice = none

theorem openerOf_eq (s : Store) (k : ℕ) : openerOf s k = ((s.entries k).invoice.map Invoice.opener).join := by
  unfold openerOf
  cases (s.entries k).invoice <;> rfl

theorem SameCount.openerOf (h : SameCount s t) (k : ℕ) : openerOf t k = openerOf s k := by
  rw [openerOf_eq, h.openers, ← openerOf_eq]

theorem SameCount.exact (h : SameCount s t) (hs : Exact s) : Exact t := by
  refine ⟨fun creator => ?_, fun k hk => ?_⟩
  · unfold openNumber
    rw [h.counted, hs.count creator, h.counter]
    exact (seats_congr (fun k _ => h.openerOf k) creator).symm
  · rw [h.counter] at hk
    have hnone := h.openers k
    rw [hs.numbered k hk] at hnone
    exact Option.map_eq_none_iff.1 hnone

theorem openerOf_congr (h : (t.entries id).key = (s.entries id).key) : openerOf t id = openerOf s id := by
  have hkey : (t.entries id).invoice.map Invoice.key = (s.entries id).invoice.map Invoice.key :=
    congrArg Prod.fst h
  have hopener : ∀ e : Entry, e.invoice.bind Invoice.opener =
      (e.invoice.map Invoice.key).bind fun key => if key.2 then none else some key.1.creator := by
    intro e
    cases e.invoice <;> rfl
  unfold openerOf
  rw [hopener, hkey, ← hopener]

theorem invoice_none_congr (h : (t.entries id).key = (s.entries id).key)
    (hnone : (s.entries id).invoice = none) : (t.entries id).invoice = none := by
  have hkey : (t.entries id).invoice.map Invoice.key = (s.entries id).invoice.map Invoice.key :=
    congrArg Prod.fst h
  rw [hnone] at hkey
  exact Option.map_eq_none_iff.1 hkey

/-- An open invoice of the creator comes to an end, and the counter of the creator goes down. -/
structure Ends (creator : Address) (id : ℕ) (s t : Store) : Prop where
  counter : t.counter = s.counter
  counted : t.stats.openInvoices =
    update s.stats.openInvoices creator (s.stats.openInvoices creator - 1)
  others : ∀ k, k ≠ id → (t.entries k).key = (s.entries k).key
  wasOpen : openerOf s id = some creator
  ended : openerOf t id = none

theorem Exact.known {creator : Address} (h : Exact s) (hopen : openerOf s id = some creator) :
    id ≤ s.counter := by
  by_contra hlt
  have hnone := h.numbered id (by omega)
  unfold openerOf at hopen
  rw [hnone] at hopen
  cases hopen

theorem Ends.exact {creator : Address} (h : Ends creator id s t) (hs : Exact s) : Exact t := by
  have hid : id ≤ s.counter := hs.known h.wasOpen
  refine ⟨fun a => ?_, fun k hk => ?_⟩
  · have hnumber : openNumber s a = openNumber t a + if a = creator then 1 else 0 := by
      unfold openNumber
      rw [h.counter]
      exact seats_vacated (Finset.mem_range.2 (by omega)) h.wasOpen h.ended
        (fun k hk => openerOf_congr (h.others k hk)) a
    have hcount := hs.count a
    rw [h.counted]
    rcases eq_or_ne a creator with rfl | hne
    · rw [if_pos rfl] at hnumber
      rw [update_self]
      omega
    · rw [if_neg hne] at hnumber
      rw [update_of_ne hne]
      omega
  · rw [h.counter] at hk
    exact invoice_none_congr (h.others k (by omega)) (hs.numbered k hk)

/-- A call that keeps the count exact and leaves the keys outside the list alone. -/
structure Settles (K : List ℕ) (s t : Store) : Prop where
  outside : ∀ k, k ∉ K → (t.entries k).key = (s.entries k).key
  exact : Exact s → Exact t

theorem Level.settles (h : Level s t) (K : List ℕ) : Settles K s t :=
  ⟨fun k _ => h.key k, h.sameCount.exact⟩

theorem Ends.settles {creator : Address} (h : Ends creator id s t) : Settles [id] s t :=
  ⟨fun k hk => h.others k (by simpa using hk), h.exact⟩

theorem Settles.trans {K L : List ℕ} (h₁ : Settles K s u) (h₂ : Settles L u t) : Settles (K ++ L) s t := by
  refine ⟨fun k hk => ?_, fun hs => h₂.exact (h₁.exact hs)⟩
  rw [List.mem_append, not_or] at hk
  exact (h₂.outside k hk.2).trans (h₁.outside k hk.1)

theorem Settles.after {K : List ℕ} (h : Settles K u t) (hlevel : Level s u) : Settles K s t :=
  (hlevel.settles []).trans h

theorem Settles.before {K : List ℕ} (h : Settles K s u) (hlevel : Level u t) : Settles K s t :=
  ⟨fun k hk => (hlevel.key k).trans (h.outside k hk), fun hs => hlevel.sameCount.exact (h.exact hs)⟩

/-- A new invoice of the creator is stored under the next id, and counted. -/
structure Begins (creator : Address) (s t : Store) : Prop where
  counter : t.counter = s.counter + 1
  counted : t.stats.openInvoices =
    update s.stats.openInvoices creator (s.stats.openInvoices creator + 1)
  others : ∀ k, k ≠ s.counter + 1 → t.entries k = s.entries k
  opened : openerOf t (s.counter + 1) = some creator

theorem openerOf_entry (h : t.entries id = s.entries id) : openerOf t id = openerOf s id := by
  unfold OpenCount.openerOf
  rw [h]

theorem Begins.exact {creator : Address} (h : Begins creator s t) (hs : Exact s) : Exact t := by
  refine ⟨fun a => ?_, fun k hk => ?_⟩
  · have hold : seats (Finset.range (s.counter + 1)) (openerOf t) a = openNumber s a := by
      refine seats_congr (fun k hk => openerOf_entry (h.others k ?_)) a
      have := Finset.mem_range.1 hk
      omega
    have hnumber : openNumber t a = openNumber s a + if a = creator then 1 else 0 := by
      unfold openNumber
      rw [h.counter, seats_range_succ, hold, h.opened]
      simp only [Option.some.injEq, eq_comm]
      rfl
    rw [h.counted, hnumber]
    rcases eq_or_ne a creator with rfl | hne
    · rw [update_self, if_pos rfl, hs.count]
    · rw [update_of_ne hne, if_neg hne, Nat.add_zero, hs.count]
  · rw [h.counter] at hk
    rw [h.others k (by omega)]
    exact hs.numbered k (by omega)

/-- An open invoice ends and a new one of its creator begins: the counter may stay. -/
structure Replaces (creator : Address) (id : ℕ) (s t : Store) : Prop where
  counter : t.counter = s.counter + 1
  counted : t.stats.openInvoices = s.stats.openInvoices
  others : ∀ k, k ≠ id → k ≠ s.counter + 1 → t.entries k = s.entries k
  wasOpen : openerOf s id = some creator
  ended : openerOf t id = none
  opened : openerOf t (s.counter + 1) = some creator

theorem Replaces.exact {creator : Address} (h : Replaces creator id s t) (hs : Exact s) : Exact t := by
  have hid : id ≤ s.counter := hs.known h.wasOpen
  refine ⟨fun a => ?_, fun k hk => ?_⟩
  · have hold : openNumber s a = seats (Finset.range (s.counter + 1)) (openerOf t) a +
        if a = creator then 1 else 0 := by
      have hvacated := seats_vacated (i := id) (s := Finset.range (s.counter + 1)) (f := openerOf s)
        (g := fun k => if k = id then none else openerOf s k) (Finset.mem_range.2 (by omega)) h.wasOpen
        (if_pos rfl) (fun k hk => if_neg hk) a
      unfold openNumber
      rw [hvacated]
      congr 1
      refine seats_congr (fun k hk => ?_) a
      have hlt := Finset.mem_range.1 hk
      split_ifs with heq
      · rw [heq, h.ended]
      · exact (openerOf_entry (h.others k heq (by omega))).symm
    have hnew : openNumber t a = seats (Finset.range (s.counter + 1)) (openerOf t) a +
        if a = creator then 1 else 0 := by
      unfold openNumber
      rw [h.counter, seats_range_succ, h.opened]
      simp only [Option.some.injEq, eq_comm]
    rw [h.counted, hs.count, hold, hnew]
  · rw [h.counter] at hk
    rw [h.others k (by omega) (by omega)]
    exact hs.numbered k (by omega)

end Relations

/-! ### Counters beside the open invoices -/

/-- Writes of counters other than the open invoices. -/
class CountsBeside (R : Store → Store → Prop) : Prop where
  count : ∀ s (f : Stats → Stats), (f s.stats).openInvoices = s.stats.openInvoices →
    R s { s with stats := f s.stats }

instance countsBeside_level : CountsBeside Level := ⟨fun _ _ h => ⟨rfl, h, fun _ => rfl⟩⟩

section Counters

variable {R : Store → Store → Prop} [h : CountsBeside R] {env : Env} {a : Address} {x y : ℤ}

theorem framed_statsBeside {f : Stats → Stats} (hf : ∀ st, (f st).openInvoices = st.openInvoices) :
    Framed R (modifyStats f) := .of (.modify fun s => h.count s f (hf _))

instance framed_accrueCreatorRebate_beside : Framed R (accrueCreatorRebate env a x y) := by
  have hvolume : ∀ v, Framed R (modifyStats fun st =>
      { st with creatorVolume := update st.creatorVolume a v }) :=
    fun _ => framed_statsBeside fun _ => rfl
  have hrebate : ∀ v, Framed R (modifyStats fun st =>
      { st with rebateBalance := update st.rebateBalance a v }) :=
    fun _ => framed_statsBeside fun _ => rfl
  unfold accrueCreatorRebate
  infer_instance

instance framed_countRelease_beside : Framed R (countRelease env a x y) := by
  have hstats : ∀ v r (w n : ℕ), Framed R (modifyStats fun st => { st with
      totalVolume := v
      totalReleased := r
      statsVolume := update st.statsVolume a w
      statsReleased := update st.statsReleased a (st.statsReleased a + n) }) :=
    fun _ _ _ _ => framed_statsBeside fun _ => rfl
  unfold countRelease
  infer_instance

instance framed_countTranche_beside : Framed R (countTranche x) := by
  have hstats : ∀ v r, Framed R
      (modifyStats fun st => { st with totalVolume := v, totalReleased := r }) :=
    fun _ _ => framed_statsBeside fun _ => rfl
  unfold countTranche
  infer_instance

instance framed_countPayment_beside : Framed R (countPayment a x) := by
  have hstats : ∀ n : ℕ, Framed R (modifyStats fun st => { st with
      statsVolume := update st.statsVolume a (st.statsVolume a + n) }) :=
    fun _ => framed_statsBeside fun _ => rfl
  unfold countPayment
  infer_instance

instance framed_addTotalRefunded_beside : Framed R (addTotalRefunded x) := by
  have hstats : ∀ v, Framed R (modifyStats fun st => { st with totalRefunded := v }) :=
    fun _ => framed_statsBeside fun _ => rfl
  unfold addTotalRefunded
  infer_instance

instance framed_useCreatorVolume_beside : Framed R (useCreatorVolume env a x) := by
  have hused : ∀ used, Framed R (modifyStats fun st => { st with
      volumeUsed := update st.volumeUsed a used }) := fun _ => framed_statsBeside fun _ => rfl
  unfold useCreatorVolume
  infer_instance

instance framed_applyRateLimit_beside : Framed R (applyRateLimit env a) := by
  have husage : ∀ usage : ℕ × ℕ, Framed R (modifyStats fun st => { st with
      rateUsage := update st.rateUsage a (usage.1, satAddU32 usage.2 1) }) :=
    fun _ => framed_statsBeside fun _ => rfl
  unfold applyRateLimit
  infer_instance

instance framed_checkCreator_beside : Framed R (checkCreator env a) := by
  unfold checkCreator checkNftGate
  infer_instance

end Counters

/-! ## Releases -/

/-- The invoice that a release of this one may release next. -/
def nextRelease (s : Store) (id : ℕ) : Option ℕ :=
  (s.entries id).forwards.filter fun target => (s.entries target).unguarded

/-- The invoices that a release may go on to by forwarding, as deep as calls may nest. -/
def forwardChain (s : Store) : ℕ → ℕ → List ℕ
  | 0, id => [id]
  | depth + 1, id => id :: ((nextRelease s id).map (forwardChain s depth)).getD []

/-- A release goes on to open invoices only, and to none of them twice. -/
def clearAhead (s : Store) (depth id : ℕ) : Bool :=
  (forwardChain s depth id).Nodup ∧ ∀ k ∈ forwardChain s depth id, isOpen s k = true

/-- No other member of the group is pending. -/
def groupSettled (s : Store) (id : ℕ) : Bool :=
  ∀ m ∈ groupMembers s id, m = id ∨ (s.entries m).invoice.any (·.status = .pending) = false

/-- The invoice that a call works with has the terms of the stored one and is as open. -/
def Stands (s : Store) (id : ℕ) (inv : Invoice) : Prop :=
  (s.entries id).invoice.map Invoice.key = some inv.key

section Releases

variable {env : Env} {s t u : Store} {v : Unit} {id depth : ℕ} {inv inv' : Invoice} {actor : Address}

theorem forwards_congr {e e' : Entry} (h : e'.key = e.key) : e'.forwards = e.forwards := by
  have hforwards : ∀ e : Entry, e.forwards = e.key.1.bind fun key =>
      if key.1.forwardTo = none then key.1.forwardInvoiceId else none := by
    intro e
    unfold Entry.forwards Entry.key
    cases e.invoice <;> rfl
  rw [hforwards, h, ← hforwards]

theorem unguarded_congr {e e' : Entry} (h : e'.key = e.key) : e'.unguarded = e.unguarded := by
  have hunguarded : ∀ e : Entry, e.unguarded = e.key.1.any fun key =>
      !isGuarded { group := e.key.2.1, cosigners := e.key.2.2.1 } key.1 := by
    intro e
    unfold Entry.unguarded Entry.key
    cases e.invoice <;> rfl
  rw [hunguarded, h, ← hunguarded]

theorem Level.nextRelease (h : Level s t) (id : ℕ) : nextRelease t id = nextRelease s id := by
  unfold OpenCount.nextRelease
  rw [forwards_congr (h.key id)]
  congr 1
  exact funext fun k => unguarded_congr (h.key k)

theorem Level.forwardChain (h : Level s t) (depth id : ℕ) :
    forwardChain t depth id = forwardChain s depth id := by
  induction depth generalizing id with
  | zero => rfl
  | succ depth ih =>
      rw [OpenCount.forwardChain, OpenCount.forwardChain, h.nextRelease, funext ih]

theorem Level.isOpen (h : Level s t) (id : ℕ) : isOpen t id = isOpen s id := by
  unfold OpenCount.isOpen
  rw [openerOf_congr (h.key id)]

theorem Level.clearAhead (h : Level s t) (depth id : ℕ) : clearAhead t depth id = clearAhead s depth id := by
  unfold OpenCount.clearAhead
  rw [h.forwardChain, funext h.isOpen]

theorem Stands.level (h : Stands s id inv) (hlevel : Level s t) : Stands t id inv := by
  have hkey : (t.entries id).invoice.map Invoice.key = (s.entries id).invoice.map Invoice.key :=
    congrArg Prod.fst (hlevel.key id)
  exact hkey.trans h

theorem stands_load (hload : (s.entries id).load = some inv) : Stands s id inv := by
  obtain ⟨stored, hstored, rfl⟩ := Option.map_eq_some_iff.1 hload
  unfold Stands
  rw [hstored]
  rfl

/-- Saving an invoice that differs from the one at hand in nothing that counts. -/
theorem Stands.save (h : Stands s id inv) (hkey : inv'.key = inv.key)
    (hrun : saveInvoice env id inv' s = .ok (v, t)) : Level s t :=
  saveInvoice_level (h.trans (congrArg some hkey.symm)) hrun

theorem Stands.openerOf (h : Stands s id inv) : openerOf s id = inv.opener := by
  have hopener : ∀ o : Option Invoice, o.bind Invoice.opener =
      (o.map Invoice.key).bind fun key => if key.2 then none else some key.1.creator := by
    intro o
    cases o <;> rfl
  unfold OpenCount.openerOf
  rw [hopener, h]
  rfl

theorem releaseMembers_idle {members : List ℕ}
    (hidle : ∀ m ∈ members, ∀ inv ∈ (s.entries m).invoice, inv.status ≠ .pending)
    (hrun : forM members (releaseMember env) s = .ok (v, t)) : t = s := by
  induction members generalizing v with
  | nil => exact (pure_ok.1 hrun).2.symm
  | cons m members ih =>
      rw [List.forM_cons] at hrun
      obtain ⟨_, w, hfirst, hrest⟩ := bind_ok.1 hrun
      obtain rfl := releaseMember_idle (hidle m (List.mem_cons_self ..)) hfirst
      exact ih (fun k hk => hidle k (List.mem_cons_of_mem m hk)) hrest

/-- Members that are not pending are passed over by a group release. -/
theorem releaseGroup_settled (hgroup : groupSettled s id = true)
    (hrun : releaseGroup env id s = .ok (v, t)) : t = s := by
  refine releaseMembers_idle (fun m hm inv hinv hpending => ?_) (releaseGroup_ok hrun)
  obtain ⟨hm, hne⟩ := List.mem_filter.1 hm
  have hsettled := of_decide_eq_true hgroup m hm
  have hstored : (s.entries m).invoice = some inv := hinv
  rw [hstored] at hsettled
  simp [hpending, of_decide_eq_true hne] at hsettled

/-- An invoice that was open is stored in a terminal state, and taken off the counter. -/
theorem ends_of_entries {creator : Address} (hcounter : t.counter = s.counter)
    (hcounted : t.stats.openInvoices =
      update s.stats.openInvoices creator (s.stats.openInvoices creator - 1))
    (hentries : t.entries =
      (s.setEntry id { s.entries id with invoice := some (inv.withPayments []) }).entries)
    (hopen : openerOf s id = some creator) (hterminal : inv.status.isTerminal = true) :
    Ends creator id s t := by
  refine ⟨hcounter, hcounted, fun k hk => ?_, hopen, ?_⟩
  · rw [hentries, Store.setEntry_ne s hk]
  · unfold OpenCount.openerOf
    rw [hentries, Store.setEntry_self]
    exact if_pos hterminal

/-- The end of a full release closes the invoice with its count, or leaves both. -/
theorem finishRelease_settles {failed : Bool} {fee : ℤ} (hstands : Stands s id inv)
    (hopen : inv.status.isTerminal = false) (hrun : finishRelease env id inv failed fee s = .ok (v, t)) :
    Settles [id] s t := by
  rw [finishRelease, getEntry_bind] at hrun
  obtain ⟨_, u₁, hclose, hrun⟩ := bind_ok.1 hrun
  obtain ⟨_, u₂, hsave, hrun⟩ := bind_ok.1 hrun
  have hrest : Framed Level (do
      notifyInvoice env inv
      maybeRecordReleased env
      countRelease env inv.creator inv.funded fee) := inferInstance
  have hlevel : Level u₂ t := hrest.respects u₂ v t hrun
  rcases onlyIf_ok.1 hclose with ⟨hnone, hclose⟩ | ⟨hfailed, rfl⟩
  · obtain rfl := modify_ok.1 hclose
    have hreleased : releaseStatus (s.entries id) inv failed = .released := if_pos hnone
    rw [hreleased] at hsave
    obtain ⟨-, hsaved⟩ := saveInvoice_ok.1 hsave
    have hopener : openerOf s id = some inv.creator := by
      rw [hstands.openerOf, Invoice.opener, if_neg (by simp [hopen])]
    have hends : Ends inv.creator id s u₂ := by
      rw [← hsaved]
      exact ends_of_entries rfl rfl rfl hopener rfl
    exact hends.settles.before hlevel
  · refine Level.settles (Level.trans (hstands.save ?_ hsave) hlevel) [id]
    have hstatus : (releaseStatus (s.entries id) inv failed).isTerminal = inv.status.isTerminal := by
      unfold releaseStatus
      rw [if_neg hfailed]
      split_ifs
      · rw [hopen]
        rfl
      · rfl
    exact (Invoice.completed_key inv _ env.now).trans (congrArg (Prod.mk inv.terms) hstatus)

/-- A release of an open invoice without tranches, whose group has nobody left to release, settles it
and the invoices it goes on to. -/
def NextSettles (env : Env) (depth : ℕ) : Prop :=
  ∀ {id : ℕ} {inv : Invoice} {actor : Address} {s t : Store} {v : Unit}, Stands s id inv →
    inv.tranches = [] → groupSettled s id = true → clearAhead s depth id = true →
      releaseWithin env depth id inv actor s = .ok (v, t) → Settles (forwardChain s depth id) s t

theorem groupSettled_congr (hmembers : groupMembers t id = groupMembers s id)
    (hothers : ∀ m, m ≠ id → t.entries m = s.entries m) : groupSettled t id = groupSettled s id := by
  unfold groupSettled
  rw [hmembers, decide_eq_decide]
  refine forall₂_congr fun m _ => ?_
  rcases eq_or_ne m id with heq | hne
  · simp [heq]
  · rw [hothers m hne]

theorem groupSettled_of_unguarded (h : isGuarded (s.entries id) inv = false) : groupSettled s id = true := by
  have hnone : groupMembers s id = [] := groupMembers_none (isGuarded_group h)
  unfold groupSettled
  rw [hnone]
  simp

theorem Stands.unguarded (h : Stands s id inv) (hguarded : isGuarded (s.entries id) inv = false) :
    (s.entries id).unguarded = true := by
  obtain ⟨stored, hstored, hkey⟩ := Option.map_eq_some_iff.1 h
  have hterms : stored.terms = inv.terms := congrArg Prod.fst hkey
  have hsame : isGuarded (s.entries id) stored = isGuarded (s.entries id) inv := by
    have hterm : ∀ x : Invoice, isGuarded (s.entries id) x = isGuarded (s.entries id) x.terms := fun _ => rfl
    rw [hterm stored, hterms, ← hterm inv]
  unfold Entry.unguarded
  rw [hstored]
  simp [hsame, hguarded]

theorem forwardToInvoice_settles {target : ℕ} {leftover : ℤ} (hnext : NextSettles env depth)
    (hclear : (s.entries target).unguarded = true → clearAhead s depth target = true)
    (hrun : forwardToInvoice env (releaseWithin env depth) target leftover s = .ok (v, t)) :
    Settles (if (s.entries target).unguarded then forwardChain s depth target else []) s t := by
  obtain ⟨inv, u₁, u₂, hload, hpush, hcumulative, hrun⟩ := forwardToInvoice_ok hrun
  have h₁ : Level s u₁ := framed_pushPayment.respects s _ u₁ hpush
  have h₂ : Level u₁ u₂ := framed_addCumulative.respects u₁ _ u₂ hcumulative
  have hbefore := h₁.trans h₂
  have hstands : Stands u₂ target (inv.withFunded (inv.funded + leftover)) :=
    (stands_load hload).level hbefore
  rcases hrun with ⟨-, hfree, hrun⟩ | ⟨-, hrun⟩
  · have hunguarded : (s.entries target).unguarded = true := by
      rw [← unguarded_congr (hbefore.key target)]
      exact hstands.unguarded hfree
    rw [if_pos hunguarded, ← hbefore.forwardChain]
    refine Settles.after (hnext hstands ?_ (groupSettled_of_unguarded hfree) ?_ hrun) hbefore
    · exact isGuarded_tranches hfree
    · rw [hbefore.clearAhead]
      exact hclear hunguarded
  · have hlevel : Level u₂ t := hstands.save rfl hrun
    exact (hbefore.trans hlevel).settles _

theorem forwardChain_succ (s : Store) (depth id : ℕ) : forwardChain s (depth + 1) id =
    id :: ((nextRelease s id).map (forwardChain s depth)).getD [] := rfl

theorem clearAhead_iff : clearAhead s depth id = true ↔
    (forwardChain s depth id).Nodup ∧ ∀ k ∈ forwardChain s depth id, isOpen s k = true := by
  unfold clearAhead
  exact decide_eq_true_iff

theorem nextRelease_of_forwards {target : ℕ} (h : (s.entries id).forwards = some target)
    (hunguarded : (s.entries target).unguarded = true) : nextRelease s id = some target := by
  unfold nextRelease
  rw [h, Option.filter_some, if_pos hunguarded]

theorem Stands.forwards {target : ℕ} (h : Stands s id inv) (hto : inv.forwardTo = none)
    (htarget : inv.forwardInvoiceId = some target) : (s.entries id).forwards = some target := by
  obtain ⟨stored, hstored, hkey⟩ := Option.map_eq_some_iff.1 h
  have hterms : stored.terms = inv.terms := congrArg Prod.fst hkey
  have hstoredTo : stored.terms.forwardTo = none := by rw [hterms]; exact hto
  have hstoredTarget : stored.terms.forwardInvoiceId = some target := by rw [hterms]; exact htarget
  unfold Entry.forwards
  rw [hstored]
  exact (if_pos hstoredTo).trans hstoredTarget

/-- What a release forwards settles the rest of the chain, which does not come back to it. -/
theorem forwardLeftover_settles {leftover : ℤ} (hnext : NextSettles env depth) (hstands : Stands s id inv)
    (hclear : clearAhead s (depth + 1) id = true)
    (hrun : forwardLeftover env (releaseWithin env depth) id inv leftover s = .ok (v, t)) :
    Settles (((nextRelease s id).map (forwardChain s depth)).getD []) s t := by
  rcases forwardLeftover_cases hrun with rfl | ⟨addr, -, htransfer⟩ | ⟨-, hto, target, htarget, hforward⟩
  · exact (Level.refl s).settles _
  · have hlevel : Level s t := framed_transfer.respects s _ t htransfer
    exact hlevel.settles _
  · have hforwards := hstands.forwards hto htarget
    have hchain : (s.entries target).unguarded = true →
        (nextRelease s id).map (forwardChain s depth) = some (forwardChain s depth target) := by
      intro hunguarded
      rw [nextRelease_of_forwards hforwards hunguarded]
      rfl
    have hsettles := forwardToInvoice_settles hnext (fun hunguarded => ?_) hforward
    · split_ifs at hsettles with hunguarded
      · rw [hchain hunguarded]
        exact hsettles
      · exact ⟨fun k _ => hsettles.outside k (by simp), hsettles.exact⟩
    · obtain ⟨hnodup, hall⟩ := clearAhead_iff.1 hclear
      rw [forwardChain_succ, hchain hunguarded] at hnodup hall
      exact clearAhead_iff.2 ⟨(List.nodup_cons.1 hnodup).2, fun k hk => hall k (List.mem_cons_of_mem id hk)⟩

theorem releaseFull_settles (hnext : NextSettles env depth) (hstands : Stands s id inv)
    (hgroup : groupSettled s id = true) (hclear : clearAhead s (depth + 1) id = true)
    (hrun : releaseFull env (releaseWithin env depth) id inv actor s = .ok (v, t)) :
    Settles (forwardChain s (depth + 1) id) s t := by
  obtain ⟨platformFee, plan, failed, u₁, u₂, u₃, u₄, -, -, hpaid, hmembers, hinsurance, hforward,
    hfinish⟩ := releaseFull_passes hrun
  have h₁ : Level s u₁ := framed_payPasses.respects s _ u₁ hpaid
  have hgroup₁ : groupSettled u₁ id = true := by
    have hchange : Change Set.univ anyMemo s u₁ := change_of_framed framed_payPasses hpaid
    rw [groupSettled_congr (groupMembers_congr hchange) fun m hm => ?_]
    · exact hgroup
    · have hne : Fact (m ≠ id) := ⟨hm⟩
      have houtside : Outside m s u₁ := framed_payPasses.respects s _ u₁ hpaid
      exact houtside.entries
  obtain rfl := releaseGroup_settled hgroup₁ hmembers
  have h₃ : Level u₂ u₃ := framed_returnInsurance.respects u₂ _ u₃ hinsurance
  have hbefore := h₁.trans h₃
  have hleft : Settles (((nextRelease s id).map (forwardChain s depth)).getD []) u₃ u₄ := by
    have hchain := forwardLeftover_settles hnext (hstands.level hbefore) ?_ hforward
    · rw [hbefore.nextRelease, show forwardChain u₃ depth = _ from funext (hbefore.forwardChain depth)] at hchain
      exact hchain
    · rw [hbefore.clearAhead]
      exact hclear
  obtain ⟨hnodup, hall⟩ := clearAhead_iff.1 hclear
  rw [forwardChain_succ] at hnodup hall ⊢
  have hself : (u₄.entries id).key = (s.entries id).key :=
    (hleft.outside id (List.nodup_cons.1 hnodup).1).trans (hbefore.key id)
  have hstill : Stands u₄ id inv := (congrArg Prod.fst hself).trans hstands
  have hopen : inv.status.isTerminal = false := by
    have hid := hall id (List.mem_cons_self ..)
    unfold isOpen at hid
    rw [hstands.openerOf, Invoice.opener] at hid
    split_ifs at hid with hterminal
    · cases hid
    · exact Bool.eq_false_iff.2 hterminal
  have hend := finishRelease_settles hstill hopen hfinish
  refine ⟨fun k hk => ?_, ((hleft.after hbefore).trans hend).exact⟩
  refine ((hleft.after hbefore).trans hend).outside k ?_
  rw [List.mem_cons, not_or] at hk
  simp [hk.1, hk.2]

theorem nextSettles (env : Env) (depth : ℕ) : NextSettles env depth := by
  induction depth with
  | zero =>
      intro id inv actor s t v _ _ _ _ hrun
      exact (throw_ok.1 hrun).elim
  | succ depth ih =>
      intro id inv actor s t v hstands htranches hgroup hclear hrun
      exact releaseFull_settles ih hstands hgroup hclear (releaseWithin_full htranches hrun)

/-- A tranche release that is not the last one leaves the invoice open. -/
theorem releaseTranches_level (hstands : Stands s id inv) (hopen : inv.status.isTerminal = false)
    (hlast : inv.releasedBps + newlyUnlocked env inv < 10000)
    (hrun : releaseTranches env id inv s = .ok (v, t)) : Level s t := by
  unfold releaseTranches at hrun
  obtain ⟨-, hrun⟩ := require_bind.1 hrun
  obtain ⟨fee, -, hrun⟩ := ofResult_bind.1 hrun
  obtain ⟨pass, u₁, hpaid, hrun⟩ := bind_ok.1 hrun
  obtain ⟨_, u₂, hfees, hrun⟩ := bind_ok.1 hrun
  obtain ⟨_, u₃, hrebate, hrun⟩ := bind_ok.1 hrun
  obtain ⟨_, u₄, hcount, hrun⟩ := bind_ok.1 hrun
  unfold finishTranches at hrun
  rw [if_neg (by omega)] at hrun
  have h₁ : Level s u₁ := (inferInstance : Framed Level (inv.recipients.zipIdx.foldlM
    (payTranche env id inv (newlyUnlocked env inv) (tranchePart inv.funded (newlyUnlocked env inv)) fee)
    {})).respects s _ u₁ hpaid
  have h₂ : Level u₁ u₂ := framed_payTrancheFees.respects u₁ _ u₂ hfees
  have h₃ : Level u₂ u₃ := framed_accrueCreatorRebate_beside.respects u₂ _ u₃ hrebate
  have h₄ : Level u₃ u₄ := framed_countTranche_beside.respects u₃ _ u₄ hcount
  have hbefore := ((h₁.trans h₂).trans h₃).trans h₄
  refine hbefore.trans ((hstands.level hbefore).save ?_ hrun)
  have hstatus : (trancheStatus inv pass.failed).isTerminal = inv.status.isTerminal := by
    unfold trancheStatus
    split_ifs
    · rw [hopen]
      rfl
    · rfl
  exact congrArg (Prod.mk inv.terms) hstatus

/-- A release counts what it does: the invoice is open, and it pays a tranche that is not the last one,
or releases nobody of its group and goes on to open invoices. -/
def releaseCounted (env : Env) (s : Store) (id : ℕ) (inv : Invoice) : Bool :=
  !inv.status.isTerminal &&
    if inv.tranches = [] then groupSettled s id && clearAhead s env.depth id
    else decide (inv.releasedBps + newlyUnlocked env inv < 10000)

theorem releaseAs_exact (hstands : Stands s id inv) (hcounted : releaseCounted env s id inv = true)
    (hrun : releaseAs env id inv actor s = .ok (v, t)) (hs : Exact s) : Exact t := by
  unfold releaseCounted at hcounted
  rw [Bool.and_eq_true, Bool.not_eq_true'] at hcounted
  obtain ⟨hopen, hcounted⟩ := hcounted
  split_ifs at hcounted with htranches
  · obtain ⟨hgroup, hclear⟩ := (Bool.and_eq_true ..).mp hcounted
    exact (nextSettles env env.depth hstands htranches hgroup hclear hrun).exact hs
  · rcases releaseAs_ok hrun with ⟨hnone, -⟩ | ⟨-, hpaid⟩
    · exact absurd hnone htranches
    · exact (releaseTranches_level hstands hopen (of_decide_eq_true hcounted) hpaid).sameCount.exact hs

end Releases

/-! ## Payments -/

/-- With this funding every milestone is reached, so that the last one marks the invoice as released. -/
def completesMilestones (e : Entry) (inv : Invoice) (funded : ℤ) : Bool :=
  inv.milestones ≠ [] ∧ recipientsVerified e inv = true ∧ 0 < inv.total ∧
    ∀ bps ∈ inv.milestones.drop inv.milestonesReleased,
      (checkedBpsOf inv.total bps 10000).toOption.any (· ≤ funded) = true

/-- The target of the invoice, and its funding after a payment. -/
def fundingAfter (env : Env) (inv : Invoice) (amount : ℤ) : Option (ℤ × ℤ) :=
  Except.toOption do
    let target ← paymentTarget env inv
    let credited ← creditedAmount inv amount (target - inv.funded)
    pure (target, inv.funded + credited)

/-- A payment counts what it does: it does not complete the milestones, and a release that it sets off
goes on to open invoices. -/
def paymentCounted (env : Env) (s : Store) (id : ℕ) (amount : ℤ) (inv : Invoice) : Bool :=
  (fundingAfter env inv amount).all fun x =>
    !completesMilestones (s.entries id) inv x.2 &&
      (decide (x.2 < x.1) || !(s.entries id).unguarded || clearAhead s env.depth id)

section Payments

variable {env : Env} {s t u : Store} {v : Unit} {id : ℕ} {inv paid : Invoice} {payer : Address}
  {amount target : ℤ}

theorem milestoneLoop_ahead {token : Address} {ms : List ℕ} {prev released last : ℕ}
    (hahead : ∃ bps ∈ ms, (checkedBpsOf inv.total bps 10000).toOption.any (· ≤ inv.funded) = false)
    (hrun : milestoneLoop env id inv token ms prev released s = .ok (last, t)) :
    last < released + ms.length := by
  induction ms generalizing prev released s with
  | nil =>
      obtain ⟨bps, hmem, -⟩ := hahead
      cases hmem
  | cons bps ms ih =>
      rw [milestoneLoop, ofResult_bind] at hrun
      obtain ⟨threshold, hthreshold, hrun⟩ := hrun
      rw [List.length_cons]
      split_ifs at hrun with hbelow
      · obtain ⟨rfl, -⟩ := pure_ok.1 hrun
        omega
      · obtain ⟨_, u, -, hrun⟩ := bind_ok.1 hrun
        have hrest : ∃ bps ∈ ms,
            (checkedBpsOf inv.total bps 10000).toOption.any (· ≤ inv.funded) = false := by
          obtain ⟨bps', hmem, hbps⟩ := hahead
          rcases List.mem_cons.1 hmem with rfl | hmem
          · rw [hthreshold] at hbps
            have hreached : decide (threshold ≤ inv.funded) = false := hbps
            exact absurd (not_lt.1 hbelow) (of_decide_eq_false hreached)
          · exact ⟨bps', hmem, hbps⟩
        have := ih hrest hrun
        omega

/-- A payment that leaves a milestone ahead does not close the invoice. -/
theorem maybeReleaseMilestones_open (hahead : completesMilestones (s.entries id) inv inv.funded = false)
    (hrun : maybeReleaseMilestones env id inv s = .ok (paid, t)) :
    paid.key = inv.key ∧ paid.funded = inv.funded := by
  obtain ⟨-, rfl, -⟩ | ⟨hsome, hverified, htotal, token, released, -, hloop, rfl⟩ :=
    maybeReleaseMilestones_cases hrun
  · exact ⟨rfl, rfl⟩
  · have hleft : ∃ bps ∈ inv.milestones.drop inv.milestonesReleased,
        (checkedBpsOf inv.total bps 10000).toOption.any (· ≤ inv.funded) = false := by
      by_contra hall
      push Not at hall
      unfold completesMilestones at hahead
      refine absurd ⟨hsome, hverified, htotal, fun bps hbps => ?_⟩ (of_decide_eq_false hahead)
      simpa using hall bps hbps
    have hlast := milestoneLoop_ahead hleft hloop
    have hpos : inv.milestonesReleased < inv.milestones.length := by
      obtain ⟨bps, hmem, -⟩ := hleft
      by_contra hge
      rw [List.drop_eq_nil_of_le (not_lt.1 hge)] at hmem
      cases hmem
    rw [List.length_drop] at hlast
    rw [if_neg (by omega)]
    exact ⟨rfl, rfl⟩

theorem settlePayment_exact (hstands : Stands s id paid)
    (hclear : target ≤ paid.funded → (s.entries id).unguarded = true → clearAhead s env.depth id = true)
    (hrun : settlePayment env id paid target payer s = .ok (v, t)) (hs : Exact s) : Exact t := by
  have hhold : (startHold env paid).key = paid.key := startHold_field Invoice.key (fun _ => rfl) env
  obtain ⟨hfull, u, hrecord, hend⟩ | ⟨-, hrun⟩ := settlePayment_cases hrun
  · have hrecorded : Level s u := framed_recordFunded.respects s _ u hrecord
    have hu := hrecorded.sameCount.exact hs
    have hstanding : Stands u id (startHold env paid) :=
      (hstands.level hrecorded).trans (congrArg some hhold.symm)
    rcases hend with ⟨-, hrun⟩ | ⟨hrelease, hrun⟩
    · exact (hstanding.save rfl hrun).sameCount.exact hu
    · have hfree : isGuarded (u.entries id) (startHold env paid) = false :=
        isGuarded_of_payGuarded hrelease
      have hunguarded : (s.entries id).unguarded = true := by
        rw [← unguarded_congr (hrecorded.key id)]
        exact hstanding.unguarded hfree
      have hsettles := nextSettles env env.depth hstanding (isGuarded_tranches hfree)
        (groupSettled_of_unguarded hfree) ?_ hrun
      · exact hsettles.exact hu
      · rw [hrecorded.clearAhead]
        exact hclear hfull hunguarded
  · exact (hstands.save rfl hrun).sameCount.exact hs

theorem recipientsVerified_congr {e e' : Entry} (h : e'.key = e.key) (inv : Invoice) :
    recipientsVerified e' inv = recipientsVerified e inv := by
  have hrequired : e'.authRequired = e.authRequired := congrArg (fun key => key.2.2.2.1) h
  have hverified : e'.recipientVerified = e.recipientVerified := congrArg (fun key => key.2.2.2.2) h
  unfold recipientsVerified
  rw [hrequired, hverified]

theorem completesMilestones_congr {e e' : Entry} (h : e'.key = e.key) (inv : Invoice) (funded : ℤ) :
    completesMilestones e' inv funded = completesMilestones e inv funded := by
  unfold completesMilestones
  rw [recipientsVerified_congr h]

theorem creditPayment_exact {donate : Bool} (hstands : Stands s id inv)
    (htarget : paymentTarget env inv = .ok target) (hcounted : paymentCounted env s id amount inv = true)
    (hrun : creditPayment env payer id inv amount target donate s = .ok (v, t)) (hs : Exact s) : Exact t := by
  obtain ⟨credited, premium, credit, paid, u₁, u₂, u₃, u₄, u₅, u₆, hcredited, -, htake, -, hrecord, hcount,
    hnotify, hmilestones, hreceipt, hsettle⟩ := creditPayment_passes hrun
  have h₁ : Level s u₁ := framed_takePayment.respects s _ u₁ htake
  have h₂ : Level u₁ u₂ := framed_recordPayment.respects u₁ _ u₂ hrecord
  have h₃ : Level u₂ u₃ := framed_countPayment_beside.respects u₂ _ u₃ hcount
  have h₄ : Level u₃ u₄ := framed_notifyInvoice.respects u₃ _ u₄ hnotify
  have h₅ : Level u₄ u₅ := framed_maybeReleaseMilestones.respects u₄ _ u₅ hmilestones
  have h₆ : Level u₅ u₆ := framed_invokeIfSet.respects u₅ _ u₆ hreceipt
  have hbefore := ((h₁.trans h₂).trans h₃).trans h₄
  have hafter := (hbefore.trans h₅).trans h₆
  have hfunding : fundingAfter env inv amount = some (target, inv.funded + credited) := by
    unfold fundingAfter
    rw [htarget]
    change Except.toOption (creditedAmount inv amount (target - inv.funded) >>= _) = _
    rw [hcredited]
    rfl
  unfold paymentCounted at hcounted
  rw [hfunding, Option.all_some, Bool.and_eq_true, Bool.not_eq_true'] at hcounted
  obtain ⟨hahead, hclear⟩ := hcounted
  rw [← completesMilestones_congr (hbefore.key id)] at hahead
  obtain ⟨hkey, hfunded⟩ := maybeReleaseMilestones_open hahead hmilestones
  have hpaid : Stands u₆ id paid := (hstands.level hafter).trans (congrArg some hkey.symm)
  refine settlePayment_exact hpaid (fun hfull hunguarded => ?_) hsettle (hafter.sameCount.exact hs)
  rw [hfunded] at hfull
  rw [unguarded_congr (hafter.key id)] at hunguarded
  rw [hafter.clearAhead]
  have hreached : decide (inv.funded + credited < target) = false := decide_eq_false (not_lt.2 hfull)
  simpa [hreached, hunguarded] using hclear

theorem paymentCounted_congr (h : Level s t) (inv : Invoice) :
    paymentCounted env t id amount inv = paymentCounted env s id amount inv := by
  unfold paymentCounted
  rw [unguarded_congr (h.key id), h.clearAhead,
    show completesMilestones (t.entries id) = _ from
      funext₂ fun inv funded => completesMilestones_congr (h.key id) inv funded]

theorem pay_exact {nonce : ℕ} {donate : Bool}
    (hcounted : (s.entries id).load.all (paymentCounted env s id amount) = true)
    (hrun : pay env payer id amount nonce donate s = .ok (v, t)) (hs : Exact s) : Exact t := by
  obtain ⟨inv, target, credits, u₁, u₂, u₃, -, hcheck, htarget, hkyc, haccumulate, hrest⟩ := pay_passes hrun
  obtain ⟨stored, hload, -, hresumed⟩ := checkPayment_ok hcheck
  rw [hload, Option.all_some] at hcounted
  have hsame : inv.key = stored.key ∧ paymentCounted env s id amount inv = true ∧ Level s u₁ := by
    rcases hresumed with ⟨rfl, rfl⟩ | ⟨rfl, hsave⟩
    · exact ⟨rfl, hcounted, .refl _⟩
    · have hkey : stored.resumed.key = stored.key := rfl
      exact ⟨hkey, hcounted, (stands_load hload).save hkey hsave⟩
  obtain ⟨hkey, hcounted, h₁⟩ := hsame
  obtain rfl := eq_of_framed hkyc
  have h₃ : Level u₁ u₃ := framed_accumulate.respects u₁ _ u₃ haccumulate
  rcases hrest with ⟨-, u₄, hlimits, hcredit⟩ | ⟨-, rfl⟩
  · have h₄ : Level u₃ u₄ := framed_checkLimits.respects u₃ _ u₄ hlimits
    have hbefore := (h₁.trans h₃).trans h₄
    have hstands : Stands u₄ id inv := ((stands_load hload).level hbefore).trans (congrArg some hkey.symm)
    refine creditPayment_exact hstands htarget ?_ hcredit (hbefore.sameCount.exact hs)
    rw [paymentCounted_congr hbefore]
    exact hcounted
  · exact (h₁.trans h₃).sameCount.exact hs

end Payments

/-! ## Creations and renewals -/

/-- Neither the ids nor the open invoices are counted on. -/
structure Uncounted (s t : Store) : Prop where
  counter : t.counter = s.counter
  counted : t.stats.openInvoices = s.stats.openInvoices

section Creations

variable {env : Env} {s t u : Store} {v : Unit} {id : ℕ} {inv draft : Invoice} {extras : CreationExtras}
  {creator : Address}

theorem Uncounted.trans (h₁ : Uncounted s t) (h₂ : Uncounted t u) : Uncounted s u :=
  ⟨h₂.counter.trans h₁.counter, h₂.counted.trans h₁.counted⟩

instance uncounted_refl : Std.Refl Uncounted := ⟨fun _ => ⟨rfl, rfl⟩⟩

instance uncounted_trans : IsTrans Store Uncounted := ⟨fun _ _ _ => .trans⟩

instance moves_uncounted {memo : Memo} : Moves Uncounted memo := ⟨fun _ _ _ => ⟨rfl, rfl⟩⟩

instance countsBeside_uncounted : CountsBeside Uncounted := ⟨fun _ _ h => ⟨rfl, h⟩⟩

instance saves_uncounted : Saves Uncounted id inv := ⟨fun _ _ _ => ⟨rfl, rfl⟩⟩

theorem framed_modifyEntry_uncounted {f : Entry → Entry} : Framed Uncounted (modifyEntry id f) :=
  .of (.modify fun _ => ⟨rfl, rfl⟩)

instance framed_setCreationExtras_uncounted : Framed Uncounted (setCreationExtras id extras) := by
  have hset : ∀ f, Framed Uncounted (modifyEntry id f) := fun _ => framed_modifyEntry_uncounted
  unfold setCreationExtras
  infer_instance

instance framed_applyCosignerConfig_uncounted : Framed Uncounted (applyCosignerConfig id extras) := by
  have hset : ∀ f, Framed Uncounted (modifyEntry id f) := fun _ => framed_modifyEntry_uncounted
  unfold applyCosignerConfig
  infer_instance

instance framed_applyOverfundingPolicy_uncounted {policy : OverfundingPolicy} :
    Framed Uncounted (applyOverfundingPolicy env id policy) := by
  unfold applyOverfundingPolicy
  infer_instance

instance framed_creationTokens_uncounted : Framed Uncounted (creationTokens draft) := by
  unfold creationTokens
  infer_instance

/-- A creator gets through the cap exactly with fewer open invoices on the counter than the cap. -/
theorem countCreation_returns_iff :
    (∃ u, countCreation env creator s = .ok ((), u)) ↔
      s.stats.openInvoices creator < env.config.maxOpenInvoices := by
  unfold countCreation
  constructor
  · rintro ⟨u, hrun⟩
    obtain ⟨_, w, hcount, hrun⟩ := bind_ok.1 hrun
    obtain rfl := modify_ok.1 hcount
    exact (require_bind.1 (get_bind.1 hrun)).1
  · intro hroom
    refine ⟨_, bind_ok.2 ⟨(), _, modify_ok.2 rfl, get_bind.2 (require_bind.2 ⟨hroom, modify_ok.2 rfl⟩)⟩⟩

theorem countCreation_counts (hrun : countCreation env creator s = .ok (v, t)) :
    t.stats.openInvoices = update s.stats.openInvoices creator (s.stats.openInvoices creator + 1) := by
  unfold countCreation at hrun
  obtain ⟨_, w, hcount, hrun⟩ := bind_ok.1 hrun
  obtain rfl := modify_ok.1 hcount
  obtain rfl := modify_ok.1 (require_bind.1 (get_bind.1 hrun)).2
  rfl

theorem createInvoiceInner_counts (hrun : createInvoiceInner env draft extras s = .ok (id, t)) :
    t.stats.openInvoices =
      update s.stats.openInvoices draft.creator (s.stats.openInvoices draft.creator + 1) := by
  obtain ⟨_, u₁, hchecks, hrun⟩ := bind_ok.1 hrun
  obtain ⟨_, u₂, hfee, hrun⟩ := bind_ok.1 hrun
  obtain ⟨newId, u₃, hnext, hrun⟩ := bind_ok.1 hrun
  obtain ⟨_, u₄, hledger, hrun⟩ := bind_ok.1 hrun
  obtain ⟨_, u₅, hwhitelist, hrun⟩ := bind_ok.1 hrun
  obtain ⟨_, u₆, hcount, hlast⟩ := bind_ok.1 hrun
  have hrest : Framed Uncounted (do
      checkGovernance env draft.creator
      useCreatorVolume env draft.creator draft.total
      checkRecipientsKyc env draft
      onlyIf (0 < draft.bonusPool)
        (collect env draft.fundingToken draft.creator draft.bonusPool ⟨newId, .bonusPool⟩)
      let tokens ← creationTokens draft
      saveInvoice env newId (draft.created tokens)
      setCreationExtras newId extras
      invokeIfSet env env.config.dashboard "record_created"
      pure newId) := inferInstance
  have h₁ : Uncounted s u₁ := framed_checkCreation.respects s _ u₁ hchecks
  have h₂ : Uncounted u₁ u₂ := framed_chargeCreationFee.respects u₁ _ u₂ hfee
  obtain ⟨-, rfl⟩ := nextId_ok hnext
  have h₄ : Uncounted _ u₄ := framed_modifyEntry_uncounted.respects _ _ u₄ hledger
  have h₅ : Uncounted u₄ u₅ := framed_checkRecipientWhitelist.respects u₄ _ u₅ hwhitelist
  have hbefore : u₅.stats.openInvoices = s.stats.openInvoices :=
    (h₅.counted.trans h₄.counted).trans (h₂.counted.trans h₁.counted)
  rw [(hrest.respects u₆ id t hlast).counted, countCreation_counts hcount, hbefore]

/-- A creation with what is stored beside it. -/
theorem begins_of_inner {policy : OverfundingPolicy} (hbefore : Uncounted s u)
    (hrun : (do
      let id ← createInvoiceInner env draft extras
      applyOverfundingPolicy env id policy
      applyCosignerConfig id extras
      pure id) u = .ok (id, t))
    (hwrote : Wrote id inv s t) (hopener : inv.opener = some draft.creator) : Begins draft.creator s t := by
  obtain ⟨newId, u₁, hinner, hrun⟩ := bind_ok.1 hrun
  obtain ⟨_, u₂, hpolicy, hrun⟩ := bind_ok.1 hrun
  obtain ⟨_, u₃, hcosigners, hrun⟩ := bind_ok.1 hrun
  obtain ⟨rfl, rfl⟩ := pure_ok.1 hrun
  obtain ⟨-, -, hstored⟩ := createInvoiceInner_ok hinner
  have h₂ : Uncounted u₁ u₂ := framed_applyOverfundingPolicy_uncounted.respects u₁ _ u₂ hpolicy
  have h₃ : Uncounted u₂ u₃ := framed_applyCosignerConfig_uncounted.respects u₂ _ u₃ hcosigners
  have hid : newId = s.counter + 1 := hstored.fresh.trans (congrArg (· + 1) hbefore.counter)
  refine ⟨?_, ?_, fun k hk => hwrote.others k (hid ▸ hk), ?_⟩
  · rw [h₃.counter, h₂.counter, hstored.counter, hbefore.counter]
  · rw [h₃.counted, h₂.counted, createInvoiceInner_counts hinner, hbefore.counted]
  · unfold openerOf
    rw [← hid, hwrote.invoice]
    exact hopener

theorem opener_created (draft : Invoice) (tokens : List Address) (policy : OverfundingPolicy)
    (payments : List Payment) :
    (((draft.created tokens).withOverfundingPolicy policy).withPayments payments).opener =
      some draft.creator := rfl

theorem Creation.begins {c : Creation} (hrun : c.run env s = .ok (id, t)) : Begins c.draft.creator s t := by
  unfold Creation.run at hrun
  cases hrecipients : c.recipients with
  | none =>
      rw [hrecipients] at hrun
      obtain ⟨-, -, tokens, payments, -, -, hwrote⟩ := createInvoice_ok hrun
      obtain ⟨_, u₁, hcreator, hrun⟩ := bind_ok.1 hrun
      obtain ⟨_, u₂, hratios, hrun⟩ := bind_ok.1 hrun
      have h₁ : Uncounted s u₁ := framed_checkCreator_beside.respects s _ u₁ hcreator
      have hvalid : Framed Uncounted (onlyIf (c.draft.ratios ≠ [])
          (ofResult (validateRatios c.draft.ratios (max c.draft.ratioDenominator 1)) : SplitM Unit)) :=
        inferInstance
      have hbegins : Begins (c.draft.withTokens []).creator s t :=
        begins_of_inner (h₁.trans (hvalid.respects u₁ _ u₂ hratios)) hrun hwrote (opener_created ..)
      exact hbegins
  | some recipients =>
      rw [hrecipients] at hrun
      obtain ⟨-, -, payments, hwrote⟩ := createInvoiceWithRecipients_ok hrun
      simp only [createInvoiceWithRecipients, require_bind, requireAuth_bind] at hrun
      obtain ⟨-, -, -, hrun⟩ := hrun
      obtain ⟨_, u₁, hrate, hrun⟩ := bind_ok.1 hrun
      have h₁ : Uncounted s u₁ := framed_applyRateLimit_beside.respects s _ u₁ hrate
      have hbegins : Begins (c.draft.forRecipients recipients).creator s t :=
        begins_of_inner h₁ hrun hwrote (opener_created ..)
      exact hbegins

/-- A renewal of an open invoice closes it and opens another one of the same creator. -/
theorem renewInvoice_replaces {deadline oldId : ℕ} (hs : Exact s) (hopen : isOpen s oldId = true)
    (hrun : renewInvoice env creator oldId deadline s = .ok (id, t)) :
    ∃ opener, Replaces opener oldId s t := by
  obtain ⟨opener, hopener⟩ := Option.isSome_iff_exists.1 hopen
  have hknown := hs.known hopener
  obtain ⟨old, amounts, hload, -, h⟩ := renewInvoice_ok hknown hrun
  have hcreator : old.creator = opener := by
    have hstanding := (stands_load hload).openerOf.symm.trans hopener
    unfold Invoice.opener at hstanding
    split_ifs at hstanding
    exact Option.some.inj hstanding
  refine ⟨opener, h.counter, by rw [h.stats], fun k hk hk' => h.others k hk (h.fresh ▸ hk'), hopener, ?_, ?_⟩
  · rw [openerOf, h.old]
    rfl
  · rw [openerOf, ← h.fresh, h.successor, ← hcreator]
    rfl

end Creations

/-! ## Refunds, retries and changes of hands -/

section Others

variable {env : Env} {s t u : Store} {v : Unit} {id : ℕ} {inv inv' : Invoice} {a : Address}

theorem Stands.of_open (h : Stands s id inv) (hopen : isOpen s id = true) :
    OpenCount.openerOf s id = some inv.creator ∧ inv.status.isTerminal = false := by
  unfold isOpen at hopen
  rw [h.openerOf] at hopen ⊢
  unfold Invoice.opener at hopen ⊢
  split_ifs at hopen ⊢ with hterminal
  · cases hopen
  · exact ⟨rfl, Bool.eq_false_iff.2 hterminal⟩

theorem Stands.of_terminal (h : Stands s id inv) (hclosed : isOpen s id = false) :
    inv.status.isTerminal = true := by
  unfold isOpen at hclosed
  rw [h.openerOf] at hclosed
  unfold Invoice.opener at hclosed
  split_ifs at hclosed with hterminal
  · exact hterminal
  · cases hclosed

/-- Saving an invoice in a terminal state over one that is in a terminal state. -/
theorem Stands.save_terminal (h : Stands s id inv) (hclosed : inv.status.isTerminal = true)
    (hrun : saveInvoice env id inv' s = .ok (v, t)) (hterms : inv'.terms = inv.terms)
    (hterminal : inv'.status.isTerminal = true) : Level s t :=
  h.save (Prod.ext hterms (hterminal.trans hclosed.symm)) hrun

/-- Saving an open invoice with another open status. -/
theorem Stands.save_open (h : Stands s id inv) (hopen : inv.status.isTerminal = false)
    (hrun : saveInvoice env id inv' s = .ok (v, t)) (hterms : inv'.terms = inv.terms)
    (hstill : inv'.status.isTerminal = false) : Level s t :=
  h.save (Prod.ext hterms (hstill.trans hopen.symm)) hrun

theorem retryFailedPayout_exact {recipient : Address}
    (hcounted : (s.entries id).failedPayouts.filter (· ≠ recipient) = [] → isOpen s id = true)
    (hrun : retryFailedPayout env id recipient s = .ok (v, t)) (hs : Exact s) : Exact t := by
  simp only [retryFailedPayout, requireNotPaused_bind, loadInvoice_bind, getEntry_bind, require_bind,
    orPanic_bind, ofResult_bind] at hrun
  obtain ⟨-, inv, hload, -, -, -, idx, -, payout, -, hrun⟩ := hrun
  obtain ⟨_, u₁, hsend, hrun⟩ := bind_ok.1 hrun
  obtain ⟨_, u₂, hremove, hrun⟩ := bind_ok.1 hrun
  have h₁ : Level s u₁ := framed_transfer.respects s _ u₁ hsend
  have hnote : Framed Level (modifyEntry id fun e => e.removeFailed recipient) := framed_note fun _ => rfl
  have h₂ : Level u₁ u₂ := hnote.respects u₁ _ u₂ hremove
  have hlevel := h₁.trans h₂
  have hexact := hlevel.sameCount.exact hs
  rcases onlyIf_ok.1 hrun with ⟨hlast, hfinish⟩ | ⟨-, rfl⟩
  · have hstands := (stands_load hload).level hlevel
    obtain ⟨hopener, -⟩ := hstands.of_open ((hlevel.isOpen id).trans (hcounted hlast))
    obtain ⟨_, w, hsave, hclose⟩ := bind_ok.1 hfinish
    obtain ⟨-, rfl⟩ := saveInvoice_ok.1 hsave
    obtain hclosed := modify_ok.1 hclose
    have hends : Ends inv.creator id u₂ t := by
      rw [← hclosed]
      exact ends_of_entries rfl rfl rfl hopener rfl
    exact hends.exact hexact
  · exact hexact

@[simp] theorem key_withFunded (x : ℤ) : (inv.withFunded x).key = inv.key := rfl

@[simp] theorem key_markRefunded (payer : Address) : (inv.markRefunded payer).key = inv.key := rfl

@[simp] theorem key_withAuctionEnd (n : ℕ) : (inv.withAuctionEnd n).key = inv.key := rfl

@[simp] theorem key_withDisputed (b : Bool) : (inv.withDisputed b).key = inv.key := rfl

theorem lazilyExpired_key : (lazilyExpired env inv).key = inv.key := by
  unfold lazilyExpired
  split_ifs with hdue
  · refine Prod.ext rfl ?_
    change InvoiceStatus.isTerminal .expired = inv.status.isTerminal
    rw [hdue.1]
    rfl
  · rfl

/-- The refund of an invoice with an auction only starts the auction. -/
theorem refund_exact (hcounted : (s.entries id).load.all (·.auctionOnExpiry) = true)
    (hrun : refund env id s = .ok (v, t)) (hs : Exact s) : Exact t := by
  obtain ⟨_, u, hlock, hrun⟩ := bind_ok.1 hrun
  have hlevel : Level s u := framed_acquireLock.respects s _ u hlock
  have hentries : u.entries = s.entries := by
    simp only [acquireLock, bind_ok, get_ok, require_ok, set_ok] at hlock
    obtain ⟨_, _, ⟨rfl, rfl⟩, _, _, ⟨-, rfl⟩, rfl⟩ := hlock
    rfl
  simp only [requireFnNotPaused_bind, loadInvoice_bind, require_bind] at hrun
  obtain ⟨-, inv, hload, -, -, hrun⟩ := hrun
  rw [← hentries, hload, Option.all_some] at hcounted
  rw [if_pos hcounted] at hrun
  have hexact := hlevel.sameCount.exact hs
  have hstands : Stands u id (lazilyExpired env inv) :=
    (stands_load hload).trans (congrArg some lazilyExpired_key.symm)
  unfold startAuction at hrun
  split_ifs at hrun with hfirst
  · exact (hstands.save (key_withAuctionEnd _) hrun).sameCount.exact hexact
  · exact (throw_ok.1 (require_bind.1 hrun).2).elim

theorem claimRefund_level {payer : Address} (hrun : claimRefund env payer id s = .ok (v, t)) : Level s t := by
  simp only [claimRefund, requireFnNotPaused_bind, requireAuth_bind, loadInvoice_bind] at hrun
  obtain ⟨-, -, inv, hload, hrun⟩ := hrun
  rcases onlyIf_ok.1 hrun with ⟨-, hrun⟩ | ⟨-, rfl⟩
  · simp only [require_bind] at hrun
    rcases onlyIf_ok.1 hrun.2.2 with ⟨-, hclaim⟩ | ⟨-, rfl⟩
    · rw [payClaim, getEntry_bind] at hclaim
      rcases onlyIf_ok.1 hclaim with ⟨-, hpay⟩ | ⟨-, rfl⟩
      · obtain ⟨token, -, hpay⟩ := orPanic_bind.1 hpay
        obtain ⟨_, u, hsend, hsave⟩ := bind_ok.1 hpay
        have hsent : Level s u := framed_transfer.respects s _ u hsend
        exact hsent.trans (((stands_load hload).level hsent).save (by simp) hsave)
      · exact .refl _
    · exact .refl _
  · exact .refl _

theorem cancelInvoice_exact {caller : Address} (hrun : cancelInvoice env caller id s = .ok (v, t))
    (hs : Exact s) : Exact t := by
  obtain ⟨_, u, hlock, hrun⟩ := bind_ok.1 hrun
  have hlevel : Level s u := framed_acquireLock.respects s _ u hlock
  simp only [requireNotPaused_bind, requireAuth_bind, loadInvoice_bind, require_bind] at hrun
  obtain ⟨-, -, inv, hload, -, hpending, -, hrun⟩ := hrun
  obtain ⟨_, u₁, hauthorize, hrun⟩ := bind_ok.1 hrun
  obtain rfl := eq_of_framed hauthorize
  obtain ⟨_, u₂, hrate, hrun⟩ := bind_ok.1 hrun
  obtain rfl := eq_of_framed hrate
  obtain ⟨_, u₃, hrefund, hrun⟩ := bind_ok.1 hrun
  obtain ⟨_, u₄, hsave, hrun⟩ := bind_ok.1 hrun
  obtain ⟨_, u₅, hcount, hremove⟩ := bind_ok.1 hrun
  have hrefunds : Framed Level (cancelRefunds env id inv) := by
    unfold cancelRefunds cancelFunded cancelUnfunded refundCancelled returnBonus
    infer_instance
  have hback : Level u u₃ := hrefunds.respects u _ u₃ hrefund
  have hstands := (stands_load hload).level hback
  have hopener : openerOf u₃ id = some inv.creator := by
    rw [hstands.openerOf, Invoice.opener, hpending]
    rfl
  obtain ⟨-, rfl⟩ := saveInvoice_ok.1 hsave
  have hcounted := modify_ok.1 hcount
  have hends : Ends inv.creator id u₃ u₅ := by
    rw [← hcounted]
    refine ends_of_entries rfl rfl rfl hopener ?_
    unfold cancelled
    split_ifs <;> rfl
  have hunlocked : Level u₅ t := framed_removeLock.respects u₅ _ t hremove
  exact hunlocked.sameCount.exact (hends.exact ((hlevel.trans hback).sameCount.exact hs))

theorem releaseInvoice_exact {preimage : Option (List ℕ)}
    (hcounted : (s.entries id).load.all (releaseCounted env s id) = true)
    (hrun : releaseInvoice env id preimage s = .ok (v, t)) (hs : Exact s) : Exact t := by
  obtain ⟨_, u₁, hlock, hrun⟩ := bind_ok.1 hrun
  obtain ⟨_, u₂, hinner, hremove⟩ := bind_ok.1 hrun
  have hlocked : Level s u₁ := framed_acquireLock.respects s _ u₁ hlock
  have hunlocked : Level u₂ t := framed_removeLock.respects u₂ _ t hremove
  simp only [acquireLock, bind_ok, get_ok, require_ok, set_ok] at hlock
  obtain ⟨_, _, ⟨rfl, rfl⟩, _, _, ⟨-, rfl⟩, rfl⟩ := hlock
  obtain ⟨inv, hload, -, hrelease⟩ := releaseInvoiceInner_ok hinner
  have hbefore : (s.entries id).load = some inv := hload
  rw [hbefore, Option.all_some] at hcounted
  refine hunlocked.sameCount.exact (releaseAs_exact (stands_load hload) ?_ hrelease (hlocked.sameCount.exact hs))
  unfold releaseCounted at hcounted ⊢
  rw [hlocked.clearAhead]
  exact hcounted

theorem triggerScheduledRelease_exact (hcounted : (s.entries id).load.all (releaseCounted env s id) = true)
    (hrun : triggerScheduledRelease env id s = .ok (v, t)) (hs : Exact s) : Exact t := by
  obtain ⟨inv, hload, -, hrelease⟩ := triggerScheduledRelease_ok hrun
  rw [hload, Option.all_some] at hcounted
  exact releaseAs_exact (stands_load hload) hcounted hrelease hs

/-- The rule that fits releases, and counts what it does. -/
def resolutionCounted (env : Env) (s : Store) (id : ℕ) (inv : Invoice) : Bool :=
  match matchingRule inv with
  | some ⟨_, .release⟩ => releaseCounted env s id inv
  | some ⟨_, .refund⟩ | none => false

theorem autoResolve_exact (hcounted : (s.entries id).load.all (resolutionCounted env s id) = true)
    (hrun : autoResolve env id s = .ok (v, t)) (hs : Exact s) : Exact t := by
  simp only [autoResolve, requireNotPaused_bind, loadInvoice_bind, require_bind] at hrun
  obtain ⟨-, inv, hload, -, -, -, -, hrun⟩ := hrun
  rw [hload, Option.all_some] at hcounted
  unfold resolutionCounted at hcounted
  unfold applyRule at hrun
  cases hrule : matchingRule inv with
  | none =>
      rw [hrule] at hrun
      exact (throw_ok.1 hrun).elim
  | some rule =>
      obtain ⟨bps, action⟩ := rule
      rw [hrule] at hrun hcounted
      cases action with
      | release => exact releaseAs_exact (stands_load hload) hcounted hrun hs
      | refund => cases hcounted

/-- The arbiter releases with a count, or refunds an invoice that is in a terminal state anyway. -/
def arbitrationCounted (env : Env) (s : Store) (id : ℕ) : ResolveAction → Bool
  | .release => (s.entries id).load.all (releaseCounted env s id)
  | .refund => !isOpen s id

theorem arbiterRefund_level (hstands : Stands s id inv) (hclosed : inv.status.isTerminal = true)
    (hrun : arbiterRefund env id inv s = .ok (v, t)) : Level s t := by
  unfold arbiterRefund at hrun
  split_ifs at hrun
  · exact hstands.save_terminal hclosed hrun rfl rfl
  · obtain ⟨token, -, hrun⟩ := orPanic_bind.1 hrun
    obtain ⟨_, u₁, hrefund, hrun⟩ := bind_ok.1 hrun
    obtain ⟨_, u₂, hbonus, hrun⟩ := bind_ok.1 hrun
    obtain ⟨_, u₃, hsave, hrun⟩ := bind_ok.1 hrun
    have hrefunds : Framed Level (refundTotals env id token (totalsOf inv.payments)) := by
      unfold refundTotals
      infer_instance
    have hbonuses : Framed Level (returnBonus env id inv token) := by
      unfold returnBonus
      infer_instance
    have hbefore := Level.trans (hrefunds.respects s _ u₁ hrefund) (hbonuses.respects u₁ _ u₂ hbonus)
    have hsaved := (hstands.level hbefore).save_terminal hclosed hsave rfl rfl
    have hcount : Level u₃ t := framed_addTotalRefunded_beside.respects u₃ _ t hrun
    exact (hbefore.trans hsaved).trans hcount

theorem resolveDispute_exact {resolution : ResolveAction}
    (hcounted : arbitrationCounted env s id resolution = true)
    (hrun : resolveDispute env id a resolution s = .ok (v, t)) (hs : Exact s) : Exact t := by
  simp only [resolveDispute, requireNotPaused_bind, requireAuth_bind, loadInvoice_bind, require_bind] at hrun
  obtain ⟨-, -, inv, hload, -, -, hrun⟩ := hrun
  cases resolution with
  | release =>
      unfold arbitrationCounted at hcounted
      rw [hload, Option.all_some] at hcounted
      exact releaseAs_exact (stands_load hload) hcounted hrun hs
  | refund =>
      have hclosed := (stands_load hload).of_terminal ((Bool.not_eq_true' _).mp hcounted)
      exact (arbiterRefund_level (stands_load hload) hclosed hrun).sameCount.exact hs

theorem setDisputeRecord_level {status : DisputeStatus}
    (hrun : setDisputeRecord id status s = .ok (v, t)) : Level s t := by
  have hnote : Framed Level (setDisputeRecord id status) := framed_note fun _ => rfl
  exact hnote.respects s v t hrun

/-- The administrator sends the invoice back to be released. -/
def outcomeReleases : DisputeOutcome → Bool
  | .release | .approved => true
  | .refund | .refunded => false

theorem resolveInvoiceDispute_exact {outcome : DisputeOutcome} (hcounted : outcomeReleases outcome = true)
    (hrun : resolveInvoiceDispute env id a outcome s = .ok (v, t)) (hs : Exact s) : Exact t := by
  simp only [resolveInvoiceDispute, requireNotPaused_bind, requireAuth_bind, loadInvoice_bind, require_bind,
    getEntry_bind, orPanic_bind] at hrun
  obtain ⟨-, -, inv, hload, hdisputed, _, -, -, hrun⟩ := hrun
  have hrelease : disputeRelease env id inv s = .ok (v, t) := by
    cases outcome with
    | release | approved => exact hrun
    | refund | refunded => cases hcounted
  obtain ⟨_, u, hrecord, hsave⟩ := bind_ok.1 hrelease
  have hrecorded := setDisputeRecord_level hrecord
  have hopen : inv.status.isTerminal = false := by
    rw [hdisputed]
    rfl
  have hsaved := ((stands_load hload).level hrecorded).save_open hopen hsave rfl rfl
  exact (hrecorded.trans hsaved).sameCount.exact hs

theorem endDispute_exact {status : DisputeStatus} (hload : (s.entries id).load = some inv)
    (hcounted : releaseCounted env s id inv = true) (hrun : endDispute env id inv status a s = .ok (v, t))
    (hs : Exact s) : Exact t := by
  obtain ⟨_, u₁, hrecord, hrun⟩ := bind_ok.1 hrun
  obtain ⟨_, u₂, hsave, hrun⟩ := bind_ok.1 hrun
  have hstands := stands_load hload
  have hrecorded := setDisputeRecord_level hrecord
  have hsaved := (hstands.level hrecorded).save (key_withDisputed false) hsave
  have hbefore := hrecorded.trans hsaved
  refine releaseAs_exact ((hstands.level hbefore).trans (congrArg some (key_withDisputed false).symm)) ?_ hrun
    (hbefore.sameCount.exact hs)
  obtain rfl := modifyEntry_ok.1 hrecord
  obtain ⟨-, rfl⟩ := saveInvoice_ok.1 hsave
  have hothers : ∀ m, m ≠ id → ((s.setEntry id { s.entries id with disputeRecord := some status }).setEntry id
      { (s.setEntry id { s.entries id with disputeRecord := some status }).entries id with
        invoice := some ((inv.withDisputed false).withPayments []) }).entries m = s.entries m := by
    intro m hm
    rw [Store.setEntry_ne _ hm, Store.setEntry_ne _ hm]
  unfold releaseCounted at hcounted ⊢
  rw [hbefore.clearAhead, groupSettled_congr _ hothers]
  · exact hcounted
  · unfold groupMembers
    rw [Store.setEntry_self, Store.setEntry_self]
    rfl

/-- The payers' dispute ends in a release with a count, or in a refund of an invoice in a terminal
state. -/
def payerOutcomeCounted (env : Env) (s : Store) (id : ℕ) (outcome : DisputeOutcome) : Bool :=
  if outcomeReleases outcome then (s.entries id).load.all (releaseCounted env s id) else !isOpen s id

theorem resolvePayerDispute_exact {outcome : DisputeOutcome}
    (hcounted : payerOutcomeCounted env s id outcome = true)
    (hrun : resolvePayerDispute env id a outcome s = .ok (v, t)) (hs : Exact s) : Exact t := by
  obtain ⟨inv, admin, hload, -, hrun⟩ := resolvePayerDispute_ok hrun
  unfold payerOutcomeCounted at hcounted
  rw [hload, Option.all_some] at hcounted
  have hcases : (releaseCounted env s id inv = true ∧ endDispute env id inv .resolved admin s = .ok (v, t)) ∨
      (isOpen s id = false ∧ payerDisputeRefund env id inv s = .ok (v, t)) := by
    cases outcome with
    | release | approved => exact .inl ⟨hcounted, hrun⟩
    | refund | refunded => exact .inr ⟨(Bool.not_eq_true' _).mp hcounted, hrun⟩
  rcases hcases with ⟨hrelease, hend⟩ | ⟨hclosed, hrefund⟩
  · exact endDispute_exact hload hrelease hend hs
  · obtain ⟨_, u₁, hrecord, hrun⟩ := bind_ok.1 hrefund
    obtain ⟨token, -, hrun⟩ := orPanic_bind.1 hrun
    obtain ⟨_, u₂, hback, hsave⟩ := bind_ok.1 hrun
    have hrefunds : Framed Level (refundTotals env id token (totalsOf inv.payments)) := by
      unfold refundTotals
      infer_instance
    have hbefore := (setDisputeRecord_level hrecord).trans (hrefunds.respects u₁ _ u₂ hback)
    have hterminal := (stands_load hload).of_terminal hclosed
    have hsaved := ((stands_load hload).level hbefore).save_terminal hterminal hsave rfl rfl
    exact (hbefore.trans hsaved).sameCount.exact hs

/-- An open invoice changes hands only from a creator to the same creator. -/
theorem saveCreator_sameCount {creator : Address} (hload : (s.entries id).load = some inv)
    (hsame : inv.status.isTerminal = true ∨ inv.creator = creator)
    (hrun : saveInvoice env id (inv.withCreator creator) s = .ok (v, t)) : SameCount s t := by
  obtain ⟨stored, hstored, rfl⟩ := Option.map_eq_some_iff.1 hload
  obtain ⟨-, rfl⟩ := saveInvoice_ok.1 hrun
  refine ⟨rfl, rfl, fun k => ?_⟩
  rcases eq_or_ne k id with rfl | hk
  · rw [Store.setEntry_self, hstored]
    refine congrArg some ?_
    rcases hsame with hterminal | rfl
    · have hclosed : stored.status.isTerminal = true := hterminal
      exact (if_pos hclosed).trans (if_pos hclosed).symm
    · rfl
  · rw [Store.setEntry_ne s hk]

theorem raiseDispute_level (hrun : raiseDispute env id a s = .ok (v, t)) : Level s t := by
  simp only [raiseDispute, requireNotPaused_bind, requireAuth_bind, loadInvoice_bind, require_bind] at hrun
  obtain ⟨-, -, inv, hload, -, -, -, hsave⟩ := hrun
  exact (stands_load hload).save (key_withDisputed true) hsave

theorem openDisputeRecord_level (hrun : openDisputeRecord env id s = .ok (v, t)) : Level s t := by
  have hnote : Framed Level (openDisputeRecord env id) := framed_note fun _ => rfl
  exact hnote.respects s v t hrun

theorem raiseInvoiceDispute_level (hrun : raiseInvoiceDispute env id a s = .ok (v, t)) : Level s t := by
  simp only [raiseInvoiceDispute, requireNotPaused_bind, requireAuth_bind, loadInvoice_bind, require_bind]
    at hrun
  obtain ⟨-, -, inv, hload, hpending, -, hrun⟩ := hrun
  obtain ⟨_, u, hrecord, hsave⟩ := bind_ok.1 hrun
  have hrecorded := openDisputeRecord_level hrecord
  have hopen : inv.status.isTerminal = false := by
    rw [hpending]
    rfl
  exact hrecorded.trans (((stands_load hload).level hrecorded).save_open hopen hsave rfl rfl)

theorem raisePayerDispute_level (hrun : raisePayerDispute env id a s = .ok (v, t)) : Level s t := by
  obtain ⟨inv, hload, -, -, hrun⟩ := raisePayerDispute_ok hrun
  obtain ⟨_, u, hsave, hrecord⟩ := bind_ok.1 hrun
  exact ((stands_load hload).save (key_withDisputed true) hsave).trans (openDisputeRecord_level hrecord)

end Others

/-! ## Runs -/

/-- The calls that begin, pay, end and hand over invoices, and any call that does none of it. -/
inductive CountCall where
  | create (creation : Creation)
  | cloneInvoice (creator : Address) (sourceId : ℕ) (overrides : CloneOverrides)
  | cloneInvoicePartial (creator : Address) (sourceId : ℕ) (indices : List ℕ) (overrides : CloneOverrides)
  | renewInvoice (creator : Address) (oldId deadline : ℕ)
  | rolloverInvoice (caller : Address) (id deadline : ℕ)
  | pay (payer : Address) (id : ℕ) (amount : ℤ) (nonce : ℕ) (donateOnFailure : Bool)
  | releaseInvoice (id : ℕ) (preimage : Option (List ℕ))
  | triggerScheduledRelease (id : ℕ)
  | retryFailedPayout (id : ℕ) (recipient : Address)
  | refund (id : ℕ)
  | claimRefund (payer : Address) (id : ℕ)
  | cancelInvoice (caller : Address) (id : ℕ)
  | autoResolve (id : ℕ)
  | raiseDispute (id : ℕ) (arbiter : Address)
  | resolveDispute (id : ℕ) (arbiter : Address) (resolution : ResolveAction)
  | raiseInvoiceDispute (id : ℕ) (disputer : Address)
  | resolveInvoiceDispute (id : ℕ) (admin : Address) (outcome : DisputeOutcome)
  | raisePayerDispute (id : ℕ) (payer : Address)
  | resolvePayerDispute (id : ℕ) (admin : Address) (outcome : DisputeOutcome)
  | expireDispute (id : ℕ)
  | deleteInvoice (caller : Address) (id : ℕ)
  | transferInvoice (id : ℕ) (newCreator : Address)
  | nominateNewCreator (caller : Address) (id : ℕ) (successor : Address)
  | acceptCreatorRole (successor : Address) (id : ℕ)
  | other (x : { x : SplitM Unit // Respects SameCount x })

def countStep (c : Env × CountCall) : CountM Unit :=
  match c.2 with
  | .create creation => onLedger (ignore (creation.run c.1))
  | .cloneInvoice creator sourceId overrides =>
      onLedger (ignore (cloneInvoice c.1 creator sourceId overrides))
  | .cloneInvoicePartial creator sourceId indices overrides =>
      onLedger (ignore (cloneInvoicePartial c.1 creator sourceId indices overrides))
  | .renewInvoice creator oldId deadline => onLedger (ignore (renewInvoice c.1 creator oldId deadline))
  | .rolloverInvoice caller id deadline => onLedger (ignore (rolloverInvoice c.1 caller id deadline))
  | .pay payer id amount nonce donate => onLedger (pay c.1 payer id amount nonce donate)
  | .releaseInvoice id preimage => onLedger (releaseInvoice c.1 id preimage)
  | .triggerScheduledRelease id => onLedger (triggerScheduledRelease c.1 id)
  | .retryFailedPayout id recipient => onLedger (retryFailedPayout c.1 id recipient)
  | .refund id => onLedger (refund c.1 id)
  | .claimRefund payer id => onLedger (claimRefund c.1 payer id)
  | .cancelInvoice caller id => onLedger (cancelInvoice c.1 caller id)
  | .autoResolve id => onLedger (autoResolve c.1 id)
  | .raiseDispute id arbiter => onLedger (raiseDispute c.1 id arbiter)
  | .resolveDispute id arbiter resolution => onLedger (resolveDispute c.1 id arbiter resolution)
  | .raiseInvoiceDispute id disputer => onLedger (raiseInvoiceDispute c.1 id disputer)
  | .resolveInvoiceDispute id admin outcome => onLedger (resolveInvoiceDispute c.1 id admin outcome)
  | .raisePayerDispute id payer => onLedger (raisePayerDispute c.1 id payer)
  | .resolvePayerDispute id admin outcome => onLedger (resolvePayerDispute c.1 id admin outcome)
  | .expireDispute id => onLedger (expireDispute c.1 id)
  | .deleteInvoice caller id => deleteInvoice c.1 caller id
  | .transferInvoice id newCreator => onLedger (transferInvoice c.1 id newCreator)
  | .nominateNewCreator caller id successor => nominateNewCreator c.1 caller id successor
  | .acceptCreatorRole successor id => acceptCreatorRole c.1 successor id
  | .other x => onLedger x.1

/-- The call counts what it does: no clone, rollover, deletion or refund of an open invoice, no renewal of
one that is in a terminal state, no new creator for an open invoice, and only releases and payments that
count. -/
def counted (s : Store) (c : Env × CountCall) : Bool :=
  match c.2 with
  | .create _ | .claimRefund .. | .cancelInvoice .. | .raiseDispute .. | .raiseInvoiceDispute ..
  | .raisePayerDispute .. | .nominateNewCreator .. | .other _ => true
  | .cloneInvoice .. | .cloneInvoicePartial .. | .rolloverInvoice .. | .deleteInvoice .. => false
  | .renewInvoice _ oldId _ => isOpen s oldId
  | .pay _ id amount _ _ => (s.entries id).load.all (paymentCounted c.1 s id amount)
  | .releaseInvoice id _ | .triggerScheduledRelease id | .expireDispute id =>
      (s.entries id).load.all (releaseCounted c.1 s id)
  | .retryFailedPayout id recipient =>
      decide ((s.entries id).failedPayouts.filter (· ≠ recipient) ≠ []) || isOpen s id
  | .refund id => (s.entries id).load.all (·.auctionOnExpiry)
  | .autoResolve id => (s.entries id).load.all (resolutionCounted c.1 s id)
  | .resolveDispute id _ resolution => arbitrationCounted c.1 s id resolution
  | .resolveInvoiceDispute _ _ outcome => outcomeReleases outcome
  | .resolvePayerDispute id _ outcome => payerOutcomeCounted c.1 s id outcome
  | .transferInvoice id newCreator => (s.entries id).load.all fun inv => decide (inv.creator = newCreator)
  | .acceptCreatorRole successor id =>
      (s.entries id).load.all fun inv => inv.status.isTerminal || decide (inv.creator = successor)

section Runs

variable {s t : CountStore} {u w : Store} {v : Unit} {env : Env}

theorem transferInvoice_exact {id : ℕ} {newCreator : Address}
    (hcounted : (u.entries id).load.all (fun inv => decide (inv.creator = newCreator)) = true)
    (hrun : transferInvoice env id newCreator u = .ok (v, w)) (hs : Exact u) : Exact w := by
  simp only [transferInvoice, requireNotPaused_bind, loadInvoice_bind, require_bind, requireAuth_bind] at hrun
  obtain ⟨-, inv, hload, -, -, -, hsave⟩ := hrun
  rw [hload, Option.all_some] at hcounted
  exact (saveCreator_sameCount hload (.inr (of_decide_eq_true hcounted)) hsave).exact hs

theorem acceptCreatorRole_exact {id : ℕ} {successor : Address}
    (hcounted : (s.ledger.entries id).load.all
      (fun inv => inv.status.isTerminal || decide (inv.creator = successor)) = true)
    (hrun : acceptCreatorRole env successor id s = .ok (v, t)) (hs : Exact s.ledger) : Exact t.ledger := by
  obtain ⟨-, hrun⟩ := requireAuth_bind.1 hrun
  obtain ⟨pending, -, hrun⟩ := orPanic_bind.1 (get_bind.1 hrun)
  obtain ⟨-, hrun⟩ := require_bind.1 hrun
  obtain ⟨inv, u, hread, hrun⟩ := focus_bind.1 hrun
  obtain ⟨hload, rfl⟩ := loadInvoice_ok.1 hread
  obtain ⟨-, hrun⟩ := require_bind.1 hrun
  obtain ⟨_, w, hsave, hrun⟩ := focus_bind.1 hrun
  obtain rfl := modify_ok.1 hrun
  rw [hload, Option.all_some, Bool.or_eq_true, decide_eq_true_iff] at hcounted
  exact (saveCreator_sameCount hload hcounted hsave).exact hs

theorem nominateNewCreator_ledger {id : ℕ} {caller successor : Address}
    (hrun : nominateNewCreator env caller id successor s = .ok (v, t)) : t.ledger = s.ledger := by
  obtain ⟨-, hrun⟩ := requireAuth_bind.1 hrun
  obtain ⟨inv, u, hload, hrun⟩ := focus_bind.1 hrun
  obtain ⟨-, rfl⟩ := loadInvoice_ok.1 hload
  simp only [require_bind] at hrun
  obtain rfl := modify_ok.1 hrun.2.2
  rfl

/-- A call on the ledger that is counted keeps the count exact. -/
theorem onLedger_exact {x : SplitM Unit} (hx : ∀ u, x s.ledger = .ok ((), u) → Exact u)
    (hrun : onLedger x s = .ok (v, t)) : Exact t.ledger := by
  obtain ⟨u, hcall, rfl⟩ := focus_ok.1 hrun
  exact hx u hcall

theorem countStep_exact {c : Env × CountCall} (hcounted : counted s.ledger c = true)
    (hrun : countStep c s = .ok (v, t)) (hs : Exact s.ledger) : Exact t.ledger := by
  obtain ⟨env, call⟩ := c
  cases call with
  | create creation =>
      refine onLedger_exact (fun u hcall => ?_) hrun
      obtain ⟨id, hcreate⟩ := ignore_ok.1 hcall
      exact (Creation.begins hcreate).exact hs
  | cloneInvoice | cloneInvoicePartial | rolloverInvoice | deleteInvoice => cases hcounted
  | renewInvoice creator oldId deadline =>
      refine onLedger_exact (fun u hcall => ?_) hrun
      obtain ⟨id, hrenew⟩ := ignore_ok.1 hcall
      obtain ⟨opener, hreplaces⟩ := renewInvoice_replaces hs hcounted hrenew
      exact hreplaces.exact hs
  | pay payer id amount nonce donate =>
      exact onLedger_exact (fun u hcall => pay_exact hcounted hcall hs) hrun
  | releaseInvoice id preimage =>
      exact onLedger_exact (fun u hcall => releaseInvoice_exact hcounted hcall hs) hrun
  | triggerScheduledRelease id =>
      exact onLedger_exact (fun u hcall => triggerScheduledRelease_exact hcounted hcall hs) hrun
  | retryFailedPayout id recipient =>
      refine onLedger_exact (fun u hcall => retryFailedPayout_exact (fun hlast => ?_) hcall hs) hrun
      have hretry : (decide ((s.ledger.entries id).failedPayouts.filter (· ≠ recipient) ≠ []) ||
        isOpen s.ledger id) = true := hcounted
      rw [hlast] at hretry
      exact hretry
  | refund id => exact onLedger_exact (fun u hcall => refund_exact hcounted hcall hs) hrun
  | claimRefund payer id =>
      exact onLedger_exact (fun u hcall => (claimRefund_level hcall).sameCount.exact hs) hrun
  | cancelInvoice caller id => exact onLedger_exact (fun u hcall => cancelInvoice_exact hcall hs) hrun
  | autoResolve id => exact onLedger_exact (fun u hcall => autoResolve_exact hcounted hcall hs) hrun
  | raiseDispute id arbiter =>
      exact onLedger_exact (fun u hcall => (raiseDispute_level hcall).sameCount.exact hs) hrun
  | resolveDispute id arbiter resolution =>
      exact onLedger_exact (fun u hcall => resolveDispute_exact hcounted hcall hs) hrun
  | raiseInvoiceDispute id disputer =>
      exact onLedger_exact (fun u hcall => (raiseInvoiceDispute_level hcall).sameCount.exact hs) hrun
  | resolveInvoiceDispute id admin outcome =>
      exact onLedger_exact (fun u hcall => resolveInvoiceDispute_exact hcounted hcall hs) hrun
  | raisePayerDispute id payer =>
      exact onLedger_exact (fun u hcall => (raisePayerDispute_level hcall).sameCount.exact hs) hrun
  | resolvePayerDispute id admin outcome =>
      exact onLedger_exact (fun u hcall => resolvePayerDispute_exact hcounted hcall hs) hrun
  | expireDispute id =>
      refine onLedger_exact (fun u hcall => ?_) hrun
      obtain ⟨inv, hload, -, hend⟩ := expireDispute_ok hcall
      have hrelease : (s.ledger.entries id).load.all (releaseCounted env s.ledger id) = true := hcounted
      rw [hload, Option.all_some] at hrelease
      exact endDispute_exact hload hrelease hend hs
  | transferInvoice id newCreator =>
      exact onLedger_exact (fun u hcall => transferInvoice_exact hcounted hcall hs) hrun
  | nominateNewCreator caller id successor =>
      rw [nominateNewCreator_ledger hrun]
      exact hs
  | acceptCreatorRole successor id => exact acceptCreatorRole_exact hcounted hrun hs
  | other x => exact onLedger_exact (fun u hcall => (x.2 s.ledger () u hcall).exact hs) hrun

end Runs

/-- The calls of a run that return count what they do. -/
def Counted (s : CountStore) (c : Env × CountCall) : Prop := counted s.ledger c = true

theorem exact_runAll {calls : List (Env × CountCall)} (h : Along Counted countStep {} calls) :
    Exact (runAll countStep {} calls).ledger := by
  refine runAll_induction (I := fun s : CountStore => Exact s.ledger)
    (fun s c v t hs hcounted hrun => countStep_exact hcounted hrun hs) ?_ h
  exact ⟨fun creator => rfl, fun k _ => rfl⟩

/-- In every run of a new contract whose returning calls count what they do, the counter of every creator
is at all times the number of the creator's open invoices, and the cap lets a creator through exactly if
the creator has fewer open invoices than the cap. -/
theorem open_count_exact {calls : List (Env × CountCall)} (h : Along Counted countStep {} calls)
    {before : List (Env × CountCall)} (hbefore : before <+: calls) (creator : Address) :
    let s := (runAll countStep {} before).ledger
    s.stats.openInvoices creator = openNumber s creator ∧
      ∀ env : Env, (∃ u, countCreation env creator s = .ok ((), u)) ↔
        openNumber s creator < env.config.maxOpenInvoices := by
  intro s
  have hexact : Exact s := exact_runAll (h.of_isPrefix hbefore)
  refine ⟨hexact.count creator, fun env => ?_⟩
  rw [countCreation_returns_iff, hexact.count creator]

/-- Of three invoices of creator 2 the first is paid in full and released, the second is cancelled and the
third is renewed after its deadline. -/
def countedCalls : List (Env × CountCall) :=
  [(sampleEnv 10 0, .create { draft := sampleInvoice }), (sampleEnv 11 0, .create { draft := sampleInvoice }),
    (sampleEnv 12 0, .pay 20 1 100 0 false), (sampleEnv 13 0, .cancelInvoice 2 2),
    (sampleEnv 20000 0, .create { draft := { sampleInvoice with deadline := 30000 } }),
    (sampleEnv 30001 0, .renewInvoice 2 3 40000)]

theorem counted_sample : Along Counted countStep {} countedCalls :=
  ⟨fun _ => (by decide +kernel : counted _ _ = true), fun _ => (by decide +kernel : counted _ _ = true),
    fun _ => (by decide +kernel : counted _ _ = true), fun _ => (by decide +kernel : counted _ _ = true),
    fun _ => (by decide +kernel : counted _ _ = true), fun _ => (by decide +kernel : counted _ _ = true),
    trivial⟩

/-- The invoice renewed last is the one that creator 2 still has open. -/
theorem open_count_exact_sample :
    openNumber (runAll countStep {} countedCalls).ledger 2 = 1 ∧
      (runAll countStep {} countedCalls).ledger.stats.openInvoices 2 =
        openNumber (runAll countStep {} countedCalls).ledger 2 :=
  ⟨by decide +kernel, (open_count_exact counted_sample (List.prefix_refl _) 2).1⟩

/-- A creation, and a refund after the deadline. -/
def refundedCalls : List (Env × CountCall) :=
  [(sampleEnv 10 0, .create { draft := sampleInvoice }), (sampleEnv 2001 0, .refund 1)]

/-- The refunded invoice stays on the counter of its creator, who has no open invoice left. -/
theorem refunded_stays_counted :
    ¬∀ (calls : List (Env × CountCall)) (creator : Address),
      (runAll countStep {} calls).ledger.stats.openInvoices creator =
        openNumber (runAll countStep {} calls).ledger creator := by
  intro h
  have hcount : (runAll countStep {} refundedCalls).ledger.stats.openInvoices 2 = 1 := by decide +kernel
  have hopen : openNumber (runAll countStep {} refundedCalls).ledger 2 = 0 := by decide +kernel
  rw [h, hopen] at hcount
  cases hcount

end StellarSplit.Split.OpenCount
