import Mathlib.Logic.Encodable.Basic
import Mathlib.Logic.Equiv.List
import StellarSplit.Split.Lock

/-!
# Operations that can be undone

A change of the deadline, a change of the amounts and a cancellation are
recorded with the fields they may touch. An undo asks for these fields to be as
the operation left them, by a hash, and writes them back as they were before
it; everything else about the invoice is as the undo finds it.
-/

namespace StellarSplit.Split.Undo

open Exec Function Machine

/-! ## The contract -/

inductive ReversibleOpKind where
  | updateDeadline | updateAmounts | cancel
deriving DecidableEq, Repr

inductive ReversibleOpStatus where
  | recorded | undone | expired
deriving DecidableEq, Repr

structure OperationSnapshot where
  deadline : ℕ
  amounts : List ℤ
  baseAmounts : List ℤ
  status : InvoiceStatus
  funded : ℤ
  paymentCount : ℕ
deriving DecidableEq, Repr

structure ReversibleOp where
  invoiceId : ℕ
  kind : ReversibleOpKind
  actor : Address
  before : OperationSnapshot
  afterHash : Hash
  createdAt : ℕ
  expiresAt : ℕ
  status : ReversibleOpStatus := .recorded
  undoneAt : Option ℕ := none
deriving DecidableEq, Repr

/-- The invoices with the operations recorded beside them. -/
structure UndoStore where
  contract : Store := {}
  rollbackCounter : ℕ := 0
  ops : ℕ → Option ReversibleOp := fun _ => none
  invoiceOps : ℕ → List ℕ := fun _ => []

/-- The undo window in seconds is read beside the environment. -/
structure UndoEnv extends Env where
  rollbackWindow : ℕ := 3600

abbrev UndoM (α : Type) := Call UndoStore SplitFault α

/-- A call on the invoices. -/
def onContract {α : Type} (x : SplitM α) : UndoM α := fun s =>
  (x s.contract).map fun r => (r.1, { s with contract := r.2 })

def snapshotOperationState (inv : Invoice) : OperationSnapshot where
  deadline := inv.deadline
  amounts := inv.amounts
  baseAmounts := inv.baseAmounts
  status := inv.status
  funded := inv.funded
  paymentCount := inv.payments.length

section Calls

variable (sha256 : OperationSnapshot → Hash)

def recordReversibleOp (env : UndoEnv) (id : ℕ) (inv : Invoice) (kind : ReversibleOpKind)
    (actor : Address) (before : OperationSnapshot) : UndoM ℕ := do
  let s ← get
  require (s.rollbackCounter + 1 ≤ u64Max) .overflow
  set { s with
    rollbackCounter := s.rollbackCounter + 1
    ops := update s.ops (s.rollbackCounter + 1) (some {
      invoiceId := id
      kind := kind
      actor := actor
      before := before
      afterHash := sha256 (snapshotOperationState inv)
      createdAt := env.now
      expiresAt := satAddU64 env.now env.rollbackWindow })
    invoiceOps := update s.invoiceOps id (s.invoiceOps id ++ [s.rollbackCounter + 1]) }
  pure (s.rollbackCounter + 1)

/-- What the reversible operations share: a change of a pending invoice by its creator or a
co-creator, recorded with the fields from before it. -/
def changeReversibly (env : UndoEnv) (caller : Address) (id : ℕ) (kind : ReversibleOpKind)
    (check : Invoice → SplitM Unit) (change : Invoice → Invoice) : UndoM ℕ := do
  onContract (requireNotPaused env.toEnv)
  requireAuth env.toLedger caller
  let inv ← onContract (loadInvoice id)
  require (inv.creator = caller ∨ caller ∈ inv.coCreators)
    (.panic "NotAuthorized: caller is not the creator or a co-creator")
  require (inv.status = .pending) (.panic "invoice not pending")
  onContract (check inv)
  onContract (saveInvoice env.toEnv id (change inv))
  recordReversibleOp sha256 env id (change inv) kind caller (snapshotOperationState inv)

def reversibleUpdateDeadline (env : UndoEnv) (caller : Address) (id newDeadline : ℕ) : UndoM ℕ :=
  changeReversibly sha256 env caller id .updateDeadline
    (fun _ => require (env.now < newDeadline) (.panic "deadline must be in the future"))
    fun inv => inv.withDeadline newDeadline

def checkNewAmounts (newAmounts : List ℤ) (inv : Invoice) : SplitM Unit := do
  require (inv.funded = 0) (.panic "invoice already funded")
  require (newAmounts.length = inv.recipients.length) (.panic "amounts length mismatch")
  require (∀ a ∈ newAmounts, 0 < a) (.panic "amount must be positive")

def reversibleUpdateAmounts (env : UndoEnv) (caller : Address) (id : ℕ) (newAmounts : List ℤ) :
    UndoM ℕ :=
  changeReversibly sha256 env caller id .updateAmounts (checkNewAmounts newAmounts)
    fun inv => { inv with amounts := newAmounts, baseAmounts := newAmounts }

def reversibleCancelInvoice (env : UndoEnv) (caller : Address) (id : ℕ) : UndoM ℕ :=
  changeReversibly sha256 env caller id .cancel
    (fun inv => require (inv.funded = 0) (.panic "invoice already funded"))
    fun inv => inv.withStatus .cancelled

/-- What an undo writes back. -/
def restore (before : OperationSnapshot) (inv : Invoice) : Invoice :=
  { inv with
    deadline := before.deadline
    amounts := before.amounts
    baseAmounts := before.baseAmounts
    status := before.status }

def ReversibleOp.undoneBy (op : ReversibleOp) (now : ℕ) : ReversibleOp :=
  { op with status := .undone, undoneAt := some now }

def undoOperation (env : UndoEnv) (caller : Address) (opId : ℕ) : UndoM Unit := do
  onContract (requireNotPaused env.toEnv)
  requireAuth env.toLedger caller
  let s ← get
  let op ← orPanic (s.ops opId) "operation not found"
  require (op.status = .recorded) (.panic "operation not undoable")
  require (env.now ≤ op.expiresAt) (.panic "rollback window elapsed")
  let inv ← onContract (loadInvoice op.invoiceId)
  require (caller = op.actor ∨ caller = inv.creator) (.panic "not authorized to undo")
  require (sha256 (snapshotOperationState inv) = op.afterHash) (.panic "invoice changed since operation")
  require (op.before.amounts.length = inv.recipients.length)
    (.panic "snapshot inconsistent with invoice")
  onContract (saveInvoice env.toEnv op.invoiceId (restore op.before inv))
  modify fun s => { s with ops := update s.ops opId (some (op.undoneBy env.now)) }

/-! ## Runs -/

inductive ReversibleCall where
  | updateDeadline (id newDeadline : ℕ)
  | updateAmounts (id : ℕ) (newAmounts : List ℤ)
  | cancelInvoice (id : ℕ)

def ReversibleCall.invoiceId : ReversibleCall → ℕ
  | .updateDeadline id _ | .updateAmounts id _ | .cancelInvoice id => id

def reversibleStep (env : UndoEnv) (caller : Address) : ReversibleCall → UndoM ℕ
  | .updateDeadline id newDeadline => reversibleUpdateDeadline sha256 env caller id newDeadline
  | .updateAmounts id newAmounts => reversibleUpdateAmounts sha256 env caller id newAmounts
  | .cancelInvoice id => reversibleCancelInvoice sha256 env caller id

/-- Reversible operations, undos, and whatever else is done to the invoices. -/
inductive UndoCall where
  | reversible (caller : Address) (call : ReversibleCall)
  | undo (caller : Address) (opId : ℕ)
  | ordinary (call : SplitM Unit)

def undoStep (c : UndoEnv × UndoCall) : UndoM Unit :=
  match c.2 with
  | .reversible caller call => ignore (reversibleStep sha256 c.1 caller call)
  | .undo caller opId => undoOperation sha256 c.1 caller opId
  | .ordinary call => onContract call

end Calls

/-! ## What the calls do -/

variable {sha256 : OperationSnapshot → Hash} {env : UndoEnv} {caller : Address} {s t u : UndoStore}
  {v : Unit} {id k : ℕ} {op : ReversibleOp}

theorem onContract_ok {α : Type} {x : SplitM α} {a : α} :
    onContract x s = .ok (a, t) ↔ ∃ c, x s.contract = .ok (a, c) ∧ t = { s with contract := c } := by
  unfold onContract
  cases hx : x s.contract with
  | error e => simp [Except.map]
  | ok r =>
      obtain ⟨b, c⟩ := r
      simp only [Except.map, Except.ok.injEq, Prod.mk.injEq]
      constructor
      · rintro ⟨rfl, rfl⟩
        exact ⟨c, ⟨rfl, rfl⟩, rfl⟩
      · rintro ⟨_, ⟨rfl, rfl⟩, rfl⟩
        exact ⟨rfl, rfl⟩

theorem onContract_bind {α β : Type} {x : SplitM α} {f : α → UndoM β} {r : β × UndoStore} :
    (onContract x >>= f) s = .ok r ↔
      ∃ a c, x s.contract = .ok (a, c) ∧ f a { s with contract := c } = .ok r := by
  simp only [bind_ok, onContract_ok]
  constructor
  · rintro ⟨a, _, ⟨c, hx, rfl⟩, hf⟩
    exact ⟨a, c, hx, hf⟩
  · rintro ⟨a, c, hx, hf⟩
    exact ⟨a, _, ⟨c, hx, rfl⟩, hf⟩

/-- A check of the invoices that changes nothing. -/
theorem onContract_reads {α β : Type} {x : SplitM α} {f : α → UndoM β} {r : β × UndoStore}
    (hx : ∀ c a c', x c = .ok (a, c') → c = c') (hrun : (onContract x >>= f) s = .ok r) :
    ∃ a, x s.contract = .ok (a, s.contract) ∧ f a s = .ok r := by
  obtain ⟨a, c, hread, hrest⟩ := onContract_bind.1 hrun
  obtain rfl := hx s.contract a c hread
  exact ⟨a, hread, hrest⟩

/-- What a reversible operation does: it stores the changed invoice, and records the fields from before
and a hash of those it leaves. -/
structure Operated (sha256 : OperationSnapshot → Hash) (id k : ℕ) (op : ReversibleOp)
    (inv changed : Invoice) (s t : UndoStore) : Prop where
  load : (s.contract.entries id).load = some inv
  result : (t.contract.entries id).load = some changed
  invoice : op.invoiceId = id
  before : op.before = snapshotOperationState inv
  afterHash : op.afterHash = sha256 (snapshotOperationState changed)
  fresh : k = s.rollbackCounter + 1
  counter : t.rollbackCounter = k
  ops : t.ops = update s.ops k (some op)

theorem load_saved {c : Store} {inv changed : Invoice} (hload : (c.entries id).load = some inv)
    (hpayments : changed.payments = inv.payments) :
    ((c.setEntry id { c.entries id with invoice := some (changed.withPayments []) }).entries id).load =
      some changed := by
  obtain ⟨stored, -, rfl⟩ := Option.map_eq_some_iff.1 hload
  have hshards : changed.payments = (c.entries id).payments := hpayments
  rw [Store.setEntry_self]
  change some (changed.withPayments (c.entries id).payments) = some changed
  rw [← hshards]
  rfl

theorem changeReversibly_ok {kind : ReversibleOpKind} {check : Invoice → SplitM Unit}
    {change : Invoice → Invoice}
    (hrun : changeReversibly sha256 env caller id kind check change s = .ok (k, t))
    (hcheck : ∀ inv c v c', check inv c = .ok (v, c') → c = c')
    (hpayments : ∀ inv, (change inv).payments = inv.payments) :
    ∃ inv op, Operated sha256 id k op inv (change inv) s t := by
  unfold changeReversibly at hrun
  obtain ⟨_, -, hrun⟩ := onContract_reads (fun _ _ _ h => (requireNotPaused_ok.1 h).2) hrun
  obtain ⟨-, hrun⟩ := requireAuth_bind.1 hrun
  obtain ⟨inv, hread, hrun⟩ := onContract_reads (fun _ _ _ h => (loadInvoice_ok.1 h).2) hrun
  obtain ⟨-, hrun⟩ := require_bind.1 hrun
  obtain ⟨-, hrun⟩ := require_bind.1 hrun
  obtain ⟨_, -, hrun⟩ := onContract_reads (hcheck inv) hrun
  obtain ⟨_, c, hsave, hrun⟩ := onContract_bind.1 hrun
  obtain ⟨-, rfl⟩ := saveInvoice_ok.1 hsave
  simp only [recordReversibleOp, get_bind, require_bind] at hrun
  obtain ⟨-, hrun⟩ := hrun
  obtain ⟨_, w, hwrite, hrun⟩ := bind_ok.1 hrun
  obtain ⟨rfl, rfl⟩ := pure_ok.1 hrun
  obtain rfl := set_ok.1 hwrite
  have hload := (loadInvoice_ok.1 hread).1
  exact ⟨inv, _, hload, load_saved hload (hpayments inv), rfl, rfl, rfl, rfl, rfl, rfl⟩

theorem checkNewAmounts_reads {newAmounts : List ℤ} (inv : Invoice) (c : Store) (v : Unit) (c' : Store)
    (h : checkNewAmounts newAmounts inv c = .ok (v, c')) : c = c' := by
  simp only [checkNewAmounts, require_bind] at h
  exact (require_ok.1 h.2.2).2

/-- A reversible operation leaves what was funded and the payments alone. -/
theorem reversibleStep_ok {call : ReversibleCall}
    (hrun : reversibleStep sha256 env caller call s = .ok (k, t)) :
    ∃ inv changed op, Operated sha256 call.invoiceId k op inv changed s t ∧
      changed.funded = inv.funded ∧ changed.payments = inv.payments := by
  cases call with
  | updateDeadline id newDeadline =>
      simp only [reversibleStep, reversibleUpdateDeadline] at hrun
      obtain ⟨inv, op, hoperated⟩ :=
        changeReversibly_ok hrun (fun _ _ _ _ h => (require_ok.1 h).2) fun _ => rfl
      exact ⟨inv, _, op, hoperated, rfl, rfl⟩
  | updateAmounts id newAmounts =>
      simp only [reversibleStep, reversibleUpdateAmounts] at hrun
      obtain ⟨inv, op, hoperated⟩ := changeReversibly_ok hrun checkNewAmounts_reads fun _ => rfl
      exact ⟨inv, _, op, hoperated, rfl, rfl⟩
  | cancelInvoice id =>
      simp only [reversibleStep, reversibleCancelInvoice] at hrun
      obtain ⟨inv, op, hoperated⟩ :=
        changeReversibly_ok hrun (fun _ _ _ _ h => (require_ok.1 h).2) fun _ => rfl
      exact ⟨inv, _, op, hoperated, rfl, rfl⟩

/-- What an undo asks for, and what it leaves. -/
structure Undoes (sha256 : OperationSnapshot → Hash) (now k : ℕ) (op : ReversibleOp) (inv : Invoice)
    (s t : UndoStore) : Prop where
  stored : s.ops k = some op
  recorded : op.status = .recorded
  load : (s.contract.entries op.invoiceId).load = some inv
  unchanged : sha256 (snapshotOperationState inv) = op.afterHash
  contract : t.contract = s.contract.setEntry op.invoiceId
    { s.contract.entries op.invoiceId with invoice := some ((restore op.before inv).withPayments []) }
  counter : t.rollbackCounter = s.rollbackCounter
  ops : t.ops = update s.ops k (some (op.undoneBy now))

theorem undoOperation_ok (hrun : undoOperation sha256 env caller k s = .ok (v, t)) :
    ∃ op inv, Undoes sha256 env.now k op inv s t := by
  unfold undoOperation at hrun
  obtain ⟨_, -, hrun⟩ := onContract_reads (fun _ _ _ h => (requireNotPaused_ok.1 h).2) hrun
  simp only [requireAuth_bind, get_bind, orPanic_bind, require_bind] at hrun
  obtain ⟨-, op, hop, hrecorded, -, hrun⟩ := hrun
  obtain ⟨inv, hload, hrun⟩ := onContract_reads (fun _ _ _ h => (loadInvoice_ok.1 h).2) hrun
  simp only [require_bind] at hrun
  obtain ⟨-, hsame, -, hrun⟩ := hrun
  obtain ⟨_, c, hsave, hrun⟩ := onContract_bind.1 hrun
  obtain ⟨-, rfl⟩ := saveInvoice_ok.1 hsave
  obtain rfl := modify_ok.1 hrun
  exact ⟨op, inv, hop, hrecorded, (loadInvoice_ok.1 hload).1, hsame, rfl, rfl, rfl⟩

/-! ## Records along a run -/

/-- The record of an operation without whether it was undone. -/
def ReversibleOp.made (op : ReversibleOp) : ReversibleOp := { op with status := .recorded, undoneAt := none }

/-- The operation was recorded, and if it has been undone it stays so. -/
structure Kept (k : ℕ) (op : ReversibleOp) (s : UndoStore) : Prop where
  known : k ≤ s.rollbackCounter
  stored : ∃ op', s.ops k = some op' ∧ op'.made = op.made ∧ (op.status = .undone → op'.status = .undone)

theorem Kept.update {other : ℕ} {new : ReversibleOp} (h : Kept k op s) (hne : k ≠ other)
    (hcounter : s.rollbackCounter ≤ t.rollbackCounter) (hops : t.ops = update s.ops other (some new)) :
    Kept k op t := by
  refine ⟨h.known.trans hcounter, ?_⟩
  rw [hops, update_of_ne hne]
  exact h.stored

theorem Kept.step {c : UndoEnv × UndoCall} (h : Kept k op s)
    (hrun : undoStep sha256 c s = .ok (v, t)) : Kept k op t := by
  obtain ⟨env, call⟩ := c
  cases call with
  | reversible caller call =>
      obtain ⟨other, hstep⟩ := ignore_ok.1 hrun
      obtain ⟨inv, changed, new, hoperated, -, -⟩ := reversibleStep_ok hstep
      have hknown := h.known
      have hfresh := hoperated.fresh
      have hcounter := hoperated.counter
      exact h.update (by omega) (by omega) hoperated.ops
  | undo caller other =>
      obtain ⟨op', inv, hundoes⟩ := undoOperation_ok hrun
      by_cases hother : k = other
      · subst hother
        obtain ⟨stored, hstored, hmade, -⟩ := h.stored
        obtain rfl : stored = op' := Option.some.inj (hstored.symm.trans hundoes.stored)
        refine ⟨?_, stored.undoneBy env.now, ?_, hmade, fun _ => rfl⟩
        · rw [hundoes.counter]
          exact h.known
        · rw [hundoes.ops, update_self]
      · exact h.update hother hundoes.counter.ge hundoes.ops
  | ordinary call =>
      obtain ⟨c, -, rfl⟩ := onContract_ok.1 hrun
      exact ⟨h.known, h.stored⟩

theorem Kept.run (h : Kept k op s) (calls : List (UndoEnv × UndoCall)) :
    Kept k op (runAll (undoStep sha256) s calls) :=
  runAll_invariant (fun _ _ _ _ hkept hstep => hkept.step hstep) h calls

/-- An operation that was undone is not undone again. -/
theorem not_undone_again (h : Kept k op s) (hundone : op.status = .undone) :
    undoOperation sha256 env caller k s ≠ .ok (v, t) := by
  intro hrun
  obtain ⟨op', inv, hundoes⟩ := undoOperation_ok hrun
  obtain ⟨stored, hstored, -, hstatus⟩ := h.stored
  obtain rfl : stored = op' := Option.some.inj (hstored.symm.trans hundoes.stored)
  have hrecorded := hundoes.recorded
  rw [hstatus hundone] at hrecorded
  cases hrecorded

/-! ## Undos -/

/-- An operation is undone only while the recorded fields are as it left them. The undo brings them
back to what they were before the operation, leaves the rest of the invoice and all other invoices as
they are, and is not made again. -/
theorem undo_restores_tracked (hinj : Injective sha256) {call : ReversibleCall}
    (hop : reversibleStep sha256 env caller call s = .ok (k, t)) (calls : List (UndoEnv × UndoCall))
    {env' : UndoEnv} {caller' : Address}
    (hundo : undoOperation sha256 env' caller' k (runAll (undoStep sha256) t calls) = .ok (v, u)) :
    ∃ inv changed inv', (s.contract.entries call.invoiceId).load = some inv ∧
      (t.contract.entries call.invoiceId).load = some changed ∧
      ((runAll (undoStep sha256) t calls).contract.entries call.invoiceId).load = some inv' ∧
      snapshotOperationState inv' = snapshotOperationState changed ∧
      (u.contract.entries call.invoiceId).load = some (restore (snapshotOperationState inv) inv') ∧
      snapshotOperationState (restore (snapshotOperationState inv) inv') = snapshotOperationState inv ∧
      (∀ j, j ≠ call.invoiceId →
        u.contract.entries j = (runAll (undoStep sha256) t calls).contract.entries j) ∧
      ∀ later env'' caller'' w,
        undoOperation sha256 env'' caller'' k (runAll (undoStep sha256) u later) ≠ .ok w := by
  obtain ⟨inv, changed, op, hoperated, hfunded, hpayments⟩ := reversibleStep_ok hop
  have hkept : Kept k op (runAll (undoStep sha256) t calls) := by
    refine Kept.run ⟨hoperated.counter.ge, op, ?_, rfl, id⟩ calls
    rw [hoperated.ops, update_self]
  obtain ⟨op', inv', hundoes⟩ := undoOperation_ok hundo
  obtain ⟨stored, hstored, hmade, -⟩ := hkept.stored
  obtain rfl : stored = op' := Option.some.inj (hstored.symm.trans hundoes.stored)
  have hid : stored.invoiceId = call.invoiceId :=
    (congrArg ReversibleOp.invoiceId hmade).trans hoperated.invoice
  have hbefore : stored.before = snapshotOperationState inv :=
    (congrArg ReversibleOp.before hmade).trans hoperated.before
  have hafter : stored.afterHash = sha256 (snapshotOperationState changed) :=
    (congrArg ReversibleOp.afterHash hmade).trans hoperated.afterHash
  have hsame : snapshotOperationState inv' = snapshotOperationState changed :=
    hinj (hundoes.unchanged.trans hafter)
  have hload := hundoes.load
  have hcontract := hundoes.contract
  rw [hid] at hload hcontract
  rw [hbefore] at hcontract
  refine ⟨inv, changed, inv', hoperated.load, hoperated.result, hload, hsame, ?_, ?_, fun j hj => ?_, ?_⟩
  · rw [hcontract]
    exact load_saved hload rfl
  · have hkeptFunded : inv'.funded = inv.funded :=
      (congrArg OperationSnapshot.funded hsame).trans hfunded
    have hkeptCount : inv'.payments.length = inv.payments.length :=
      (congrArg OperationSnapshot.paymentCount hsame).trans (congrArg List.length hpayments)
    simp only [snapshotOperationState, restore, hkeptFunded, hkeptCount]
  · rw [hcontract]
    exact Store.setEntry_ne _ hj _
  · rintro later env'' caller'' ⟨w, r⟩ hagain
    have hspent : Kept k (stored.undoneBy env'.now) (runAll (undoStep sha256) u later) := by
      refine Kept.run ⟨?_, _, ?_, rfl, id⟩ later
      · rw [hundoes.counter]
        exact hkept.known
      · rw [hundoes.ops, update_self]
    exact not_undone_again hspent rfl hagain

/-- An invoice with an arbiter, and no operation recorded yet. -/
def arbitratedStore : UndoStore where
  contract := sampleStore { sampleInvoice with baseAmounts := [50, 50], arbiter := some 30 } []

def sampleUndoEnv (now : ℕ) : UndoEnv := { sampleEnv now 0 with }

/-- A hash that tells all snapshots apart. -/
def sampleSha256 (x : OperationSnapshot) : Hash :=
  Encodable.encode (x.deadline, x.amounts, x.baseAmounts, x.status.ctorIdx, x.funded, x.paymentCount)

theorem sampleSha256_injective : Injective sampleSha256 := by
  intro x y h
  have hfields := Encodable.encode_injective h
  simp only [Prod.mk.injEq] at hfields
  obtain ⟨hdeadline, hamounts, hbase, hstatus, hfunded, hcount⟩ := hfields
  have hsame : x.status = y.status := by
    generalize x.status = a, y.status = b at hstatus ⊢
    cases a <;> cases b <;> first | rfl | cases hstatus
  cases x
  cases y
  simp_all

/-- The deadline is moved, and the arbiter raises a dispute. -/
def movedDeadline : UndoStore :=
  commit (reversibleStep sampleSha256 (sampleUndoEnv 10) 2 (.updateDeadline 1 2000)) arbitratedStore

def disputedSince : List (UndoEnv × UndoCall) :=
  [(sampleUndoEnv 11, .ordinary (raiseDispute (sampleEnv 11 0) 1 30))]

/-- The deadline is moved on, and back to where the first operation had put it. -/
def movedBack : List (UndoEnv × UndoCall) :=
  [(sampleUndoEnv 11, .reversible 2 (.updateDeadline 1 3000)),
    (sampleUndoEnv 12, .reversible 2 (.updateDeadline 1 2000))]

theorem movedDeadline_ok : reversibleStep sampleSha256 (sampleUndoEnv 10) 2 (.updateDeadline 1 2000)
    arbitratedStore = .ok (1, movedDeadline) :=
  ok_commit (by decide +kernel)

theorem undo_restores_sample : ∃ u, undoOperation sampleSha256 (sampleUndoEnv 20) 2 1
    (runAll (undoStep sampleSha256) movedDeadline disputedSince) = .ok ((), u) ∧
      (u.contract.entries 1).load.map snapshotOperationState =
        (arbitratedStore.contract.entries 1).load.map snapshotOperationState := by
  have hundo := ok_commit (x := undoOperation sampleSha256 (sampleUndoEnv 20) 2 1)
    (s := runAll (undoStep sampleSha256) movedDeadline disputedSince) (a := ()) (by decide +kernel)
  obtain ⟨inv, changed, inv', hbefore, -, -, -, hafter, hsame, -⟩ :=
    undo_restores_tracked sampleSha256_injective movedDeadline_ok disputedSince hundo
  have hload : (arbitratedStore.contract.entries 1).load = some inv := hbefore
  refine ⟨_, hundo, ?_⟩
  rw [hload, Option.map_some, ← hsame, ← Option.map_some]
  exact congrArg _ hafter

/-- An undo as from a stack: the invoice is as it was before the operation, and no later operation on
it is still recorded when the undo is made. -/
structure UndoneFromStack (id k : ℕ) (s r u : UndoStore) : Prop where
  same : (u.contract.entries id).load = (s.contract.entries id).load
  last : ∀ j ∈ r.invoiceOps id, k < j → ∀ op ∈ r.ops j, op.status ≠ .recorded

/-- A dispute that was raised since stays, and an operation whose fields came back is undone before the
later ones. -/
theorem undo_not_from_stack :
    (∃ u, undoOperation sampleSha256 (sampleUndoEnv 20) 2 1
        (runAll (undoStep sampleSha256) movedDeadline disputedSince) = .ok ((), u) ∧
      ¬UndoneFromStack 1 1 arbitratedStore
        (runAll (undoStep sampleSha256) movedDeadline disputedSince) u) ∧
    ∃ u, undoOperation sampleSha256 (sampleUndoEnv 20) 2 1
        (runAll (undoStep sampleSha256) movedDeadline movedBack) = .ok ((), u) ∧
      ¬UndoneFromStack 1 1 arbitratedStore (runAll (undoStep sampleSha256) movedDeadline movedBack) u := by
  refine ⟨⟨_, ok_commit (by decide +kernel), fun h => ?_⟩, _, ok_commit (by decide +kernel), fun h => ?_⟩
  · have hflags := congrArg (Option.map Invoice.disputed) h.same
    revert hflags
    decide +kernel
  · have hstatus : ((runAll (undoStep sampleSha256) movedDeadline movedBack).ops 2).map
        ReversibleOp.status = some .recorded := by decide +kernel
    obtain ⟨op, hop, hrecorded⟩ := Option.map_eq_some_iff.1 hstatus
    exact h.last 2 (by decide +kernel) (by decide) op hop hrecorded

end StellarSplit.Split.Undo
