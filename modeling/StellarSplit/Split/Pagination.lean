import StellarSplit.Lib.Paging
import StellarSplit.Lib.Runs
import StellarSplit.Split.Archival

/-!
# Listing the invoices

`list_invoices` goes through the numbers up to the counter and keeps those with a
record in the persistent tier. Every creation counts in the persistent tier, but the
listing reads the counter of the instance tier, which nothing writes: the pages of a
contract are empty.
-/

namespace StellarSplit.Split.Schema

open Exec Machine Paging

/-! ## The contract -/

/-- The storage with the entry of the instance tier under the key of the counter. -/
structure PageStore extends TierStore where
  instanceCounter : Option ℕ := none

abbrev PageM (α : Type) := Call PageStore SplitFault α

def maxPageLimit : ℕ := 100

/-- The loop of `list_invoices` over the next `left` numbers, with `room` places left on the page. -/
def listFrom (has : ℕ → Bool) : ℕ → ℕ → ℕ → List ℕ
  | 0, _, _ => []
  | left + 1, next, room =>
      if room = 0 then []
      else if has next then next :: listFrom has left (next + 1) (room - 1)
      else listFrom has left (next + 1) room

def pageLimit (limit : ℕ) : ℕ := if maxPageLimit < limit then maxPageLimit else limit

namespace PageStore

def hasPersistent (s : PageStore) (id : ℕ) : Bool := (s.slots id).core.persistent.isSome

def listInvoices (s : PageStore) (cursor limit : ℕ) : List ℕ :=
  if limit = 0 then []
  else
    let counter := s.instanceCounter.getD 0
    let next := satAddU64 cursor 1
    listFrom s.hasPersistent (counter + 1 - next) next (pageLimit limit)

/-- One of the tiers has the record of the invoice. -/
def HasInvoice (s : PageStore) (id : ℕ) : Prop := (s.slots id).core.read.isSome = true

end PageStore

/-- What creation, cloning and rollover share: the next number is taken and the record saved. -/
def storeNewInvoice (env : TierEnv) (inv : Invoice) : TierM Unit := do
  let st ← get
  require (st.counter + 1 ≤ u64Max) .overflow
  set { st with counter := st.counter + 1 }
  let sl ← getSlots (st.counter + 1)
  setSlots (st.counter + 1)
    { sl with createdLedger := { sl.createdLedger with persistent := some env.sequence } }
  saveInvoice env (st.counter + 1) inv

/-- What the calls that change an invoice share: it is loaded and saved again. -/
def resaveInvoice (env : TierEnv) (id : ℕ) (inv : Invoice) : TierM Unit := do
  let _ ← loadInvoice env id
  saveInvoice env id inv

/-- A call on the tiers. The counter of the instance tier has no writer. -/
def inTiers (x : TierM Unit) : PageM Unit :=
  focus PageStore.toTierStore (fun s t => { s with toTierStore := t }) x

/-! ## Runs -/

inductive PageCall where
  | create (inv : Invoice)
  | resave (id : ℕ) (inv : Invoice)
  | archive (call : ArchiveCall)

def pageStep (c : TierEnv × PageCall) : PageM Unit :=
  match c.2 with
  | .create inv => inTiers (storeNewInvoice c.1 inv)
  | .resave id inv => inTiers (resaveInvoice c.1 id inv)
  | .archive call => inTiers (archiveStep (c.1, call))

/-- Reading page by page from the start yields every invoice once, in ascending order. -/
def VisitsAll (s : PageStore) (limit : ℕ) : Prop :=
  ∃ ids, Reads (fun cursor => s.listInvoices cursor limit) (pageLimit limit) 0 ids ∧
    ids.Pairwise (· < ·) ∧ ∀ id, id ∈ ids ↔ s.HasInvoice id

/-! ## Pages -/

variable {s t : PageStore} {limit : ℕ} {v : Unit}

theorem listFrom_eq (has : ℕ → Bool) (left next room : ℕ) :
    listFrom has left next room = ((List.range' next left).filter has).take room := by
  induction left generalizing next room with
  | zero => simp [listFrom]
  | succ left ih =>
      rw [listFrom, List.range'_succ]
      by_cases hroom : room = 0
      · simp [hroom]
      · rw [if_neg hroom]
        obtain ⟨room, rfl⟩ := Nat.exists_eq_succ_of_ne_zero hroom
        by_cases hhas : has next = true
        · rw [if_pos hhas, List.filter_cons_of_pos hhas, ih]
          rfl
        · rw [if_neg hhas, List.filter_cons_of_neg hhas, ih]

/-- The numbers the pages are cut out of. -/
def PageStore.listed (s : PageStore) : List ℕ :=
  (List.range' 1 (s.instanceCounter.getD 0)).filter s.hasPersistent

theorem listed_sorted (s : PageStore) : s.listed.Pairwise (· < ·) :=
  (List.pairwise_lt_range' 1).filter _

theorem mem_listed {id : ℕ} : id ∈ s.listed ↔
    1 ≤ id ∧ id ≤ s.instanceCounter.getD 0 ∧ s.hasPersistent id = true := by
  unfold PageStore.listed
  rw [List.mem_filter, List.mem_range'_1, and_assoc, Nat.add_comm 1, Nat.lt_succ_iff]

theorem range'_filter_lt (cursor n : ℕ) :
    (List.range' 1 n).filter (cursor < ·) = List.range' (cursor + 1) (n - cursor) := by
  rcases Nat.le_total cursor n with hle | hle
  · have hsplit : List.range' 1 n = List.range' 1 cursor ++ List.range' (cursor + 1) (n - cursor) := by
      have happend := List.range'_append_1 (s := 1) (m := cursor) (n := n - cursor)
      rw [Nat.add_sub_cancel' hle, Nat.add_comm 1] at happend
      exact happend.symm
    rw [hsplit, List.filter_append, List.filter_eq_nil_iff.2, List.filter_eq_self.2, List.nil_append]
    · intro id hid
      have hrange := List.mem_range'_1.1 hid
      exact decide_eq_true hrange.1
    · intro id hid
      have hrange := List.mem_range'_1.1 hid
      simp only [decide_eq_true_eq]
      omega
  · rw [Nat.sub_eq_zero_of_le hle, List.range'_zero, List.filter_eq_nil_iff]
    intro id hid
    have hrange := List.mem_range'_1.1 hid
    simp only [decide_eq_true_eq]
    omega

theorem listInvoices_eq (hlimit : 0 < limit) (hcounter : s.instanceCounter.getD 0 < u64Max) (cursor : ℕ) :
    s.listInvoices cursor limit = (s.listed.filter (cursor < ·)).take (pageLimit limit) := by
  have hcommute : s.listed.filter (cursor < ·) =
      (List.range' (cursor + 1) (s.instanceCounter.getD 0 - cursor)).filter s.hasPersistent := by
    unfold PageStore.listed
    rw [List.filter_filter, ← range'_filter_lt, List.filter_filter]
    exact List.filter_congr fun id _ => Bool.and_comm _ _
  unfold PageStore.listInvoices
  rw [if_neg hlimit.ne', hcommute]
  dsimp only
  rw [listFrom_eq]
  unfold satAddU64
  rcases Nat.lt_or_ge cursor u64Max with hlt | hge
  · rw [min_eq_left (Nat.succ_le_of_lt hlt), Nat.add_sub_add_right]
  · -- a cursor at the last number: neither list has an entry after it
    rw [min_eq_right (by omega), Nat.sub_eq_zero_of_le (show _ + 1 ≤ u64Max by omega),
      Nat.sub_eq_zero_of_le (show _ ≤ cursor by omega)]
    rfl

/-- The pages visit every invoice exactly if the counter of the instance tier covers the invoices
and all of them are in the persistent tier. -/
theorem visitsAll_iff_listed (hlimit : 0 < limit) (hcounter : s.instanceCounter.getD 0 < u64Max) :
    VisitsAll s limit ↔ ∀ id, s.HasInvoice id ↔
      1 ≤ id ∧ id ≤ s.instanceCounter.getD 0 ∧ s.hasPersistent id = true := by
  have hsize : 0 < pageLimit limit := by
    unfold pageLimit maxPageLimit
    split <;> omega
  have hreads : Reads (fun cursor => s.listInvoices cursor limit) (pageLimit limit) 0
      (s.listed.filter (0 < ·)) :=
    reads_filter (listed_sorted s) hsize (listInvoices_eq hlimit hcounter) 0
  have hall : s.listed.filter (0 < ·) = s.listed :=
    List.filter_eq_self.2 fun id hid => decide_eq_true (mem_listed.1 hid).1
  rw [hall] at hreads
  constructor
  · rintro ⟨ids, hids, -, hmem⟩ id
    obtain rfl := hids.unique hreads
    rw [← hmem id, mem_listed]
  · intro h
    exact ⟨s.listed, hreads, listed_sorted s, fun id => by rw [mem_listed, h id]⟩

/-! ## Runs -/

theorem inTiers_ok {x : TierM Unit} (hrun : inTiers x s = .ok (v, t)) :
    t.instanceCounter = s.instanceCounter := by
  obtain ⟨u, -, rfl⟩ := focus_ok.1 hrun
  rfl

theorem pageStep_instanceCounter {c : TierEnv × PageCall} (hrun : pageStep c s = .ok (v, t)) :
    t.instanceCounter = s.instanceCounter := by
  obtain ⟨env, call⟩ := c
  cases call with
  | create inv => exact inTiers_ok hrun
  | resave id inv => exact inTiers_ok hrun
  | archive call => exact inTiers_ok hrun

theorem run_instanceCounter (calls : List (TierEnv × PageCall)) :
    (runAll pageStep {} calls).instanceCounter = none :=
  runAll_invariant (I := fun s => s.instanceCounter = none)
    (fun _ _ _ _ hnone hrun => (pageStep_instanceCounter hrun).trans hnone) rfl calls

/-- After every run of a new contract the pages visit every invoice exactly if there is none. -/
theorem pages_visit_all_iff (calls : List (TierEnv × PageCall)) (hlimit : 0 < limit) :
    VisitsAll (runAll pageStep {} calls) limit ↔ ∀ id, ¬(runAll pageStep {} calls).HasInvoice id := by
  have hcounter : (runAll pageStep {} calls).instanceCounter.getD 0 = 0 := by
    rw [run_instanceCounter calls]
    rfl
  rw [visitsAll_iff_listed hlimit (by rw [hcounter]; decide), hcounter]
  constructor
  · intro h id hid
    obtain ⟨hpos, hzero, -⟩ := (h id).1 hid
    omega
  · intro h id
    exact ⟨fun hid => (h id hid).elim, fun hid => absurd (hid.1.trans hid.2.1) (by decide)⟩

theorem pages_of_new_contract : VisitsAll (runAll pageStep {} []) 10 ∧
    ¬VisitsAll (runAll pageStep {} [(sampleTierEnv 10, .create (sampleInvoice .pending))]) 10 :=
  ⟨(pages_visit_all_iff [] (by decide)).2 fun _ h => (by cases h),
    fun h => (pages_visit_all_iff _ (by decide)).1 h 1 rfl⟩

/-- The first invoice of a contract is created, but no page has it. -/
theorem first_invoice_not_listed :
    (runAll pageStep {} [(sampleTierEnv 10, .create (sampleInvoice .pending))]).HasInvoice 1 ∧
      (runAll pageStep {} [(sampleTierEnv 10, .create (sampleInvoice .pending))]).listInvoices 0 10 = [] ∧
      ¬VisitsAll (runAll pageStep {} [(sampleTierEnv 10, .create (sampleInvoice .pending))]) 10 := by
  have hexists :
      (runAll pageStep {} [(sampleTierEnv 10, .create (sampleInvoice .pending))]).HasInvoice 1 := rfl
  refine ⟨hexists, rfl, fun h => ?_⟩
  have hlisted := ((visitsAll_iff_listed (by decide) (by decide)).1 h 1).1 hexists
  exact absurd hlisted.2.1 (by decide)

end StellarSplit.Split.Schema
