import Mathlib.Algebra.BigOperators.Group.List.Basic
import Mathlib.Data.Nat.Bitwise
import StellarSplit.Lib.Registry
import StellarSplit.Split.Lock

/-!
# Payment tracking

The record of what each recipient of an invoice has been paid, with the bitmask
of the recipients that are fully paid and the milestones of the total. The three
operations keep the totals, the mask and the order of the milestones together
over every run, whatever the invoices are at the time of each call.
-/

namespace StellarSplit.Split.Tracking

open Exec Function Machine Registry

def maxTrackedRecipients : ℕ := 64

def maxMilestones : ℕ := 10

inductive MilestoneState where
  | pending | reached | settled
deriving DecidableEq, Repr

structure PaymentMilestone where
  thresholdBps : ℕ
  state : MilestoneState
  reachedAt : ℕ
  settledAt : ℕ
deriving DecidableEq, Repr

structure RecipientPaymentState where
  recipient : Address
  due : ℤ
  paid : ℤ
  fullyPaid : Bool
deriving DecidableEq, Repr

structure PaymentTracker where
  invoiceId : ℕ
  recipients : List RecipientPaymentState
  milestones : List PaymentMilestone
  totalDue : ℤ
  totalPaid : ℤ
  lastUpdated : ℕ
deriving DecidableEq, Repr

structure TrackStore where
  tracker : ℕ → Option PaymentTracker := fun _ => none
  flags : ℕ → Option ℕ := fun _ => none

abbrev TrackM (α : Type) := Call TrackStore SplitFault α

/-! ## Pure helpers -/

/-- The loop of `validate_milestones`, with the threshold before. -/
def validateAscending (prev : ℕ) : List ℕ → Result Unit
  | [] => .ok ()
  | m :: ms =>
      if ¬prev < m then .error (.panic "milestones must be strictly ascending")
      else if ¬m ≤ 10000 then .error (.panic "milestone basis points must be <= 10000")
      else validateAscending m ms

def validateMilestones (milestones : List ℕ) : Result Unit :=
  if milestones = [] then .error (.panic "milestones must not be empty")
  else if ¬milestones.length ≤ maxMilestones then .error (.panic "too many milestones")
  else validateAscending 0 milestones

def paidBps (paid total : ℤ) : ℕ :=
  if total ≤ 0 ∨ paid ≤ 0 then 0
  else if total ≤ paid then 10000
  else asU32 ((satMulI128 paid 10000).tdiv total)

def computePaidFlags (recipients : List RecipientPaymentState) : ℕ :=
  recipients.zipIdx.foldl (fun flags r => if r.1.fullyPaid then flags ||| 1 <<< r.2 else flags) 0

/-- A pending milestone that the progress has come to is reached. -/
def PaymentMilestone.advance (progress now : ℕ) (m : PaymentMilestone) : PaymentMilestone :=
  if m.state = .pending ∧ m.thresholdBps ≤ progress then { m with state := .reached, reachedAt := now }
  else m

/-! ## Operations -/

def loadTracker (id : ℕ) : TrackM PaymentTracker := do
  let st ← get
  orPanic (st.tracker id) "payment tracking not initialised"

def storeTracker (tracker : PaymentTracker) : TrackM Unit :=
  modify fun st => { st with
    tracker := update st.tracker tracker.invoiceId (some tracker)
    flags := update st.flags tracker.invoiceId (some (computePaidFlags tracker.recipients)) }

/-- One recipient of the loop in `init_tracking`. -/
def trackRecipient (amounts : List ℤ) (acc : ℤ × List RecipientPaymentState) (r : Address × ℕ) :
    Result (ℤ × List RecipientPaymentState) := do
  let due ← unwrap amounts[r.2]?
  if due ≤ 0 then throw (.panic "recipient amount must be positive") else
  match checkedAddI128 acc.1 due with
  | none => throw (.panic "ArithmeticOverflow")
  | some total => pure (total, acc.2 ++ [⟨r.1, due, 0, false⟩])

/-- `ledger` holds the invoices as they are when the call is made. -/
def initTracking (env : Env) (ledger : Store) (caller : Address) (id : ℕ) (milestoneBps : List ℕ) :
    TrackM PaymentTracker := do
  requireAuth env.toLedger caller
  let invoice ← orPanic (ledger.entries id).load "invoice not found"
  require (invoice.creator = caller) (.panic "only the creator can init tracking")
  let st ← get
  require (st.tracker id = none) (.panic "payment tracking already initialised")
  require (0 < invoice.recipients.length) (.panic "invoice has no recipients")
  require (invoice.recipients.length ≤ maxTrackedRecipients)
    (.panic "too many recipients for payment tracking")
  ofResult (validateMilestones milestoneBps)
  let (totalDue, recipients) ← ofResult
    (invoice.recipients.zipIdx.foldlM (trackRecipient invoice.amounts) (0, []))
  let tracker : PaymentTracker :=
    { invoiceId := id
      recipients
      milestones := milestoneBps.map fun bps => ⟨bps, .pending, 0, 0⟩
      totalDue
      totalPaid := 0
      lastUpdated := env.now }
  storeTracker tracker
  pure tracker

def recordPayment (env : Env) (ledger : Store) (caller : Address) (id : ℕ) (recipient : Address)
    (amount : ℤ) : TrackM PaymentTracker := do
  requireAuth env.toLedger caller
  let invoice ← orPanic (ledger.entries id).load "invoice not found"
  require (invoice.creator = caller) (.panic "only the creator can record payments")
  require (0 < amount) (.panic "payment amount must be positive")
  let tracker ← loadTracker id
  let idx ← orPanic (tracker.recipients.findIdx? fun r => r.recipient = recipient)
    "recipient not tracked for invoice"
  let state ← ofResult (unwrap tracker.recipients[idx]?)
  require (state.fullyPaid = false) (.panic "recipient already fully paid")
  let newPaid ← orPanic (checkedAddI128 state.paid amount) "ArithmeticOverflow"
  require (newPaid ≤ state.due) (.panic "payment exceeds recipient amount due")
  let totalPaid ← orPanic (checkedAddI128 tracker.totalPaid amount) "ArithmeticOverflow"
  let progress := paidBps totalPaid tracker.totalDue
  let tracker : PaymentTracker :=
    { tracker with
      recipients := tracker.recipients.set idx
        { state with paid := newPaid, fullyPaid := newPaid = state.due }
      totalPaid
      lastUpdated := env.now
      milestones := tracker.milestones.map (.advance progress env.now) }
  storeTracker tracker
  pure tracker

def settleMilestone (env : Env) (ledger : Store) (caller : Address) (id index : ℕ) :
    TrackM PaymentTracker := do
  requireAuth env.toLedger caller
  let invoice ← orPanic (ledger.entries id).load "invoice not found"
  require (invoice.creator = caller) (.panic "only the creator can settle milestones")
  let tracker ← loadTracker id
  require (index < tracker.milestones.length) (.panic "milestone index out of range")
  onlyIf (0 < index) do
    let prev ← ofResult (unwrap tracker.milestones[index - 1]?)
    require (prev.state = .settled) (.panic "previous milestone not settled")
  let m ← ofResult (unwrap tracker.milestones[index]?)
  require (m.state ≠ .settled) (.panic "milestone already settled")
  require (m.state = .reached) (.panic "milestone not reached")
  let tracker : PaymentTracker :=
    { tracker with
      milestones := tracker.milestones.set index { m with state := .settled, settledAt := env.now }
      lastUpdated := env.now }
  storeTracker tracker
  pure tracker

inductive TrackCall where
  | initTracking (env : Env) (ledger : Store) (caller : Address) (id : ℕ) (milestoneBps : List ℕ)
  | recordPayment (env : Env) (ledger : Store) (caller : Address) (id : ℕ) (recipient : Address)
      (amount : ℤ)
  | settleMilestone (env : Env) (ledger : Store) (caller : Address) (id index : ℕ)

def TrackCall.exec : TrackCall → TrackM PaymentTracker
  | initTracking env ledger caller id bps => Tracking.initTracking env ledger caller id bps
  | recordPayment env ledger caller id recipient amount =>
      Tracking.recordPayment env ledger caller id recipient amount
  | settleMilestone env ledger caller id index => Tracking.settleMilestone env ledger caller id index

/-! ## The progress in basis points -/

theorem satMulI128_nonneg {a b : ℤ} (h : 0 ≤ a * b) : 0 ≤ satMulI128 a b := by
  unfold satMulI128
  have hmax : (0 : ℤ) ≤ i128Max := by decide
  exact le_trans (le_min h hmax) (le_max_right _ _)

theorem satMulI128_le {a b : ℤ} (h : 0 ≤ a * b) : satMulI128 a b ≤ a * b := by
  unfold satMulI128
  have hmin : i128Min ≤ 0 := by decide
  exact max_le (hmin.trans h) (min_le_left _ _)

theorem satMulI128_mono {a b c : ℤ} (hc : 0 ≤ c) (h : a ≤ b) : satMulI128 a c ≤ satMulI128 b c :=
  max_le_max_left _ (min_le_min_right _ (Int.mul_le_mul_of_nonneg_right h hc))

variable {paid paid' total : ℤ}

/-- Between nothing and the whole total the quotient is small enough for every cast. -/
theorem paidBps_of_part (hpos : 0 < paid) (hlt : paid < total) :
    (paidBps paid total : ℤ) = satMulI128 paid 10000 / total ∧ paidBps paid total < 10000 := by
  have hmul : 0 ≤ paid * 10000 := by omega
  have hnonneg := satMulI128_nonneg hmul
  have hquot : 0 ≤ satMulI128 paid 10000 / total := Int.ediv_nonneg hnonneg (by omega)
  have hsmall : satMulI128 paid 10000 / total < 10000 := by
    apply Int.ediv_lt_of_lt_mul (by omega)
    have := satMulI128_le hmul
    omega
  unfold paidBps asU32
  rw [if_neg (by omega), if_neg (by omega), Int.tdiv_eq_ediv_of_nonneg hnonneg,
    Int.emod_eq_of_lt hquot (by omega)]
  omega

theorem paidBps_le : paidBps paid total ≤ 10000 := by
  by_cases hzero : total ≤ 0 ∨ paid ≤ 0
  · simp [paidBps, hzero]
  · by_cases hfull : total ≤ paid
    · simp [paidBps, hzero, hfull]
    · exact (paidBps_of_part (by omega) (by omega)).2.le

theorem paidBps_mono (h : paid ≤ paid') : paidBps paid total ≤ paidBps paid' total := by
  by_cases hzero : total ≤ 0 ∨ paid ≤ 0
  · have hnone : paidBps paid total = 0 := if_pos hzero
    omega
  · by_cases hfull : total ≤ paid'
    · have hall : paidBps paid' total = 10000 := by
        unfold paidBps
        rw [if_neg (by omega), if_pos hfull]
      rw [hall]
      exact paidBps_le
    · have hpart : (paidBps paid total : ℤ) = satMulI128 paid 10000 / total :=
        (paidBps_of_part (by omega) (by omega)).1
      have hpart' : (paidBps paid' total : ℤ) = satMulI128 paid' 10000 / total :=
        (paidBps_of_part (by omega) (by omega)).1
      have hquot : satMulI128 paid 10000 / total ≤ satMulI128 paid' 10000 / total :=
        Int.ediv_le_ediv (by omega) (satMulI128_mono (by norm_num) h)
      omega

/-! ## The bitmask -/

theorem testBit_flags (rs : List RecipientPaymentState) (k flags i : ℕ) :
    ((rs.zipIdx k).foldl (fun flags r => if r.1.fullyPaid then flags ||| 1 <<< r.2 else flags)
        flags).testBit i = true ↔
      flags.testBit i = true ∨ k ≤ i ∧ ∃ r, rs[i - k]? = some r ∧ r.fullyPaid = true := by
  induction rs generalizing k flags with
  | nil => simp
  | cons r rs ih =>
      rw [List.zipIdx_cons, List.foldl_cons, ih]
      have hflag : (if r.fullyPaid then flags ||| 1 <<< k else flags).testBit i = true ↔
          flags.testBit i = true ∨ i = k ∧ r.fullyPaid = true := by
        by_cases hr : r.fullyPaid
        · simp only [hr, if_true, Nat.testBit_or, Bool.or_eq_true, and_true, Nat.one_shiftLeft,
            Nat.testBit_two_pow, decide_eq_true_eq]
          rw [eq_comm (a := k)]
        · simp [hr]
      rw [hflag, or_assoc]
      apply or_congr_right
      rcases Nat.lt_trichotomy i k with hik | hik | hik
      · constructor <;> omega
      · subst hik
        simp
      · have hget : (r :: rs)[i - k]? = rs[i - (k + 1)]? := by
          have hsucc : i - k = i - (k + 1) + 1 := by omega
          rw [hsucc, List.getElem?_cons_succ]
        rw [hget]
        constructor
        · rintro (⟨heq, -⟩ | ⟨-, h⟩)
          · omega
          · exact ⟨hik.le, h⟩
        · rintro ⟨-, h⟩
          exact .inr ⟨hik, h⟩

theorem testBit_computePaidFlags (rs : List RecipientPaymentState) (i : ℕ) :
    (computePaidFlags rs).testBit i = true ↔ ∃ r, rs[i]? = some r ∧ r.fullyPaid = true := by
  unfold computePaidFlags
  rw [testBit_flags]
  simp

/-- The mask of at most sixty-four recipients is a word. -/
theorem computePaidFlags_lt {rs : List RecipientPaymentState} (h : rs.length ≤ maxTrackedRecipients) :
    computePaidFlags rs < 2 ^ 64 := by
  apply Nat.lt_pow_two_of_testBit
  intro i hi
  rw [Bool.eq_false_iff]
  intro hset
  obtain ⟨r, hr, -⟩ := (testBit_computePaidFlags rs i).1 hset
  have hlt := (List.getElem?_eq_some_iff.1 hr).1
  unfold maxTrackedRecipients at h
  omega

/-! ## The invariant -/

/-- The place of a state in a list of milestones. -/
def MilestoneState.rank : MilestoneState → ℕ
  | settled => 0
  | reached => 1
  | pending => 2

/-- States in the order of their ranks are settled, then reached, then pending. -/
theorem exists_shape {states : List MilestoneState}
    (h : states.Pairwise fun a b => a.rank ≤ b.rank) :
    ∃ a b c, states = List.replicate a .settled ++ List.replicate b .reached ++
      List.replicate c .pending := by
  induction states with
  | nil => exact ⟨0, 0, 0, rfl⟩
  | cons x xs ih =>
      obtain ⟨hx, hxs⟩ := List.pairwise_cons.1 h
      obtain ⟨a, b, c, rfl⟩ := ih hxs
      cases x with
      | settled => exact ⟨a + 1, b, c, by simp [List.replicate_succ]⟩
      | reached =>
          have ha : a = 0 := by
            by_contra hne
            have := hx .settled (by simp [hne])
            simp [MilestoneState.rank] at this
          subst ha
          exact ⟨0, b + 1, c, by simp [List.replicate_succ]⟩
      | pending =>
          have ha : a = 0 := by
            by_contra hne
            have := hx .settled (by simp [hne])
            simp [MilestoneState.rank] at this
          have hb : b = 0 := by
            by_contra hne
            have := hx .reached (by simp [hne])
            simp [MilestoneState.rank] at this
          subst ha hb
          exact ⟨0, 0, c + 1, by simp [List.replicate_succ]⟩

/-- The recipients of a tracker against its totals. -/
structure PaidUp (tr : PaymentTracker) : Prop where
  totalDue_eq : tr.totalDue = (tr.recipients.map RecipientPaymentState.due).sum
  totalPaid_eq : tr.totalPaid = (tr.recipients.map RecipientPaymentState.paid).sum
  within : ∀ r ∈ tr.recipients, 0 ≤ r.paid ∧ r.paid ≤ r.due
  fullyPaid_iff : ∀ r ∈ tr.recipients, r.fullyPaid = true ↔ r.paid = r.due
  length_le : tr.recipients.length ≤ maxTrackedRecipients

/-- The milestones of a tracker: thresholds ascend, states follow each other, and the
progress decides which are still pending. -/
structure InOrder (progress : ℕ) (ms : List PaymentMilestone) : Prop where
  ascending : ms.Pairwise fun m n => m.thresholdBps < n.thresholdBps
  ranked : ms.Pairwise fun m n => m.state.rank ≤ n.state.rank
  past_iff : ∀ m ∈ ms, m.state ≠ .pending ↔ m.thresholdBps ≤ progress

@[simp] theorem advance_thresholdBps (progress now : ℕ) (m : PaymentMilestone) :
    (m.advance progress now).thresholdBps = m.thresholdBps := by
  unfold PaymentMilestone.advance
  split <;> rfl

theorem advance_pending_iff (progress now : ℕ) (m : PaymentMilestone) :
    (m.advance progress now).state = .pending ↔ m.state = .pending ∧ progress < m.thresholdBps := by
  unfold PaymentMilestone.advance
  split
  · rename_i h
    simp [h.2]
  · rename_i h
    constructor
    · intro hp
      exact ⟨hp, by by_contra hle; exact h ⟨hp, Nat.le_of_not_lt hle⟩⟩
    · exact And.left

theorem advance_settled_iff (progress now : ℕ) (m : PaymentMilestone) :
    (m.advance progress now).state = .settled ↔ m.state = .settled := by
  unfold PaymentMilestone.advance
  split
  · rename_i h
    simp [h.1]
  · rfl

theorem rank_le_iff (a b : MilestoneState) :
    a.rank ≤ b.rank ↔ (b = .settled → a = .settled) ∧ (a = .pending → b = .pending) := by
  cases a <;> cases b <;> decide

/-- Progress that does not fall reaches more milestones, in their order. -/
theorem InOrder.advance {progress progress' now : ℕ} {ms : List PaymentMilestone}
    (h : InOrder progress ms) (hle : progress ≤ progress') :
    InOrder progress' (ms.map (.advance progress' now)) := by
  refine ⟨?_, ?_, ?_⟩
  · rw [List.pairwise_map]
    simpa using h.ascending
  · rw [List.pairwise_map]
    apply List.Pairwise.imp_of_mem ?_ (h.ascending.and h.ranked)
    rintro m n hm hn ⟨hlt, hrank⟩
    rw [rank_le_iff] at hrank ⊢
    simp only [advance_settled_iff, advance_pending_iff]
    refine ⟨hrank.1, fun hp => ⟨hrank.2 hp.1, ?_⟩⟩
    omega
  · intro m hm
    obtain ⟨n, hn, rfl⟩ := List.mem_map.1 hm
    have hpast : ¬n.state = .pending ↔ n.thresholdBps ≤ progress := h.past_iff n hn
    rw [Ne, advance_pending_iff, advance_thresholdBps, not_and_or, hpast]
    omega

/-- The milestones before one whose predecessor is settled are settled. -/
theorem InOrder.settled_before {progress index : ℕ} {ms : List PaymentMilestone}
    (h : InOrder progress ms)
    (hprev : 0 < index → ∃ prev, ms[index - 1]? = some prev ∧ prev.state = .settled) {i : ℕ}
    (hi : i < ms.length) (hindex : i < index) : ms[i].state = .settled := by
  obtain ⟨prev, hprev, hsettled⟩ := hprev (by omega)
  obtain ⟨hlt, hget⟩ := List.getElem?_eq_some_iff.1 hprev
  rcases Nat.lt_or_ge i (index - 1) with hbefore | hge
  · have hrank := List.pairwise_iff_getElem.1 h.ranked i (index - 1) hi hlt hbefore
    rw [rank_le_iff, hget] at hrank
    exact hrank.1 hsettled
  · have heq : i = index - 1 := by omega
    subst heq
    rw [hget, hsettled]

theorem InOrder.settle {progress index now : ℕ} {ms : List PaymentMilestone} {m : PaymentMilestone}
    (h : InOrder progress ms) (hm : ms[index]? = some m) (hreached : m.state = .reached)
    (hprev : 0 < index → ∃ prev, ms[index - 1]? = some prev ∧ prev.state = .settled) :
    InOrder progress (ms.set index { m with state := .settled, settledAt := now }) := by
  obtain ⟨hlt, hget⟩ := List.getElem?_eq_some_iff.1 hm
  refine ⟨?_, ?_, ?_⟩
  · rw [List.pairwise_iff_getElem]
    intro i j hi hj hij
    rw [List.length_set] at hi hj
    have hthreshold := List.pairwise_iff_getElem.1 h.ascending i j hi hj hij
    rw [List.getElem_set, List.getElem_set]
    split_ifs with h₁ h₂ h₂
    · omega
    · subst h₁
      rwa [hget] at hthreshold
    · subst h₂
      rwa [hget] at hthreshold
    · exact hthreshold
  · rw [List.pairwise_iff_getElem]
    intro i j hi hj hij
    rw [List.length_set] at hi hj
    have hrank := List.pairwise_iff_getElem.1 h.ranked i j hi hj hij
    rw [List.getElem_set, List.getElem_set]
    split_ifs with h₁ h₂ h₂
    · omega
    · exact Nat.zero_le _
    · rw [h.settled_before hprev hi (by omega)]
    · exact hrank
  · intro n hn
    rcases List.mem_or_eq_of_mem_set hn with hn | rfl
    · exact h.past_iff n hn
    · have hpast := h.past_iff m (List.mem_of_getElem? hm)
      rw [hreached] at hpast
      simpa using hpast

/-- A payment to one recipient within what is due to it. -/
theorem PaidUp.record {tr : PaymentTracker} {idx : ℕ} {r : RecipientPaymentState} {amount : ℤ}
    (h : PaidUp tr) (hr : tr.recipients[idx]? = some r) (hpos : 0 < amount)
    (hle : r.paid + amount ≤ r.due) {now : ℕ} {ms : List PaymentMilestone} :
    PaidUp { tr with
      recipients := tr.recipients.set idx
        { r with paid := r.paid + amount, fullyPaid := r.paid + amount = r.due }
      totalPaid := tr.totalPaid + amount
      lastUpdated := now
      milestones := ms } := by
  obtain ⟨hlt, hget⟩ := List.getElem?_eq_some_iff.1 hr
  have hmem : r ∈ tr.recipients := List.mem_of_getElem? hr
  refine ⟨?_, ?_, ?_, ?_, ?_⟩
  · dsimp only
    rw [List.map_set, List.sum_set', h.totalDue_eq]
    simp [hlt, hget]
  · dsimp only
    rw [List.map_set, List.sum_set', h.totalPaid_eq]
    simp [hlt, hget]
  · intro q hq
    rcases List.mem_or_eq_of_mem_set hq with hq | rfl
    · exact h.within q hq
    · have hr' := h.within r hmem
      dsimp only
      omega
  · intro q hq
    rcases List.mem_or_eq_of_mem_set hq with hq | rfl
    · exact h.fullyPaid_iff q hq
    · simp
  · dsimp only
    rw [List.length_set]
    exact h.length_le

/-- The loop of `init_tracking` collects unpaid recipients and the sum of what is due. -/
theorem trackRecipient_fold {amounts : List ℤ} {rs : List (Address × ℕ)}
    {acc acc' : ℤ × List RecipientPaymentState}
    (hacc : acc.1 = (acc.2.map RecipientPaymentState.due).sum ∧
      ∀ r ∈ acc.2, 0 < r.due ∧ r.paid = 0 ∧ r.fullyPaid = false)
    (h : rs.foldlM (trackRecipient amounts) acc = .ok acc') :
    (acc'.1 = (acc'.2.map RecipientPaymentState.due).sum ∧
      ∀ r ∈ acc'.2, 0 < r.due ∧ r.paid = 0 ∧ r.fullyPaid = false) ∧
      acc'.2.length = acc.2.length + rs.length := by
  induction rs generalizing acc with
  | nil =>
      cases h
      exact ⟨hacc, rfl⟩
  | cons r rs ih =>
      rw [List.foldlM_cons, except_bind_ok] at h
      obtain ⟨next, hnext, hrest⟩ := h
      unfold trackRecipient at hnext
      rw [except_bind_ok] at hnext
      obtain ⟨due, -, hnext⟩ := hnext
      split at hnext
      · cases hnext
      rename_i hdue
      split at hnext
      · cases hnext
      rename_i total hadd
      cases hnext
      obtain rfl := checkedAddI128_eq hadd
      have hacc' := ih ⟨?_, ?_⟩ hrest
      · refine ⟨hacc'.1, ?_⟩
        rw [hacc'.2]
        simp only [List.length_append, List.length_cons, List.length_nil]
        omega
      · simp [hacc.1]
      · intro q hq
        rcases List.mem_append.1 hq with hq | hq
        · exact hacc.2 q hq
        · rw [List.mem_singleton.1 hq]
          exact ⟨Int.lt_of_not_ge hdue, rfl, rfl⟩

theorem validateAscending_ok {prev : ℕ} {ms : List ℕ} (h : validateAscending prev ms = .ok ()) :
    (∀ m ∈ ms, prev < m) ∧ ms.Pairwise (· < ·) := by
  induction ms generalizing prev with
  | nil => exact ⟨by simp, List.Pairwise.nil⟩
  | cons m ms ih =>
      unfold validateAscending at h
      split at h
      · cases h
      rename_i hprev
      split at h
      · cases h
      rw [not_not] at hprev
      obtain ⟨hm, hsorted⟩ := ih h
      refine ⟨fun n hn => ?_, List.pairwise_cons.2 ⟨hm, hsorted⟩⟩
      rcases List.mem_cons.1 hn with rfl | hn
      · exact hprev
      · exact hprev.trans (hm n hn)

theorem validateMilestones_ok {ms : List ℕ} (h : validateMilestones ms = .ok ()) :
    (∀ m ∈ ms, 0 < m) ∧ ms.Pairwise (· < ·) := by
  unfold validateMilestones at h
  split at h
  · cases h
  split at h
  · cases h
  exact validateAscending_ok h

/-- Without payments every milestone is pending. -/
theorem inOrder_init {ms : List ℕ} (h : validateMilestones ms = .ok ()) :
    InOrder 0 (ms.map fun bps => ⟨bps, .pending, 0, 0⟩) := by
  obtain ⟨hpos, hsorted⟩ := validateMilestones_ok h
  refine ⟨?_, ?_, ?_⟩
  · rw [List.pairwise_map]
    exact hsorted
  · rw [List.pairwise_map]
    exact hsorted.imp fun _ => le_rfl
  · intro m hm
    obtain ⟨bps, hbps, rfl⟩ := List.mem_map.1 hm
    have := hpos bps hbps
    simp only [ne_eq, not_true_eq_false, false_iff]
    omega

/-- A stored tracker with its mask. -/
structure Kept (st : TrackStore) (id : ℕ) (tr : PaymentTracker) : Prop where
  invoiceId_eq : tr.invoiceId = id
  paidUp : PaidUp tr
  inOrder : InOrder (paidBps tr.totalPaid tr.totalDue) tr.milestones
  flags_eq : st.flags id = some (computePaidFlags tr.recipients)

def KeptAll (st : TrackStore) : Prop := ∀ id tr, st.tracker id = some tr → Kept st id tr

theorem keptAll_store {st st' : TrackStore} {tr : PaymentTracker} {v : Unit} (h : KeptAll st)
    (hpaid : PaidUp tr) (horder : InOrder (paidBps tr.totalPaid tr.totalDue) tr.milestones)
    (hrun : storeTracker tr st = .ok (v, st')) : KeptAll st' := by
  cases hrun
  intro id tr' htr
  rcases update_cases htr with ⟨rfl, rfl⟩ | ⟨hid, hold⟩
  · exact ⟨rfl, hpaid, horder, update_self _ _ _⟩
  · have hkept := h id tr' hold
    refine ⟨hkept.invoiceId_eq, hkept.paidUp, hkept.inOrder, ?_⟩
    dsimp only
    rw [update_of_ne hid]
    exact hkept.flags_eq

theorem keptAll_init {env : Env} {ledger : Store} {caller : Address} {id : ℕ} {bps : List ℕ}
    {st st' : TrackStore} {tr : PaymentTracker} (h : KeptAll st)
    (hrun : initTracking env ledger caller id bps st = .ok (tr, st')) : KeptAll st' := by
  simp only [initTracking, requireAuth_bind, orPanic_bind, require_bind, get_bind, ofResult_bind] at hrun
  obtain ⟨-, invoice, -, -, -, -, hlength, u, hvalid, ⟨totalDue, recipients⟩, hfold, hrun⟩ := hrun
  obtain ⟨w, st₁, hstore, hret⟩ := bind_ok.1 hrun
  obtain ⟨-, rfl⟩ := pure_ok.1 hret
  obtain ⟨⟨hdue, hunpaid⟩, hcount⟩ := trackRecipient_fold ⟨rfl, by simp⟩ hfold
  have hzero : (recipients.map RecipientPaymentState.paid).sum = 0 := by
    apply List.sum_eq_zero
    intro x hx
    obtain ⟨r, hr, rfl⟩ := List.mem_map.1 hx
    exact (hunpaid r hr).2.1
  refine keptAll_store h ⟨hdue, hzero.symm, ?_, ?_, ?_⟩ ?_ hstore
  · intro r hr
    obtain ⟨hpos, hpaid, -⟩ := hunpaid r hr
    omega
  · intro r hr
    obtain ⟨hpos, hpaid, hflag⟩ := hunpaid r hr
    rw [hflag, hpaid]
    simp only [Bool.false_eq_true, false_iff]
    omega
  · dsimp only at hcount ⊢
    rw [hcount]
    simpa using hlength
  · have hnone : paidBps 0 totalDue = 0 := by simp [paidBps]
    dsimp only
    rw [hnone]
    exact inOrder_init hvalid

theorem keptAll_record {env : Env} {ledger : Store} {caller recipient : Address} {id : ℕ} {amount : ℤ}
    {st st' : TrackStore} {tr : PaymentTracker} (h : KeptAll st)
    (hrun : recordPayment env ledger caller id recipient amount st = .ok (tr, st')) : KeptAll st' := by
  simp only [recordPayment, loadTracker, requireAuth_bind, orPanic_bind, require_bind, get_bind,
    ofResult_bind, bind_assoc, unwrap_ok] at hrun
  obtain ⟨-, invoice, -, -, hpos, old, hold, idx, -, r, hr, -, newPaid, hnew, hle, total, htotal, hrun⟩ :=
    hrun
  obtain ⟨w, st₁, hstore, hret⟩ := bind_ok.1 hrun
  obtain ⟨-, rfl⟩ := pure_ok.1 hret
  obtain rfl := checkedAddI128_eq hnew
  obtain rfl := checkedAddI128_eq htotal
  have hkept := h id old hold
  have hmore : old.totalPaid ≤ old.totalPaid + amount := by omega
  apply keptAll_store h (hkept.paidUp.record hr hpos hle) ?_ hstore
  exact hkept.inOrder.advance (paidBps_mono hmore)

theorem keptAll_settle {env : Env} {ledger : Store} {caller : Address} {id index : ℕ}
    {st st' : TrackStore} {tr : PaymentTracker} (h : KeptAll st)
    (hrun : settleMilestone env ledger caller id index st = .ok (tr, st')) : KeptAll st' := by
  simp only [settleMilestone, loadTracker, requireAuth_bind, orPanic_bind, require_bind, get_bind,
    bind_assoc] at hrun
  obtain ⟨-, invoice, -, -, old, hold, -, hrun⟩ := hrun
  obtain ⟨w₀, st₀, hprev, hrun⟩ := bind_ok.1 hrun
  simp only [ofResult_bind, require_bind, unwrap_ok] at hrun
  obtain ⟨m, hm, -, hreached, hrun⟩ := hrun
  obtain ⟨w, st₁, hstore, hret⟩ := bind_ok.1 hrun
  obtain ⟨-, rfl⟩ := pure_ok.1 hret
  have hsame : st₀ = st ∧
      (0 < index → ∃ prev, old.milestones[index - 1]? = some prev ∧ prev.state = .settled) := by
    rcases onlyIf_ok.1 hprev with ⟨-, hprev⟩ | ⟨hzero, hsame⟩
    · obtain ⟨prev, hget, hprev⟩ := ofResult_bind.1 hprev
      obtain ⟨hsettled, hsame⟩ := require_ok.1 hprev
      exact ⟨hsame.symm, fun _ => ⟨prev, unwrap_ok.1 hget, hsettled⟩⟩
    · exact ⟨hsame.symm, fun hpos => (hzero hpos).elim⟩
  obtain ⟨rfl, hbefore⟩ := hsame
  have hkept := h id old hold
  have hpaid := hkept.paidUp
  apply keptAll_store h ?_ ?_ hstore
  · exact ⟨hpaid.totalDue_eq, hpaid.totalPaid_eq, hpaid.within, hpaid.fullyPaid_iff, hpaid.length_le⟩
  · exact hkept.inOrder.settle hm hreached hbefore

/-! ## Every run -/

theorem keptAll_run (calls : List TrackCall) : KeptAll (runAll TrackCall.exec {} calls) := by
  apply runAll_invariant
  · intro st c tr st' hkept hrun
    cases c with
    | initTracking env ledger caller id bps => exact keptAll_init hkept hrun
    | recordPayment env ledger caller id recipient amount => exact keptAll_record hkept hrun
    | settleMilestone env ledger caller id index => exact keptAll_settle hkept hrun
  · intro id tr htr
    cases htr

/-- What a stored tracker and its mask say. -/
structure TrackerInvariant (tr : PaymentTracker) (flags : ℕ) : Prop where
  totalDue : tr.totalDue = (tr.recipients.map RecipientPaymentState.due).sum
  totalPaid : tr.totalPaid = (tr.recipients.map RecipientPaymentState.paid).sum
  within : ∀ r ∈ tr.recipients, 0 ≤ r.paid ∧ r.paid ≤ r.due
  fullyPaid : ∀ r ∈ tr.recipients, r.fullyPaid = true ↔ r.paid = r.due
  word : flags < 2 ^ 64
  bit : ∀ i, flags.testBit i = true ↔ ∃ r, tr.recipients[i]? = some r ∧ r.fullyPaid = true
  shape : ∃ a b c, tr.milestones.map PaymentMilestone.state =
    List.replicate a .settled ++ List.replicate b .reached ++ List.replicate c .pending
  past : ∀ m ∈ tr.milestones,
    m.state ≠ .pending ↔ m.thresholdBps ≤ paidBps tr.totalPaid tr.totalDue

theorem tracker_invariant (calls : List TrackCall) (id : ℕ) (tr : PaymentTracker)
    (htr : (runAll TrackCall.exec {} calls).tracker id = some tr) :
    ∃ flags, (runAll TrackCall.exec {} calls).flags id = some flags ∧ TrackerInvariant tr flags := by
  have hkept := keptAll_run calls id tr htr
  have hpaid := hkept.paidUp
  refine ⟨_, hkept.flags_eq, hpaid.totalDue_eq, hpaid.totalPaid_eq, hpaid.within, hpaid.fullyPaid_iff,
    computePaidFlags_lt hpaid.length_le, testBit_computePaidFlags _, ?_, hkept.inOrder.past_iff⟩
  apply exists_shape
  rw [List.pairwise_map]
  exact hkept.inOrder.ranked

/-- The first of two recipients is paid and the first of three milestones settled. -/
def sampleTracking : List TrackCall :=
  [.initTracking (sampleEnv 20 0) (sampleStore sampleInvoice []) 2 1 [2500, 5000, 10000],
    .recordPayment (sampleEnv 30 0) (sampleStore sampleInvoice []) 2 1 10 50,
    .settleMilestone (sampleEnv 40 0) (sampleStore sampleInvoice []) 2 1 0]

def sampleTracker : PaymentTracker where
  invoiceId := 1
  recipients := [⟨10, 50, 50, true⟩, ⟨11, 50, 0, false⟩]
  milestones := [⟨2500, .settled, 30, 40⟩, ⟨5000, .reached, 30, 0⟩, ⟨10000, .pending, 0, 0⟩]
  totalDue := 100
  totalPaid := 50
  lastUpdated := 40

theorem tracker_invariant_sample :
    (runAll TrackCall.exec {} sampleTracking).tracker 1 = some sampleTracker ∧
    ∃ flags, (runAll TrackCall.exec {} sampleTracking).flags 1 = some flags ∧
      TrackerInvariant sampleTracker flags := by
  have htr : (runAll TrackCall.exec {} sampleTracking).tracker 1 = some sampleTracker := by
    decide +kernel
  exact ⟨htr, tracker_invariant sampleTracking 1 sampleTracker htr⟩

end StellarSplit.Split.Tracking
