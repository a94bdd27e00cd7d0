import StellarSplit.Split.Passes
import StellarSplit.Split.FullRelease
import StellarSplit.Split.Planning

/-!
# What a full release keeps back

What lies above a cap is recorded as surplus and the share of a locked recipient as
unreleased funds. Payouts, surplus and unreleased funds together are the shares. What
is kept back is not distributed, so the share of the last recipient contains it again.
-/

namespace StellarSplit.Split.Reserves

open Exec Function Machine

variable {env : Env} {s t u : Store} {v : Unit} {id : ℕ} {inv : Invoice} {paidSet : List Address}
  {locked : Address → Bool} {effective : ℤ} {slots : List Slot}

/-! ## Running sums -/

/-- No running sum of the list leaves the word. -/
def Fits (xs : List ℤ) : Prop := ∀ n, i128Min ≤ (xs.take n).sum ∧ (xs.take n).sum ≤ i128Max

theorem satAddI128_of_fits {a b : ℤ} (hmin : i128Min ≤ a + b) (hmax : a + b ≤ i128Max) :
    satAddI128 a b = a + b := by
  rw [satAddI128, min_eq_left hmax, max_eq_right hmin]

/-- A saturating sum whose running sums fit is the sum. -/
theorem foldl_satAddI128 {a : ℤ} {xs : List ℤ}
    (h : ∀ n, i128Min ≤ a + (xs.take n).sum ∧ a + (xs.take n).sum ≤ i128Max) :
    xs.foldl satAddI128 a = a + xs.sum := by
  induction xs generalizing a with
  | nil => simp
  | cons x xs ih =>
      have hone : i128Min ≤ a + x ∧ a + x ≤ i128Max := by simpa using h 1
      have hrest : ∀ n, i128Min ≤ a + x + (xs.take n).sum ∧ a + x + (xs.take n).sum ≤ i128Max := by
        intro n
        have hnext := h (n + 1)
        rwa [List.take_succ_cons, List.sum_cons, ← add_assoc] at hnext
      rw [List.foldl_cons, satAddI128_of_fits hone.1 hone.2, ih hrest, List.sum_cons, add_assoc]

theorem Fits.foldl {xs : List ℤ} (h : Fits xs) : xs.foldl satAddI128 0 = xs.sum := by
  rw [foldl_satAddI128 fun n => (zero_add (xs.take n).sum).symm ▸ h n, zero_add]

/-! ## What is kept back of the shares -/

def surplusOf (slots : List Slot) : ℤ := (slots.map fun x => x.whole - x.capped).sum

/-- The capped shares that are set aside. -/
def parkedShares (slots : List Slot) : List ℤ := (slots.filter Slot.parked).map Slot.capped

def unreleasedOf (slots : List Slot) : ℤ := (parkedShares slots).foldl satAddI128 0

theorem surplusOf_nonneg {k : ℕ} {d : ℤ} {rs : List Address}
    (h : Planned inv paidSet locked effective k d rs slots) : 0 ≤ surplusOf slots := by
  apply List.sum_nonneg
  exact List.forall_mem_map.2 fun x hx => sub_nonneg.2 (h.capped_le x hx)

theorem sum_parkedShares (slots : List Slot) : (parkedShares slots).sum = (slots.map Slot.aside).sum := by
  unfold parkedShares
  induction slots with
  | nil => rfl
  | cons x slots ih =>
      rw [List.map_cons, List.sum_cons, ← ih]
      cases hparked : x.parked
      · rw [List.filter_cons_of_neg (by simp [hparked]), Slot.aside, hparked]
        exact (zero_add _).symm
      · rw [List.filter_cons_of_pos hparked, List.map_cons, List.sum_cons, Slot.aside, if_pos hparked]

/-- Payouts, surplus and the shares set aside are the shares. -/
theorem sum_payout_add_kept (slots : List Slot) :
    (slots.map Slot.payout).sum + surplusOf slots + (parkedShares slots).sum = (slots.map Slot.whole).sum := by
  rw [sum_parkedShares, surplusOf]
  induction slots with
  | nil => rfl
  | cons x slots ih =>
      simp only [List.map_cons, List.sum_cons]
      have hparts := x.payout_add_aside
      linarith

theorem unreleasedOf_eq (hfits : Fits (parkedShares slots)) (hsum : 0 ≤ (parkedShares slots).sum) :
    max (unreleasedOf slots) 0 = (parkedShares slots).sum := by
  rw [unreleasedOf, hfits.foldl, max_eq_left hsum]

/-! ## The remainder -/

/-- The shares sum to the funded amount and whatever is kept back before the last recipient. -/
theorem sum_whole (h : Planned inv paidSet locked effective 0 0 inv.recipients slots) (hratios : inv.ratios = [])
    (hrules : inv.splitRules = []) (hunpaid : ∃ r ∈ inv.recipients, r ∉ paidSet) :
    (slots.map Slot.whole).sum = inv.funded +
      ((slots.take (lastUnpaidIdx inv.recipients paidSet)).map fun x => x.whole - x.payout).sum := by
  obtain ⟨before, r, after, hsplit, hr, hafter⟩ := exists_last_unpaid hunpaid
  have hlast : lastUnpaidIdx inv.recipients paidSet = before.length := by
    rw [hsplit, lastUnpaidIdx_eq hr hafter]
  rw [hsplit] at h
  obtain ⟨xs, ys, rfl, hlength, hrest⟩ := h.append
  rw [zero_add, zero_add] at hrest
  cases hrest with
  | paid hpaid _ => exact absurd hpaid hr
  | @share _ _ amount whole _ _ zs _ _ hwhole hzs =>
      have hremainder : whole = inv.funded - (xs.map Slot.payout).sum := by
        rw [proportionalShare, if_neg (by simp [hratios]), if_neg (by simp [hrules]), if_pos hlast.symm] at hwhole
        exact (Except.ok.inj hwhole).symm
      have hnothing : (zs.map Slot.whole).sum = 0 := by
        refine List.sum_eq_zero (List.forall_mem_map.2 fun x hx => ?_)
        have hin : x.recipient ∈ after := hzs.recipients ▸ List.mem_map_of_mem hx
        exact (hzs.of_paid x hx (hafter _ hin)).1
      have hkept : (xs.map fun x => x.whole - x.payout).sum + (xs.map Slot.payout).sum =
          (xs.map Slot.whole).sum := by
        rw [← List.sum_map_add]
        simp only [sub_add_cancel]
      rw [hlast, ← hlength, List.take_left, List.map_append, List.sum_append, List.map_cons, List.sum_cons,
        hnothing]
      dsimp only
      linarith

/-! ## What a release records -/

/-- The records of what is kept back are the same. -/
structure SameRecords (id : ℕ) (s t : Store) : Prop where
  surplus : (t.entries id).surplus = (s.entries id).surplus
  unreleased : (t.entries id).unreleasedFunds = (s.entries id).unreleasedFunds

theorem SameRecords.of_entries (h : t.entries id = s.entries id) : SameRecords id s t := by
  constructor <;> rw [h]

instance sameRecords_refl : Std.Refl (SameRecords id) := ⟨fun _ => .of_entries rfl⟩

instance sameRecords_trans : IsTrans Store (SameRecords id) :=
  ⟨fun _ _ _ h₁ h₂ => ⟨h₂.surplus.trans h₁.surplus, h₂.unreleased.trans h₁.unreleased⟩⟩

instance moves_sameRecords {memo : Memo} : Moves (SameRecords id) memo := ⟨fun _ _ _ => .of_entries rfl⟩

theorem framed_modifyEntry_records {f : Entry → Entry}
    (hf : ∀ e, (f e).surplus = e.surplus ∧ (f e).unreleasedFunds = e.unreleasedFunds) :
    Framed (SameRecords id) (modifyEntry id f) := by
  refine .of fun s _ t hrun => ?_
  obtain rfl := modifyEntry_ok.1 hrun
  constructor
  · rw [Store.setEntry_self, (hf _).1]
  · rw [Store.setEntry_self, (hf _).2]

theorem appendFailed_records (e : Entry) (r : Address) :
    (e.appendFailed r).surplus = e.surplus ∧ (e.appendFailed r).unreleasedFunds = e.unreleasedFunds := by
  unfold Entry.appendFailed
  split <;> exact ⟨rfl, rfl⟩

instance framed_markMissing_records {r : Address} : Framed (SameRecords id) (markMissing id r) :=
  framed_modifyEntry_records fun e => appendFailed_records e r

instance framed_recordFailure_records {r : Address} {x : ℤ} :
    Framed (SameRecords id) (recordFailure env id r x) := by
  have hrecord : Framed (SameRecords id) (recordFailedPayout id r x) :=
    framed_modifyEntry_records fun _ => appendFailed_records _ r
  have hledger : Framed (SameRecords id)
      (modifyEntry id fun e => { e with lastFailedLedger := some env.sequence }) :=
    framed_modifyEntry_records fun _ => ⟨rfl, rfl⟩
  unfold recordFailure
  infer_instance

instance framed_payPlan_records {e : Entry} {platformFee : ℤ} {plan : Plan} :
    Framed (SameRecords id) (payPlan env id inv e platformFee plan) := by
  have hrecipient : ∀ acc ri, Framed (SameRecords id)
      (payRecipient env id inv e.paidRecipients platformFee plan acc ri) := by
    intro acc ri
    unfold payRecipient
    infer_instance
  unfold payPlan payRecipients
  split <;> infer_instance

/-- A stored amount after an addition that is left out unless it is positive. -/
def added (stored x : ℤ) : ℤ := if 0 < x then satAddI128 stored x else stored

/-- The shares of a release, the payouts among them, and what it records as kept back. -/
structure Parted (e : Entry) (inv : Invoice) (e' : Entry) (slots : List Slot) : Prop where
  shares : ∃ effective, effectiveTotal inv e.paidRecipients = .ok effective ∧
    Planned inv e.paidRecipients e.recipientLock effective 0 0 inv.recipients slots
  payouts : shareList inv e.paidRecipients e.recipientLock =
    .ok (slots.map Slot.payout, (slots.map Slot.payout).sum)
  surplus : e'.surplus = added e.surplus (surplusOf slots)
  unreleased : e'.unreleasedFunds = added e.unreleasedFunds (unreleasedOf slots)

theorem payPasses_parted {platformFee : ℤ} {plan : Plan} {failed : Bool}
    (hplan : planPayouts env inv (s.entries id).paidRecipients (s.entries id).recipientLock platformFee = .ok plan)
    (hrun : payPasses env id inv (s.entries id) platformFee plan s = .ok (failed, u)) :
    ∃ slots, Parted (s.entries id) inv (u.entries id) slots := by
  obtain ⟨effective, slots, heffective, hslots, -, hadds⟩ := planPayouts_slots hplan
  obtain ⟨u₁, u₂, u₃, hpark, hprotocol, hpay, hbonus⟩ := payPasses_ok.1 hrun
  have hplanned : plan.payouts = slots.map Slot.payout ∧ plan.distributed = (slots.map Slot.payout).sum := by
    rw [hadds]
    simp [Plan.adding]
  have hkept : plan.surplus = surplusOf slots ∧ plan.unreleased = unreleasedOf slots := by
    rw [hadds]
    simp [Plan.adding, surplusOf, unreleasedOf, parkedShares]
  have h₂ : SameRecords id u₁ u₂ := framed_payProtocolFee.respects u₁ _ u₂ hprotocol
  have h₃ : SameRecords id u₂ u₃ := framed_payPlan_records.respects u₂ _ u₃ hpay
  have h₄ : SameRecords id u₃ u := framed_payBonus.respects u₃ _ u hbonus
  obtain rfl := modifyEntry_ok.1 hpark
  refine ⟨slots, ⟨effective, heffective, hslots⟩, ?_, ?_, ?_⟩
  · rw [planPayouts_share hplan, hplanned.1, hplanned.2]
  · rw [h₄.surplus, h₃.surplus, h₂.surplus, Store.setEntry_self, added, hkept.1]
  · rw [h₄.unreleased, h₃.unreleased, h₂.unreleased, Store.setEntry_self, added, hkept.2]

/-- The state after the passes of a full release for the invoice itself. -/
def OwnPasses (env : Env) (id : ℕ) (inv : Invoice) (actor : Address) (s u : Store) : Prop :=
  ∃ platformFee plan failed, totalPlatformFee env inv actor = .ok platformFee ∧
    planPayouts env inv (s.entries id).paidRecipients (s.entries id).recipientLock platformFee = .ok plan ∧
    payPasses env id inv (s.entries id) platformFee plan s = .ok (failed, u)

/-- The payouts with what is added to the surplus and to the unreleased funds. -/
def accountedFor (slots : List Slot) : ℤ :=
  (slots.map Slot.payout).sum + max (surplusOf slots) 0 + max (unreleasedOf slots) 0

/-- A full release pays out or records the shares, neither more nor less. They are the funded amount,
unless rules of their own give the shares or something is kept back before the last recipient. The
passes after the payouts keep the records, as long as no chain of forwards leads back to the invoice. -/
theorem shares_accounted_for {depth : ℕ} {actor : Address}
    (hrun : releaseFull env (releaseWithin env depth) id inv actor s = .ok (v, t)) :
    ∃ u slots, OwnPasses env id inv actor s u ∧
      (id ∉ forwardReach s id → ForwardsInto (forwardReach s id) inv → SameRecords id u t) ∧
      Parted (s.entries id) inv (u.entries id) slots ∧
      (Fits (parkedShares slots) → 0 ≤ (parkedShares slots).sum →
        accountedFor slots = (slots.map Slot.whole).sum ∧
          (inv.ratios = [] → inv.splitRules = [] → (∃ r ∈ inv.recipients, r ∉ (s.entries id).paidRecipients) →
            (∀ x ∈ slots.take (lastUnpaidIdx inv.recipients (s.entries id).paidRecipients), x.payout = x.whole) →
            accountedFor slots = inv.funded)) := by
  obtain ⟨platformFee, plan, failed, u, u₂, u₃, u₄, hfee, hplan, hpasses, hgroup, hinsurance, hforward,
    hfinish⟩ := releaseFull_passes hrun
  obtain ⟨slots, hparted⟩ := payPasses_parted hplan hpasses
  refine ⟨u, slots, ⟨platformFee, plan, failed, hfee, hplan, hpasses⟩, fun hacyclic hinto => ?_, hparted,
    fun hfits hsum => ?_⟩
  · have hlast : Change (others id) anyMemo u u₄ := lastPasses_change trivial trivial hacyclic
      (payPasses_closed hacyclic hpasses) hinto hgroup hinsurance hforward
    have hsame : u₄.entries id = u.entries id := hlast.entries id (by simp)
    obtain ⟨-, hentries⟩ := finishRelease_ok hfinish
    constructor
    · rw [hentries, Store.setEntry_self, hsame]
    · rw [hentries, Store.setEntry_self, hsame]
  · obtain ⟨effective, -, hslots⟩ := hparted.shares
    have htotal : accountedFor slots = (slots.map Slot.whole).sum := by
      rw [accountedFor, max_eq_left (surplusOf_nonneg hslots), unreleasedOf_eq hfits hsum, sum_payout_add_kept]
    refine ⟨htotal, fun hratios hrules hunpaid hfull => ?_⟩
    have hnothing : ((slots.take (lastUnpaidIdx inv.recipients (s.entries id).paidRecipients)).map fun x =>
        x.whole - x.payout).sum = 0 := by
      refine List.sum_eq_zero (List.forall_mem_map.2 fun x hx => ?_)
      rw [hfull x hx, sub_self]
    rw [htotal, sum_whole hslots hratios hrules hunpaid, hnothing, add_zero]

/-- An invoice whose second recipient may get 30. -/
def cappedInvoice : Invoice :=
  { sampleInvoice with
    funded := 100
    recipientMaxPayouts := [none, some 30] }

/-- A contract that holds one invoice, with one recipient locked. -/
def lockedStore (inv : Invoice) (r : Address) : Store :=
  (sampleStore inv []).setEntry 1
    { (sampleStore inv []).entries 1 with recipientLock := fun a => decide (a = r) }

/-- Of the share of 50 above the cap of 30 the second recipient gets nothing, as the 30 are set aside. -/
theorem cappedInvoice_slots {effective : ℤ} (heffective : effectiveTotal cappedInvoice [] = .ok effective)
    (h : Planned cappedInvoice [] (fun a => decide (a = 11)) effective 0 0 cappedInvoice.recipients slots) :
    slots = [⟨10, 50, 50, false⟩, ⟨11, 50, 30, true⟩] := by
  obtain rfl : (100 : ℤ) = effective := Except.ok.inj heffective
  cases h with
  | paid hpaid _ => exact absurd hpaid List.not_mem_nil
  | share _ hfirst hwhole hrest =>
      obtain rfl := Option.some.inj hfirst
      obtain rfl : (50 : ℤ) = _ := Except.ok.inj hwhole
      cases hrest with
      | paid hpaid _ => exact absurd hpaid List.not_mem_nil
      | share _ hsecond hwhole hrest =>
          obtain rfl := Option.some.inj hsecond
          obtain rfl : (50 : ℤ) = _ := Except.ok.inj hwhole
          cases hrest
          rfl

theorem shares_accounted_for_sample :
    ∃ u slots, OwnPasses (sampleEnv 20 200) 1 cappedInvoice 2 (lockedStore cappedInvoice 11) u ∧
      Parted ((lockedStore cappedInvoice 11).entries 1) cappedInvoice (u.entries 1) slots ∧
      accountedFor slots = 100 := by
  have hrun := ok_commit (x := releaseFull (sampleEnv 20 200) (releaseWithin (sampleEnv 20 200) 0) 1 cappedInvoice 2)
    (s := lockedStore cappedInvoice 11) (a := ()) (by decide +kernel)
  obtain ⟨u, slots, hown, -, hparted, htotal⟩ := shares_accounted_for hrun
  obtain ⟨effective, heffective, hplanned⟩ := hparted.shares
  have hslots := cappedInvoice_slots heffective hplanned
  subst hslots
  have hfits : Fits (parkedShares [⟨10, 50, 50, false⟩, ⟨11, 50, 30, true⟩]) := by
    rintro (_ | n) <;> simp [parkedShares, i128Min, i128Max]
  obtain ⟨-, hfunded⟩ := htotal hfits (by decide)
  exact ⟨u, _, hown, hparted, hfunded rfl rfl ⟨10, by decide⟩ (by decide)⟩

/-- What a full release of the invoice pays out, and records as surplus and as unreleased funds. -/
def released (inv : Invoice) (r : Address) : Option (List ℤ × ℤ × ℤ) :=
  (releaseFull (sampleEnv 20 200) (releaseWithin (sampleEnv 20 200) 0) 1 inv 2 (lockedStore inv r)).toOption.bind
    fun res => (shareList inv [] fun a => decide (a = r)).toOption.map fun l =>
      (l.1, (res.2.entries 1).surplus, (res.2.entries 1).unreleasedFunds)

/-- Rules for three tenths each pay out 60 of 100. With the first of two recipients locked, 50 are set
aside and 100 paid out; with the second locked and capped at a negative amount, 60 are recorded. -/
theorem shares_not_funded :
    released { sampleInvoice with funded := 100, splitRules := [.percentage 3000, .percentage 3000] } 12 =
        some ([30, 30], 0, 0) ∧
      released { sampleInvoice with funded := 100 } 10 = some ([0, 100], 0, 50) ∧
      released { sampleInvoice with funded := 100, recipientMaxPayouts := [none, some (-10)] } 11 =
        some ([50, 0], 60, 0) := by
  refine ⟨?_, ?_, ?_⟩
  · decide +kernel
  · decide +kernel
  · decide +kernel

end StellarSplit.Split.Reserves
