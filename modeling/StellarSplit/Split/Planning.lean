import Mathlib.Data.List.Induction
import StellarSplit.Split.Shares

/-!
# What the plan of a release adds up

The planning pass gives every recipient a share, takes off what lies above a cap, and
sets a locked share aside. What it adds up over the recipients is read here from the
list of those shares.
-/

namespace StellarSplit.Split

open Exec Function Machine

variable {env : Env} {inv : Invoice} {paidSet : List Address} {locked : Address → Bool}
  {effective platformFee d : ℤ} {k : ℕ}

/-! ## Shares -/

/-- The share of a recipient before and after the cap, and whether it is set aside. -/
structure Slot where
  recipient : Address
  whole : ℤ
  capped : ℤ
  parked : Bool

/-- What the plan pays out of a share. -/
def Slot.payout (x : Slot) : ℤ := if x.parked = true then 0 else x.capped

/-- What the plan sets aside of a share. -/
def Slot.aside (x : Slot) : ℤ := if x.parked = true then x.capped else 0

theorem Slot.payout_add_aside (x : Slot) : x.payout + x.aside = x.capped := by
  unfold Slot.payout Slot.aside
  split_ifs
  · exact zero_add _
  · exact add_zero _

/-- The shares of recipients from place `k` on, when `d` has been distributed before them. -/
inductive Planned (inv : Invoice) (paidSet : List Address) (locked : Address → Bool) (effective : ℤ) :
    ℕ → ℤ → List Address → List Slot → Prop
  | nil {k : ℕ} {d : ℤ} : Planned inv paidSet locked effective k d [] []
  | paid {k : ℕ} {d : ℤ} {r : Address} {rs : List Address} {slots : List Slot} (hpaid : r ∈ paidSet)
      (h : Planned inv paidSet locked effective (k + 1) d rs slots) :
      Planned inv paidSet locked effective k d (r :: rs) (⟨r, 0, 0, false⟩ :: slots)
  | share {k : ℕ} {d amount whole : ℤ} {r : Address} {rs : List Address} {slots : List Slot}
      (hunpaid : r ∉ paidSet) (hamount : inv.amounts[k]? = some amount)
      (hwhole : proportionalShare inv effective (lastUnpaidIdx inv.recipients paidSet) k amount d = .ok whole)
      (h : Planned inv paidSet locked effective (k + 1)
        (d + Slot.payout ⟨r, whole, cappedShare inv k whole, locked r⟩) rs slots) :
      Planned inv paidSet locked effective k d (r :: rs) (⟨r, whole, cappedShare inv k whole, locked r⟩ :: slots)

theorem cappedShare_le (inv : Invoice) (i : ℕ) (whole : ℤ) : cappedShare inv i whole ≤ whole := by
  unfold cappedShare
  split
  · exact min_le_left _ _
  · exact le_rfl

section Slots

variable {rs : List Address} {slots : List Slot}

theorem Planned.recipients (h : Planned inv paidSet locked effective k d rs slots) :
    slots.map Slot.recipient = rs := by
  induction h with
  | nil => rfl
  | paid _ _ ih => rw [List.map_cons, ih]
  | share _ _ _ _ ih => rw [List.map_cons, ih]

/-- The share of a recipient who was paid before is nothing. -/
theorem Planned.of_paid (h : Planned inv paidSet locked effective k d rs slots) :
    ∀ x ∈ slots, x.recipient ∈ paidSet → x.whole = 0 ∧ x.capped = 0 ∧ x.parked = false := by
  induction h with
  | nil => exact fun x hx => absurd hx List.not_mem_nil
  | paid _ _ ih => exact List.forall_mem_cons.2 ⟨fun _ => ⟨rfl, rfl, rfl⟩, ih⟩
  | share hunpaid _ _ _ ih => exact List.forall_mem_cons.2 ⟨fun hpaid => absurd hpaid hunpaid, ih⟩

theorem Planned.of_unpaid (h : Planned inv paidSet locked effective k d rs slots) :
    ∀ x ∈ slots, x.recipient ∉ paidSet → x.parked = locked x.recipient := by
  induction h with
  | nil => exact fun x hx => absurd hx List.not_mem_nil
  | paid hpaid _ ih => exact List.forall_mem_cons.2 ⟨fun hunpaid => absurd hpaid hunpaid, ih⟩
  | share _ _ _ _ ih => exact List.forall_mem_cons.2 ⟨fun _ => rfl, ih⟩

/-- Without caps a share is not cut. -/
theorem Planned.capped_eq (huncapped : ∀ i, inv.recipientMaxPayouts.getD i none = none)
    (h : Planned inv paidSet locked effective k d rs slots) : ∀ x ∈ slots, x.capped = x.whole := by
  have hsame : ∀ i whole, cappedShare inv i whole = whole := by
    intro i whole
    rw [cappedShare, huncapped i]
  induction h with
  | nil => exact fun x hx => absurd hx List.not_mem_nil
  | paid _ _ ih => exact List.forall_mem_cons.2 ⟨rfl, ih⟩
  | share _ _ _ _ ih => exact List.forall_mem_cons.2 ⟨hsame _ _, ih⟩

theorem Planned.capped_le (h : Planned inv paidSet locked effective k d rs slots) :
    ∀ x ∈ slots, x.capped ≤ x.whole := by
  induction h with
  | nil => exact fun x hx => absurd hx List.not_mem_nil
  | paid _ _ ih => exact List.forall_mem_cons.2 ⟨le_rfl, ih⟩
  | share _ _ _ _ ih => exact List.forall_mem_cons.2 ⟨cappedShare_le _ _ _, ih⟩

/-- The recipient at a place, and the share that the loop works out for it. -/
theorem Planned.get (h : Planned inv paidSet locked effective k d rs slots) {i : ℕ} {x : Slot} (hx : slots[i]? = some x) :
    rs[i]? = some x.recipient ∧ (x.recipient ∉ paidSet → ∃ amount before, inv.amounts[k + i]? = some amount ∧
      proportionalShare inv effective (lastUnpaidIdx inv.recipients paidSet) (k + i) amount before = .ok x.whole ∧
        x.capped = cappedShare inv (k + i) x.whole) := by
  induction h generalizing i with
  | nil => simp at hx
  | paid hpaid _ ih =>
      cases i with
      | zero =>
          obtain rfl := Option.some.inj hx
          exact ⟨rfl, fun hunpaid => absurd hpaid hunpaid⟩
      | succ i =>
          rw [← Nat.add_assoc, Nat.add_right_comm]
          exact ih hx
  | share hunpaid hamount hwhole _ ih =>
      cases i with
      | zero =>
          obtain rfl := Option.some.inj hx
          exact ⟨rfl, fun _ => ⟨_, _, hamount, hwhole, rfl⟩⟩
      | succ i =>
          rw [← Nat.add_assoc, Nat.add_right_comm]
          exact ih hx

theorem exists_planned (locked : Address → Bool) (effective : ℤ) (k : ℕ) (d : ℤ) (hshares : ∀ i r, rs[i]? = some r → r ∉ paidSet → ∃ amount whole,
      inv.amounts[k + i]? = some amount ∧ ∀ before,
        proportionalShare inv effective (lastUnpaidIdx inv.recipients paidSet) (k + i) amount before = .ok whole) :
    ∃ slots, Planned inv paidSet locked effective k d rs slots := by
  induction rs generalizing k d with
  | nil => exact ⟨[], .nil⟩
  | cons r rs ih =>
      have hrest : ∀ i r', rs[i]? = some r' → r' ∉ paidSet → ∃ amount whole,
          inv.amounts[k + 1 + i]? = some amount ∧ ∀ before,
            proportionalShare inv effective (lastUnpaidIdx inv.recipients paidSet) (k + 1 + i) amount before =
              .ok whole := by
        intro i r' hr hunpaid
        rw [Nat.add_right_comm, Nat.add_assoc]
        exact hshares (i + 1) r' hr hunpaid
      by_cases hpaid : r ∈ paidSet
      · obtain ⟨slots, hslots⟩ := ih (k + 1) d hrest
        exact ⟨_, .paid hpaid hslots⟩
      · obtain ⟨amount, whole, hamount, hwhole⟩ := hshares 0 r rfl hpaid
        obtain ⟨slots, hslots⟩ :=
          ih (k + 1) (d + Slot.payout ⟨r, whole, cappedShare inv k whole, locked r⟩) hrest
        exact ⟨_, .share hpaid hamount (hwhole d) hslots⟩

/-- The shares of some recipients and of those after them. -/
theorem Planned.append {before after : List Address}
    (h : Planned inv paidSet locked effective k d (before ++ after) slots) :
    ∃ xs ys, slots = xs ++ ys ∧ xs.length = before.length ∧
      Planned inv paidSet locked effective (k + before.length) (d + (xs.map Slot.payout).sum) after ys := by
  induction before generalizing k d slots with
  | nil => exact ⟨[], slots, rfl, rfl, by simpa using h⟩
  | cons r before ih =>
      have hplace : k + 1 + before.length = k + (r :: before).length := by
        rw [List.length_cons]
        omega
      cases h with
      | paid hpaid hrest =>
          obtain ⟨xs, ys, rfl, hlength, hafter⟩ := ih hrest
          refine ⟨_ :: xs, ys, rfl, by rw [List.length_cons, List.length_cons, hlength], ?_⟩
          rw [hplace] at hafter
          simpa [Slot.payout] using hafter
      | share hunpaid hamount hwhole hrest =>
          obtain ⟨xs, ys, rfl, hlength, hafter⟩ := ih hrest
          refine ⟨_ :: xs, ys, rfl, by rw [List.length_cons, List.length_cons, hlength], ?_⟩
          rw [hplace, add_assoc] at hafter
          simpa using hafter

end Slots

/-! ## The last recipient who was not paid before -/

theorem last_of_paid {rs : List Address} {last : ℕ} (h : ∀ r ∈ rs, r ∈ paidSet) :
    (rs.zipIdx k).foldl (fun last ri => if ri.1 ∈ paidSet then last else ri.2) last = last := by
  induction rs generalizing k with
  | nil => rfl
  | cons r rs ih =>
      obtain ⟨hr, hrs⟩ := List.forall_mem_cons.1 h
      rw [List.zipIdx_cons, List.foldl_cons, if_pos hr, ih hrs]

theorem exists_last_unpaid {rs : List Address} (h : ∃ r ∈ rs, r ∉ paidSet) :
    ∃ before r after, rs = before ++ r :: after ∧ r ∉ paidSet ∧ ∀ a ∈ after, a ∈ paidSet := by
  induction rs using List.reverseRecOn with
  | nil => simp at h
  | append_singleton rs last ih =>
      by_cases hlast : last ∈ paidSet
      · have hbefore : ∃ r ∈ rs, r ∉ paidSet := by
          obtain ⟨r, hr, hunpaid⟩ := h
          rcases List.mem_append.1 hr with hin | hlast'
          · exact ⟨r, hin, hunpaid⟩
          · rw [List.mem_singleton.1 hlast'] at hunpaid
            exact absurd hlast hunpaid
        obtain ⟨before, r, after, rfl, hunpaid, hafter⟩ := ih hbefore
        refine ⟨before, r, after ++ [last], by simp, hunpaid, ?_⟩
        intro a ha
        rcases List.mem_append.1 ha with ha | ha
        · exact hafter a ha
        · exact List.mem_singleton.1 ha ▸ hlast
      · exact ⟨rs, last, [], rfl, hlast, fun a ha => absurd ha List.not_mem_nil⟩

/-- The index is that of the last recipient who was not paid before. -/
theorem lastUnpaidIdx_eq {before after : List Address} {r : Address} (hunpaid : r ∉ paidSet)
    (hafter : ∀ a ∈ after, a ∈ paidSet) : lastUnpaidIdx (before ++ r :: after) paidSet = before.length := by
  rw [lastUnpaidIdx, List.zipIdx_append, List.foldl_append, List.zipIdx_cons, List.foldl_cons, if_neg hunpaid,
    last_of_paid hafter, Nat.zero_add]

/-! ## Taxes and fees on a share -/

/-- The tax on a share. -/
def taxOf (inv : Invoice) (share : ℤ) : ℤ := asI128 (asU128 share * inv.taxBps / 10000)

/-- The platform fee on a share after tax; none where the contract cannot work it out. -/
def feeOf (env : Env) (inv : Invoice) (platformFee : ℤ) (recipient : Address) (share : ℤ) : ℤ :=
  match feeOnShare (env.config.recipientFeeWaivers.contains recipient) inv.funded platformFee
      (share - taxOf inv share) with
  | .ok fee => fee
  | .error _ => 0

theorem checkedBpsOf_quotient {amount r : ℤ} {bps : ℕ} (h : checkedBpsOf amount bps 10000 = .ok r) :
    asU128 amount * bps ≤ u128Max ∧ r = asI128 (asU128 amount * bps / 10000) := by
  unfold checkedBpsOf at h
  split at h
  · rename_i q hq
    obtain rfl := Except.ok.inj h
    exact (checkedMulDiv_eq hq).2
  · cases h

/-- The tax on a share whose product with the rate fits the word. -/
theorem taxOf_eq {share : ℤ} (h : asU128 share * inv.taxBps ≤ u128Max) :
    taxOf inv share = (asU128 share * inv.taxBps / 10000 : ℕ) := by
  apply asI128_of_lt
  unfold u128Max at h
  omega

theorem taxOf_nonneg {share : ℤ} (h : asU128 share * inv.taxBps ≤ u128Max) : 0 ≤ taxOf inv share := by
  rw [taxOf_eq h]
  exact Int.natCast_nonneg _

@[simp] theorem taxOf_zero (inv : Invoice) : taxOf inv 0 = 0 := by
  simp [taxOf, asU128, asI128]

@[simp] theorem feeOf_zero (env : Env) (inv : Invoice) (platformFee : ℤ) (recipient : Address) :
    feeOf env inv platformFee recipient 0 = 0 := by
  have hzero : asU128 0 = 0 := rfl
  rw [feeOf, taxOf_zero, sub_zero, feeOnShare]
  by_cases hnone : env.config.recipientFeeWaivers.contains recipient = true ∨ inv.funded = 0
  · rw [if_pos hnone]
  · rw [if_neg hnone, checkedProportion, hzero, checkedMulDiv]
    split_ifs
    · rfl
    · simp [checkedMulU128, asI128]

/-! ## The plan -/

/-- A plan with more shares. -/
def Plan.adding (env : Env) (inv : Invoice) (platformFee : ℤ) (acc : Plan) (slots : List Slot) : Plan where
  payouts := acc.payouts ++ slots.map Slot.payout
  distributed := acc.distributed + (slots.map Slot.payout).sum
  totalFee := acc.totalFee + (slots.map fun x => feeOf env inv platformFee x.recipient x.payout).sum
  totalTax := acc.totalTax + (slots.map fun x => taxOf inv x.payout).sum
  surplus := acc.surplus + (slots.map fun x => x.whole - x.capped).sum
  unreleased := ((slots.filter Slot.parked).map Slot.capped).foldl satAddI128 acc.unreleased

theorem Plan.adding_nil (acc : Plan) : acc.adding env inv platformFee [] = acc := by
  simp [Plan.adding]

theorem Plan.adding_cons (acc : Plan) (x : Slot) (slots : List Slot) :
    acc.adding env inv platformFee (x :: slots) =
      (acc.adding env inv platformFee [x]).adding env inv platformFee slots := by
  cases hparked : x.parked <;> simp [Plan.adding, hparked, add_assoc]

theorem planStep_slot {acc acc' : Plan} {r : Address}
    (h : planStep env inv paidSet locked effective platformFee acc (r, k) = .ok acc') :
    ∃ x, (∀ {rs slots}, Planned inv paidSet locked effective (k + 1) acc'.distributed rs slots →
        Planned inv paidSet locked effective k acc.distributed (r :: rs) (x :: slots)) ∧
      asU128 x.payout * inv.taxBps ≤ u128Max ∧ acc' = acc.adding env inv platformFee [x] := by
  have hnothing : asU128 0 * inv.taxBps ≤ u128Max := by simp [asU128]
  obtain ⟨amount, hamount, h⟩ := except_bind_ok.1 h
  by_cases hpaid : r ∈ paidSet
  · rw [if_pos hpaid] at h
    obtain rfl := Except.ok.inj h
    exact ⟨⟨r, 0, 0, false⟩, fun hrest => .paid hpaid hrest, hnothing, by simp [Plan.adding, Slot.payout]⟩
  · rw [if_neg hpaid] at h
    obtain ⟨whole, hwhole, h⟩ := except_bind_ok.1 h
    have hread : inv.amounts[k]? = some amount := unwrap_ok.1 hamount
    refine ⟨⟨r, whole, cappedShare inv k whole, locked r⟩, fun hrest => .share hpaid hread hwhole ?_, ?_⟩
    · suffices hdist : acc'.distributed =
          acc.distributed + Slot.payout ⟨r, whole, cappedShare inv k whole, locked r⟩ by rwa [hdist] at hrest
      dsimp only at h
      split_ifs at h with hlocked
      · obtain rfl := Except.ok.inj h
        simp [Slot.payout, hlocked]
      · obtain ⟨tax, -, h⟩ := except_bind_ok.1 h
        obtain ⟨fee, -, h⟩ := except_bind_ok.1 h
        obtain rfl := Except.ok.inj h
        simp [Slot.payout, hlocked]
    · dsimp only at h
      split_ifs at h with hlocked
      · obtain rfl := Except.ok.inj h
        rw [Slot.payout, if_pos hlocked]
        exact ⟨hnothing, by simp [Plan.adding, Slot.payout, hlocked]⟩
      · obtain ⟨tax, htax, h⟩ := except_bind_ok.1 h
        obtain ⟨fee, hfee, h⟩ := except_bind_ok.1 h
        obtain rfl := Except.ok.inj h
        obtain ⟨hfits, htax⟩ := checkedBpsOf_quotient htax
        have htax : tax = taxOf inv (cappedShare inv k whole) := htax
        have hfee : feeOf env inv platformFee r (cappedShare inv k whole) = fee := by
          rw [feeOf, ← htax, hfee]
        rw [Slot.payout, if_neg hlocked]
        exact ⟨hfits, by simp [Plan.adding, Slot.payout, hlocked, htax, hfee]⟩

/-- What the planning pass adds up over recipients. -/
theorem planFold_slots {acc acc' : Plan} {rs : List Address}
    (h : (rs.zipIdx k).foldlM (planStep env inv paidSet locked effective platformFee) acc = .ok acc') :
    ∃ slots, Planned inv paidSet locked effective k acc.distributed rs slots ∧
      (∀ x ∈ slots, asU128 x.payout * inv.taxBps ≤ u128Max) ∧ acc' = acc.adding env inv platformFee slots := by
  induction rs generalizing k acc with
  | nil =>
      obtain rfl := Except.ok.inj h
      exact ⟨[], .nil, fun x hx => absurd hx List.not_mem_nil, (Plan.adding_nil _).symm⟩
  | cons r rs ih =>
      rw [List.zipIdx_cons, List.foldlM_cons] at h
      obtain ⟨mid, hfirst, hrest⟩ := except_bind_ok.1 h
      obtain ⟨x, hshared, hfits, hmid⟩ := planStep_slot hfirst
      obtain ⟨slots, hslots, hall, hacc⟩ := ih hrest
      refine ⟨x :: slots, hshared hslots, List.forall_mem_cons.2 ⟨hfits, hall⟩, ?_⟩
      rw [Plan.adding_cons, ← hmid]
      exact hacc

/-- The plan of a release is what the shares of its recipients add up to. -/
theorem planPayouts_slots {plan : Plan} (h : planPayouts env inv paidSet locked platformFee = .ok plan) :
    ∃ effective slots, effectiveTotal inv paidSet = .ok effective ∧
      Planned inv paidSet locked effective 0 0 inv.recipients slots ∧
      (∀ x ∈ slots, asU128 x.payout * inv.taxBps ≤ u128Max) ∧
      plan = ({} : Plan).adding env inv platformFee slots := by
  obtain ⟨effective, heffective, h⟩ := except_bind_ok.1 h
  obtain ⟨slots, hslots⟩ := planFold_slots h
  exact ⟨effective, slots, heffective, hslots⟩

end StellarSplit.Split
