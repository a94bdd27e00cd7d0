import StellarSplit.Split.PlainRelease
import StellarSplit.Split.Refund
import StellarSplit.Split.Tiers
import StellarSplit.Split.Tracking

/-!
# Funding in basis points

Three functions give how far an invoice is funded in basis points. One divides the total
first when the product is too large, one saturates the product, and one fails. They agree
up to where the first rounds the divisor by too much.
-/

namespace StellarSplit.Split.FundingProgress

open Exec Machine PlainRelease Proportion Schema Tracking

/-! ## The view of an invoice -/

def loadInvoiceOpt (sl : Slots) : Result InvoiceCore :=
  match sl.core.read with
  | some core => .ok core
  | none => .error (.error .invoiceNotFound)

def InvoiceCore.fundedOr (core : InvoiceCore) (hot : Option InvoiceHot) : ℤ :=
  match hot with
  | some hot => hot.funded.1
  | none => core.funded.1

def getInvoiceFundingProgress (sl : Slots) : Result ℕ := do
  let core ← loadInvoiceOpt sl
  let funded := InvoiceCore.fundedOr core sl.hot
  let total ← sumAmounts core.amounts
  if total ≤ 0 ∨ funded ≤ 0 then .ok 0
  else if total ≤ funded then .ok 10000
  else match checkedMulDiv (asU128 funded) 10000 (asU128 total) with
    | some bps => .ok (asU32 bps)
    | none => .error (.error .arithmeticOverflow)

/-- The invoice has this funding and this total in the view. -/
structure Shows (sl : Slots) (funded total : ℤ) : Prop where
  funded : ∃ core, sl.core.read = some core ∧ InvoiceCore.fundedOr core sl.hot = funded
  total : ∃ core, sl.core.read = some core ∧ sumAmounts core.amounts = .ok total

variable {sl : Slots} {funded more total : ℤ} {bps : ℕ}

/-! ## The cases -/

theorem fundingBps_zero (h : total ≤ 0 ∨ funded ≤ 0) : fundingBps funded total = 0 := if_pos h

theorem fundingBps_full (hpos : 0 < total) (hfull : total ≤ funded) : fundingBps funded total = 10000 := by
  unfold fundingBps
  rw [if_neg (by omega), if_pos hfull]

/-- The whole part of a proper part of the total in basis points is below all of them. -/
theorem quot_lt (hpos : 0 < funded) (hless : funded < total) : funded * 10000 / total < 10000 :=
  Int.ediv_lt_of_lt_mul (hpos.trans hless) (by omega)

theorem fundingBps_fits (hpos : 0 < funded) (hless : funded < total) (hfits : funded * 10000 ≤ i128Max) :
    (fundingBps funded total : ℤ) = funded * 10000 / total := by
  have hquot : 0 ≤ funded * 10000 / total := Int.ediv_nonneg (by omega) (by omega)
  have hlt := quot_lt hpos hless
  unfold fundingBps
  rw [if_neg (by omega), if_neg (by omega), if_pos hfits]
  omega

theorem large_of_wide (hwide : i128Max < funded * 10000) : 10000 ≤ funded := by
  unfold i128Max at hwide
  omega

theorem fundingBps_wide (hless : funded < total) (hwide : i128Max < funded * 10000) :
    (fundingBps funded total : ℤ) = min (funded / (total / 10000)) 10000 := by
  have hlarge := large_of_wide hwide
  have hpos : 0 < funded := by omega
  have hstep : 1 ≤ total / 10000 := by omega
  have hquot : 0 ≤ funded / (total / 10000) := Int.ediv_nonneg hpos.le (by omega)
  unfold fundingBps
  rw [if_neg (by omega), if_neg (by omega), if_neg (by omega), max_eq_left hstep]
  omega

theorem fundingBps_le : fundingBps funded total ≤ 10000 := by
  unfold fundingBps
  split_ifs <;> omega

/-- Dividing the total first makes the quotient larger. -/
theorem quot_le_step (hwide : 10000 ≤ total) (hnonneg : 0 ≤ funded) :
    funded * 10000 / total ≤ funded / (total / 10000) := by
  have hquot : 0 ≤ funded * 10000 / total := Int.ediv_nonneg (by omega) (by omega)
  have hproduct : funded * 10000 / total * (total / 10000 * 10000) ≤ funded * 10000 :=
    (mul_le_mul_of_nonneg_left (Int.ediv_mul_le total (by norm_num)) hquot).trans
      (Int.ediv_mul_le _ (by omega))
  refine (Int.le_ediv_iff_mul_le (by omega)).2 ?_
  linarith

/-! ## More funding -/

theorem fundingBps_mono (h : funded ≤ more) : fundingBps funded total ≤ fundingBps more total := by
  by_cases hzero : total ≤ 0 ∨ funded ≤ 0
  · rw [fundingBps_zero hzero]
    exact Nat.zero_le _
  by_cases hfull : total ≤ more
  · rw [fundingBps_full (by omega) hfull]
    exact fundingBps_le
  have hpos : 0 < funded := by omega
  have hless : more < total := by omega
  have hproduct : funded * 10000 / total ≤ more * 10000 / total := Int.ediv_le_ediv (by omega) (by omega)
  by_cases hfits : more * 10000 ≤ i128Max
  · have hmore := fundingBps_fits (hpos.trans_le h) hless hfits
    have hthis := fundingBps_fits hpos (h.trans_lt hless) (by omega)
    omega
  · have hmore := fundingBps_wide hless (not_le.1 hfits)
    by_cases hfits' : funded * 10000 ≤ i128Max
    · -- the product fits below and not above
      have hthis := fundingBps_fits hpos (h.trans_lt hless) hfits'
      have hlt := quot_lt hpos (h.trans_lt hless)
      have hlarge := large_of_wide (not_le.1 hfits)
      have hstep : more * 10000 / total ≤ more / (total / 10000) := quot_le_step (by omega) (by omega)
      omega
    · have hthis := fundingBps_wide (h.trans_lt hless) (not_le.1 hfits')
      have hlarge := large_of_wide (not_le.1 hfits)
      have hstep : funded / (total / 10000) ≤ more / (total / 10000) := Int.ediv_le_ediv (by omega) h
      omega

/-! ## The other two functions -/

theorem sumAmounts_word {amounts : List ℤ} (h : sumAmounts amounts = .ok total) : total ≤ i128Max := by
  have hfold : ∀ (l : List ℤ) (start : ℤ), start ≤ i128Max → l.foldlM checkedAddI128 start = some total →
      total ≤ i128Max := by
    intro l
    induction l with
    | nil =>
        rintro start hstart ⟨⟩
        exact hstart
    | cons a l ih =>
        intro start hstart hrun
        obtain ⟨next, hnext, hrest⟩ := Option.bind_eq_some_iff.1 (List.foldlM_cons.symm.trans hrun)
        exact ih _ (checkedAddI128_le hnext) hrest
  unfold sumAmounts at h
  split at h
  · rename_i total' htotal
    obtain rfl := Except.ok.inj h
    exact hfold amounts 0 (by decide) htotal
  · cases h

theorem getInvoiceFundingProgress_eq (hshows : Shows sl funded total)
    (h : getInvoiceFundingProgress sl = .ok bps) :
    (total ≤ 0 ∨ funded ≤ 0) ∧ bps = 0 ∨ 0 < total ∧ total ≤ funded ∧ bps = 10000 ∨
      0 < funded ∧ funded < total ∧ (bps : ℤ) = funded * 10000 / total := by
  obtain ⟨⟨core, hcore, hfunded⟩, core', hcore', htotal⟩ := hshows
  obtain rfl : core = core' := Option.some.inj (hcore.symm.trans hcore')
  unfold getInvoiceFundingProgress loadInvoiceOpt at h
  rw [hcore] at h
  obtain ⟨_, hsome, h⟩ := except_bind_ok.1 h
  obtain rfl := Except.ok.inj hsome
  obtain ⟨_, htotal', h⟩ := except_bind_ok.1 h
  obtain rfl := Except.ok.inj (htotal.symm.trans htotal')
  rw [hfunded] at h
  split_ifs at h with hzero hfull
  · exact .inl ⟨hzero, (Except.ok.inj h).symm⟩
  · exact .inr (.inl ⟨by omega, hfull, (Except.ok.inj h).symm⟩)
  · push Not at hzero
    have hquot : ∀ x, checkedProportion funded 10000 total = .ok x → x = part 10000 total funded :=
      fun x => checkedProportion_part ⟨hzero.2.le, by omega⟩ ⟨by norm_num, (by decide : (10000 : ℤ) ≤ i128Max)⟩
        (sumAmounts_word htotal)
    unfold checkedProportion at hquot
    split at h
    · rename_i x hx
      rw [show asU128 10000 = 10000 from rfl, hx] at hquot
      obtain rfl := hquot x rfl
      have hlt := quot_lt hzero.2 (not_le.1 hfull)
      have hnonneg : 0 ≤ funded * 10000 / total := Int.ediv_nonneg (by omega) (by omega)
      have hpart : part 10000 total funded = funded * 10000 / total := by rw [part, mul_comm]
      obtain rfl := Except.ok.inj h
      refine .inr (.inr ⟨hzero.2, not_le.1 hfull, ?_⟩)
      unfold asU32
      omega
    · cases h

/-! ## Agreement -/

/-- All of it is the full 10000 basis points and only all of it, more funding never shows less,
and the tracked progress and the view of an invoice show the same. -/
structure Agrees (funded total : ℤ) : Prop where
  full : fundingBps funded total = 10000 ↔ 0 < total ∧ total ≤ funded
  mono : ∀ more, funded ≤ more → fundingBps funded total ≤ fundingBps more total
  tracked : fundingBps funded total = Tracking.paidBps funded total
  viewed : ∀ sl bps, Shows sl funded total → getInvoiceFundingProgress sl = .ok bps →
    fundingBps funded total = bps

/-- In the wide case the other functions show the quotient of the largest word, or more. -/
theorem paidBps_wide (hless : funded < total) (hwide : i128Max < funded * 10000) :
    (Tracking.paidBps funded total : ℤ) = i128Max / total := by
  have hlarge := large_of_wide hwide
  have hsat : satMulI128 funded 10000 = i128Max := by
    rw [satMulI128, min_eq_right hwide.le]
    decide
  rw [(paidBps_of_part (by omega) hless).1, hsat]

theorem step_le (hless : funded < total) (hwide : i128Max < funded * 10000) :
    i128Max / total ≤ funded * 10000 / total ∧ funded * 10000 / total ≤ funded / (total / 10000) := by
  have hlarge := large_of_wide hwide
  exact ⟨Int.ediv_le_ediv (by omega) hwide.le, quot_le_step (by omega) (by omega)⟩

theorem agrees_of_fits (hpos : 0 < funded) (hless : funded < total) (hfits : funded * 10000 ≤ i128Max) :
    (fundingBps funded total : ℤ) = Tracking.paidBps funded total := by
  have hsat : satMulI128 funded 10000 = funded * 10000 := by
    rw [satMulI128, min_eq_left hfits]
    unfold i128Min
    omega
  rw [fundingBps_fits hpos hless hfits, (paidBps_of_part hpos hless).1, hsat]

/-- When the fallback gives the quotient of the largest word it gives the exact one. -/
theorem fundingBps_eq_quot (hpos : 0 < funded) (hless : funded < total)
    (h : (fundingBps funded total : ℤ) = Tracking.paidBps funded total) :
    (fundingBps funded total : ℤ) = funded * 10000 / total := by
  by_cases hfits : funded * 10000 ≤ i128Max
  · exact fundingBps_fits hpos hless hfits
  · have hwide := not_le.1 hfits
    have hstep := step_le hless hwide
    have hlt := quot_lt hpos hless
    have htracked := paidBps_wide hless hwide
    have hthis := fundingBps_wide hless hwide
    omega

theorem tracked_iff :
    fundingBps funded total = Tracking.paidBps funded total ↔ total ≤ 0 ∨ total ≤ funded ∨
      funded * 10000 ≤ i128Max ∨ funded < (i128Max / total + 1) * (total / 10000) := by
  by_cases hzero : total ≤ 0 ∨ funded ≤ 0
  · have htracked : Tracking.paidBps funded total = 0 := if_pos hzero
    have hmax : (0 : ℤ) ≤ i128Max := by decide
    rw [fundingBps_zero hzero, htracked]
    exact iff_of_true rfl (by omega)
  push Not at hzero
  by_cases hfull : total ≤ funded
  · have htracked : Tracking.paidBps funded total = 10000 := by
      unfold Tracking.paidBps
      rw [if_neg (by omega), if_pos hfull]
    rw [fundingBps_full hzero.1 hfull, htracked]
    exact iff_of_true rfl (.inr (.inl hfull))
  by_cases hfits : funded * 10000 ≤ i128Max
  · exact iff_of_true (Int.ofNat_inj.1 (agrees_of_fits hzero.2 (not_le.1 hfull) hfits)) (.inr (.inr (.inl hfits)))
  · have hless := not_le.1 hfull
    have hwide := not_le.1 hfits
    have hlarge := large_of_wide hwide
    have hstep := step_le hless hwide
    have hlt := quot_lt hzero.2 hless
    have htracked := paidBps_wide hless hwide
    have hthis := fundingBps_wide hless hwide
    have hbound : funded / (total / 10000) < i128Max / total + 1 ↔
        funded < (i128Max / total + 1) * (total / 10000) := Int.ediv_lt_iff_lt_mul (by omega)
    omega

/-- The three agree except where the fallback of the first divides by a total rounded down too far. -/
theorem fundingBps_agrees_iff :
    Agrees funded total ↔ total ≤ 0 ∨ total ≤ funded ∨ funded * 10000 ≤ i128Max ∨
      funded < (i128Max / total + 1) * (total / 10000) := by
  rw [← tracked_iff]
  refine ⟨Agrees.tracked, fun htracked => ⟨?_, fun _ h => fundingBps_mono h, htracked, ?_⟩⟩
  · refine ⟨fun htop => ?_, fun hfull => fundingBps_full hfull.1 hfull.2⟩
    by_cases hzero : total ≤ 0 ∨ funded ≤ 0
    · rw [fundingBps_zero hzero] at htop
      cases htop
    · push Not at hzero
      refine ⟨hzero.1, not_lt.1 fun hless => ?_⟩
      have hpart := (paidBps_of_part hzero.2 hless).2
      omega
  · intro sl bps hshows hview
    rcases getInvoiceFundingProgress_eq hshows hview with ⟨hzero, rfl⟩ | ⟨hpos, hfull, rfl⟩ | ⟨hpos, hless, hbps⟩
    · exact fundingBps_zero hzero
    · exact fundingBps_full hpos hfull
    · have hquot := fundingBps_eq_quot hpos hless (congrArg Nat.cast htracked)
      omega

/-- One unit short of the largest word shows as fully funded. -/
theorem fundingBps_full_early :
    fundingBps (i128Max - 1) i128Max = 10000 ∧ ¬(i128Max : ℤ) ≤ i128Max - 1 := by decide +kernel

end StellarSplit.Split.FundingProgress
