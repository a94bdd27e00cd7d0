import Mathlib.Algebra.BigOperators.Ring.List
import StellarSplit.Lib.Proportion
import StellarSplit.Split.Payout
import StellarSplit.Split.PlainRelease
import StellarSplit.Split.Tranches
import StellarSplit.Split.Verification

/-!
# Shares of tranches and stages

The share of a recipient in a part of the funding is a quotient whose numerator is
multiplied with saturation: it is the exact share until the product passes what the
words hold. A stage of an invoice with ratios pays the same shares whatever its part is.
-/

namespace StellarSplit.Split.Stages

open Exec Function Machine Proportion PlainRelease Verification

variable {env : Env} {s t : Store} {v : Unit} {id : ℕ} {inv : Invoice}

/-! ## The clamp of the numerator -/

theorem satMulU128_twice {a b c : ℕ} (hc : 0 < c) :
    satMulU128 (satMulU128 a b) c = min (a * b * c) u128Max := by
  unfold satMulU128
  rcases le_total (a * b) u128Max with hle | hge
  · rw [min_eq_left hle]
  · have hlarge : u128Max ≤ u128Max * c := Nat.le_mul_of_pos_right _ hc
    have hmore : u128Max * c ≤ a * b * c := Nat.mul_le_mul_right c hge
    rw [min_eq_right hge, min_eq_right hlarge, min_eq_right (hlarge.trans hmore)]

/-- A quotient survives the clamp of its numerator up to the next multiple above the clamp. -/
theorem min_ediv_eq_iff {n m d : ℤ} (hd : 0 < d) : min n m / d = n / d ↔ n < (m / d + 1) * d := by
  rcases le_total n m with hle | hge
  · rw [min_eq_left hle]
    refine ⟨fun _ => hle.trans_lt ?_, fun _ => rfl⟩
    exact Int.lt_ediv_add_one_mul_self m hd
  · have hmono : m / d ≤ n / d := Int.ediv_le_ediv hd hge
    rw [min_eq_right hge, ← Int.ediv_lt_iff_lt_mul hd]
    omega

/-- The product is less than the next multiple of the divisor above the largest `u128`. -/
def ShareFits (amount funded total : ℤ) (bps : ℕ) : Prop :=
  amount * bps * funded < ((u128Max : ℤ) / (10000 * total) + 1) * (10000 * total)

instance (amount funded total : ℤ) (bps : ℕ) : Decidable (ShareFits amount funded total bps) :=
  inferInstanceAs (Decidable (_ < _))

/-- The exact share. -/
def exactShare (amount funded total : ℤ) (bps : ℕ) : ℤ := amount * bps * funded / (10000 * total)

/-- Amounts as the words hold them, and a funding to divide. -/
structure Shared (amount funded total : ℤ) : Prop where
  amount_pos : 0 < amount
  amount_le : amount ≤ total
  total_le : total ≤ i128Max
  funded_pos : 0 < funded
  funded_le : funded ≤ i128Max

instance (amount funded total : ℤ) : Decidable (Shared amount funded total) :=
  decidable_of_iff (0 < amount ∧ amount ≤ total ∧ total ≤ i128Max ∧ 0 < funded ∧ funded ≤ i128Max)
    ⟨fun ⟨h₁, h₂, h₃, h₄, h₅⟩ => ⟨h₁, h₂, h₃, h₄, h₅⟩, fun h =>
      ⟨h.amount_pos, h.amount_le, h.total_le, h.funded_pos, h.funded_le⟩⟩

section Shares

variable {amount funded total payout : ℤ} {bps : ℕ}

theorem toNat_word {a : ℤ} (h₀ : 0 ≤ a) (h₁ : a ≤ i128Max) : asU128 a = a.toNat := by
  have hlt : i128Max < 2 ^ 128 := by norm_num [i128Max]
  exact asU128_of_nonneg h₀ (h₁.trans_lt hlt)

theorem trancheShare_clamped (h : Shared amount funded total) (hrun : trancheShare amount funded total bps = .ok payout) :
    payout = min (amount * bps * funded) u128Max / (10000 * total) := by
  have htotal : 0 < total := h.amount_pos.trans_le h.amount_le
  have hwords : asU128 amount = amount.toNat ∧ asU128 funded = funded.toNat ∧ asU128 total = total.toNat :=
    ⟨toNat_word h.amount_pos.le (h.amount_le.trans h.total_le), toNat_word h.funded_pos.le h.funded_le,
      toNat_word htotal.le h.total_le⟩
  have hfunded : 0 < funded.toNat := by have := h.funded_pos; omega
  rw [trancheShare, hwords.1, hwords.2.1, hwords.2.2, satMulU128_twice hfunded] at hrun
  unfold checkedMulU128 at hrun
  split_ifs at hrun with hfits
  · simp only at hrun
    split_ifs at hrun with hzero
    have hsmall : min (amount.toNat * bps * funded.toNat) u128Max / (10000 * total.toNat) < 2 ^ 127 := by
      have hle : min (amount.toNat * bps * funded.toNat) u128Max / (10000 * total.toNat) ≤ u128Max / 10000 :=
        Nat.div_le_div (min_le_right _ _) (by omega) (by norm_num)
      have hlt : u128Max / 10000 < 2 ^ 127 := by norm_num [u128Max]
      omega
    rw [← Except.ok.inj hrun, asI128_of_lt hsmall, Int.natCast_div]
    push_cast
    rw [Int.toNat_of_nonneg h.amount_pos.le, Int.toNat_of_nonneg h.funded_pos.le, Int.toNat_of_nonneg htotal.le]

theorem trancheShare_exact_iff (h : Shared amount funded total) (hrun : trancheShare amount funded total bps = .ok payout) :
    payout = exactShare amount funded total bps ↔ ShareFits amount funded total bps := by
  have htotal : 0 < total := h.amount_pos.trans_le h.amount_le
  rw [trancheShare_clamped h hrun]
  exact min_ediv_eq_iff (by omega)

end Shares

/-! ## The calls that divide by basis points -/

/-- The calls that pay each recipient its share of a part of the funding. -/
inductive ShareCall where
  | releaseTranches
  | releaseTranche (index : ℕ)
  | stageRelease (creator : Address)
deriving DecidableEq

def ShareCall.run (env : Env) (id : ℕ) (inv : Invoice) : ShareCall → SplitM Unit
  | .releaseTranches => Split.releaseTranches env id inv
  | .releaseTranche index => Split.releaseTranche env id index
  | .stageRelease creator => Verification.stageRelease env id creator

/-- The basis points that a call pays out. -/
def ShareCall.bps (env : Env) (inv : Invoice) : ShareCall → ℕ
  | .releaseTranches => newlyUnlocked env inv
  | .releaseTranche index => bpsAt inv.tranches index
  | .stageRelease _ => inv.releaseStages.getD inv.releasedStages 0

/-- The payout that a call computes for the recipient at a place. -/
def ShareCall.payout (env : Env) (inv : Invoice) (i : ℕ) (c : ShareCall) : Result ℤ :=
  match c with
  | .releaseTranches | .releaseTranche _ => do
      let amount ← unwrap inv.amounts[i]?
      trancheShare amount inv.funded inv.total (c.bps env inv)
  | .stageRelease _ => stageShare inv (c.bps env inv) i

/-- Every round of a loop that returns has returned. -/
theorem foldlM_rounds {σ ε ι β : Type} {f : β → ι → Call σ ε β} {xs : List ι} {b c : β} {s t : σ}
    (hrun : xs.foldlM f b s = .ok (c, t)) : ∀ i ∈ xs, ∃ b' s' r, f b' i s' = .ok r := by
  induction xs generalizing b s with
  | nil => simp
  | cons x xs ih =>
      rw [List.foldlM_cons] at hrun
      obtain ⟨b', s', hfirst, hrest⟩ := bind_ok.1 hrun
      intro i hi
      rcases List.mem_cons.1 hi with rfl | hi
      · exact ⟨b, s, _, hfirst⟩
      · exact ih hrest i hi

theorem mem_zipIdx_of_getElem? {xs : List Address} {r : Address} {i : ℕ} (h : xs[i]? = some r) :
    (r, i) ∈ xs.zipIdx := List.mk_mem_zipIdx_iff_getElem?.2 h

/-- A call that returns has computed a payout for every recipient. -/
theorem payout_ok {c : ShareCall} (hload : (s.entries id).load = some inv)
    (hrun : c.run env id inv s = .ok (v, t)) {i : ℕ} {r : Address} (hr : inv.recipients[i]? = some r) :
    ∃ x, c.payout env inv i = .ok x := by
  have hmem := mem_zipIdx_of_getElem? hr
  cases c with
  | releaseTranches =>
      simp only [ShareCall.run, Split.releaseTranches, require_bind, ofResult_bind] at hrun
      obtain ⟨-, fee, -, hrun⟩ := hrun
      obtain ⟨pass, u, hloop, -⟩ := bind_ok.1 hrun
      obtain ⟨acc, w, _, hround⟩ := foldlM_rounds hloop _ hmem
      simp only [payTranche, ofResult_bind] at hround
      obtain ⟨amount, hamount, raw, hraw, -⟩ := hround
      exact ⟨raw, except_bind_ok.2 ⟨amount, hamount, hraw⟩⟩
  | releaseTranche index =>
      simp only [ShareCall.run, Split.releaseTranche, requireFnNotPaused_bind, loadInvoice_bind, require_bind,
        orPanic_bind, getEntry_bind] at hrun
      obtain ⟨-, inv', hload', -, -, -, -, -, tranche, htranche, -, -, -, token, -, hrun⟩ := hrun
      obtain rfl := Option.some.inj (hload.symm.trans hload')
      obtain ⟨paid, u, hloop, -⟩ := bind_ok.1 hrun
      obtain ⟨acc, w, _, hround⟩ := foldlM_rounds hloop _ hmem
      simp only [payTrancheShare, ofResult_bind] at hround
      obtain ⟨amount, hamount, raw, hraw, -⟩ := hround
      have hbps : bpsAt inv.tranches index = tranche.basisPoints := by rw [bpsAt, htranche]; rfl
      refine ⟨raw, except_bind_ok.2 ⟨amount, hamount, ?_⟩⟩
      rwa [ShareCall.bps, hbps]
  | stageRelease creator =>
      simp only [ShareCall.run, Verification.stageRelease, requireNotPaused_bind, requireAuth_bind, loadInvoice_bind,
        require_bind, orPanic_bind] at hrun
      obtain ⟨-, -, inv', hload', -, -, -, -, -, -, bps, hbps, token, -, hrun⟩ := hrun
      obtain rfl := Option.some.inj (hload.symm.trans hload')
      obtain ⟨paid, u, hloop, -⟩ := bind_ok.1 hrun
      obtain ⟨acc, w, _, hround⟩ := foldlM_rounds hloop _ hmem
      simp only [payStageShare, ofResult_bind] at hround
      obtain ⟨raw, hraw, -⟩ := hround
      refine ⟨raw, ?_⟩
      rwa [ShareCall.payout, ShareCall.bps, List.getD_eq_getElem?_getD, hbps]

/-- The payouts of a call that returns are the exact shares just below the clamp. -/
theorem payout_exact_iff (c : ShareCall) (hload : (s.entries id).load = some inv)
    (hratios : ∀ creator, c = .stageRelease creator → inv.ratios = [])
    (hrun : c.run env id inv s = .ok (v, t)) {i : ℕ} {r : Address} {amount : ℤ}
    (hr : inv.recipients[i]? = some r) (hamount : inv.amounts[i]? = some amount)
    (h : Shared amount inv.funded inv.total) :
    ∃ x, c.payout env inv i = .ok x ∧
      (x = exactShare amount inv.funded inv.total (c.bps env inv) ↔
        ShareFits amount inv.funded inv.total (c.bps env inv)) := by
  obtain ⟨x, hx⟩ := payout_ok hload hrun hr
  refine ⟨x, hx, trancheShare_exact_iff h ?_⟩
  cases c with
  | releaseTranches =>
      obtain ⟨a, ha, hx⟩ := except_bind_ok.1 hx
      obtain rfl := Option.some.inj (hamount.symm.trans (unwrap_ok.1 ha))
      exact hx
  | releaseTranche index =>
      obtain ⟨a, ha, hx⟩ := except_bind_ok.1 hx
      obtain rfl := Option.some.inj (hamount.symm.trans (unwrap_ok.1 ha))
      exact hx
  | stageRelease creator =>
      obtain ⟨a, ha, hx⟩ := except_bind_ok.1 hx
      obtain rfl := Option.some.inj (hamount.symm.trans (unwrap_ok.1 ha))
      rwa [if_neg (not_not.2 (hratios creator rfl))] at hx

/-- An invoice with one recipient and one tranche of all its funding. -/
def trancheInvoice (amount : ℤ) : Invoice := { sampleInvoice with
  recipients := [10]
  amounts := [amount]
  tokens := [9]
  funded := amount
  tranches := [⟨0, 10000⟩] }

theorem payout_exact_sample :
    ∃ x, (ShareCall.releaseTranche 0).payout (sampleEnv 5 1000) (trancheInvoice 1000) 0 = .ok x ∧
      (x = exactShare 1000 1000 (trancheInvoice 1000).total
          ((ShareCall.releaseTranche 0).bps (sampleEnv 5 1000) (trancheInvoice 1000)) ↔
        ShareFits 1000 1000 (trancheInvoice 1000).total
          ((ShareCall.releaseTranche 0).bps (sampleEnv 5 1000) (trancheInvoice 1000))) := by
  have hload : ((sampleStore (trancheInvoice 1000) []).entries 1).load = some (trancheInvoice 1000) := rfl
  have hrun : (ShareCall.releaseTranche 0).run (sampleEnv 5 1000) 1 (trancheInvoice 1000)
      (sampleStore (trancheInvoice 1000) []) = .ok ((), _) :=
    ok_commit (s := sampleStore (trancheInvoice 1000) []) (a := ()) (by decide +kernel)
  exact payout_exact_iff (.releaseTranche 0) hload (fun _ h => by cases h) hrun
    (r := 10) rfl rfl (by decide)

/-- Of `2 ^ 63` units to one recipient the call pays out 3689348814741910. -/
theorem payout_clamped :
    ((Split.releaseTranche (sampleEnv 5 (2 ^ 63)) 1 0 (sampleStore (trancheInvoice (2 ^ 63)) [])).toOption.map
        fun r => r.2.log.map Transfer.amount) = some [3689348814741910] ∧
      exactShare (2 ^ 63) (2 ^ 63) (trancheInvoice (2 ^ 63)).total 10000 = 2 ^ 63 := by
  decide +kernel

/-! ## What a stage pays -/

/-- The share of a recipient in a stage, when it can be computed. -/
def grossAt (inv : Invoice) (bps i : ℕ) : ℤ :=
  match stageShare inv bps i with
  | .ok x => max x 0
  | .error _ => 0

/-- Payouts, fees and taxes of a stage together. -/
def stageGross (inv : Invoice) (bps : ℕ) : ℤ := ((List.range inv.recipients.length).map (grossAt inv bps)).sum

/-- The share of a recipient of an invoice with ratios, the same in every stage. -/
def ratioPart (inv : Invoice) (i : ℕ) : ℤ :=
  part (inv.amounts.getD i 0) inv.ratioDenominator (inv.ratios.getD i 0)

def ratioGross (inv : Invoice) : ℤ := ((List.range inv.recipients.length).map (ratioPart inv)).sum

/-- What the creation of an invoice with stages has checked. -/
structure Staged (inv : Invoice) : Prop where
  amounts : ∀ a ∈ inv.amounts, 0 ≤ a
  total : inv.total ≤ i128Max
  funded : 0 ≤ inv.funded
  stages : inv.releaseStages.sum = 10000
  ratios : inv.ratios = [] ∨ validateRatios inv.ratios (max inv.ratioDenominator 1) = .ok ()
  denominator : inv.ratioDenominator ≤ u64Max

theorem sum_getD_le {amounts : List ℤ} (h : ∀ a ∈ amounts, 0 ≤ a) (n : ℕ) :
    ((List.range n).map fun i => amounts.getD i 0).sum ≤ amounts.sum := by
  induction amounts generalizing n with
  | nil => simp
  | cons a amounts ih =>
      have hrest := ih fun b hb => h b (by simp [hb])
      cases n with
      | zero => simpa using List.sum_nonneg h
      | succ n =>
          rw [List.range_succ_eq_map, List.map_cons, List.sum_cons, List.map_map, List.sum_cons]
          simpa [Function.comp_def] using hrest n

section Proportional

theorem grossAt_le (h : Staged inv) (hratios : inv.ratios = []) (bps i : ℕ) :
    grossAt inv bps i ≤ bpsShare inv bps i := by
  have hnonneg := bpsShare_nonneg h.amounts h.funded bps i
  unfold grossAt
  cases hx : stageShare inv bps i with
  | error e => exact hnonneg
  | ok x =>
      obtain ⟨a, ha, hx⟩ := except_bind_ok.1 hx
      rw [if_neg (not_not.2 hratios)] at hx
      have hget : inv.amounts[i]? = some a := unwrap_ok.1 ha
      have hle := (trancheShare_bounds (h.amounts a (List.mem_of_getElem? hget)) h.funded
        (total_nonneg h.amounts) h.total hx).2
      have hshare : bpsShare inv bps i = a * bps * inv.funded / (10000 * inv.total) := by
        rw [bpsShare, List.getD_eq_getElem?_getD, hget, Option.getD_some]
      rw [hshare] at hnonneg ⊢
      exact max_le hle hnonneg

/-- All shares of a part together are at most that part of the funding. -/
theorem stageGross_le (h : Staged inv) (hratios : inv.ratios = []) (bps : ℕ) :
    10000 * stageGross inv bps ≤ bps * inv.funded := by
  have htotal : 0 ≤ inv.total := total_nonneg h.amounts
  have hright : 0 ≤ (bps : ℤ) * inv.funded := mul_nonneg (Int.natCast_nonneg bps) h.funded
  have hshares : stageGross inv bps ≤ ((List.range inv.recipients.length).map (bpsShare inv bps)).sum :=
    List.sum_le_sum fun i _ => grossAt_le h hratios bps i
  rcases htotal.eq_or_lt with hzero | hpos
  · have hnone : ((List.range inv.recipients.length).map (bpsShare inv bps)).sum = 0 := by
      apply List.sum_eq_zero
      intro x hx
      obtain ⟨i, -, rfl⟩ := List.mem_map.1 hx
      simp [bpsShare, ← hzero]
    omega
  · have hterm : ∀ i, 10000 * inv.total * bpsShare inv bps i ≤ bps * inv.funded * inv.amounts.getD i 0 := by
      intro i
      have hle : 10000 * inv.total * bpsShare inv bps i ≤ inv.amounts.getD i 0 * bps * inv.funded :=
        Int.mul_ediv_self_le (by omega)
      linarith [mul_comm (bps * inv.funded) (inv.amounts.getD i 0), mul_assoc (inv.amounts.getD i 0) bps inv.funded]
    have hall : 10000 * inv.total * ((List.range inv.recipients.length).map (bpsShare inv bps)).sum ≤
        bps * inv.funded * inv.total := by
      have hsum : ((List.range inv.recipients.length).map fun i => 10000 * inv.total * bpsShare inv bps i).sum ≤
          ((List.range inv.recipients.length).map fun i => bps * inv.funded * inv.amounts.getD i 0).sum :=
        List.sum_le_sum fun i _ => hterm i
      rw [List.sum_map_mul_left, List.sum_map_mul_left] at hsum
      exact hsum.trans (mul_le_mul_of_nonneg_left (sum_getD_le h.amounts _) hright)
    have hscaled : inv.total * (10000 * stageGross inv bps) ≤ inv.total * (bps * inv.funded) := by
      have hmul := mul_le_mul_of_nonneg_left hshares (by omega : 0 ≤ 10000 * inv.total)
      linarith
    exact le_of_mul_le_mul_left hscaled hpos

theorem sum_stageGross_le (h : Staged inv) (hratios : inv.ratios = []) (stages : List ℕ) :
    10000 * (stages.map (stageGross inv)).sum ≤ (stages.sum : ℕ) * inv.funded := by
  induction stages with
  | nil => simp
  | cons bps stages ih =>
      have hfirst := stageGross_le h hratios bps
      rw [List.map_cons, List.sum_cons, List.sum_cons, Nat.cast_add, add_mul, mul_add]
      exact add_le_add hfirst ih

end Proportional

section Ratios

variable {ratios : List ℕ} {denominator : ℕ}

theorem ratio_le (h : validateRatios ratios (max denominator 1) = .ok ()) : ∀ r ∈ ratios, r ≤ denominator := by
  obtain ⟨-, hbelow, -⟩ := validateRatios_ok.1 h
  intro r hr
  have hlt := (hbelow r hr).trans_le (Nat.mod_le _ _)
  omega

theorem stageShare_ratio (h : Staged inv) (hratios : inv.ratios ≠ []) {bps i : ℕ} {x : ℤ}
    (hx : stageShare inv bps i = .ok x) : x = ratioPart inv i ∧ 0 ≤ x := by
  have hvalid := ratio_le (h.ratios.resolve_left hratios)
  obtain ⟨a, ha, hx⟩ := except_bind_ok.1 hx
  rw [if_pos hratios] at hx
  obtain ⟨ratio, hratio, hx⟩ := except_bind_ok.1 hx
  have ha : inv.amounts[i]? = some a := unwrap_ok.1 ha
  have hratio : inv.ratios[i]? = some ratio := unwrap_ok.1 hratio
  have hmem : a ∈ inv.amounts := List.mem_of_getElem? ha
  have hle : ratio ≤ inv.ratioDenominator := hvalid ratio (List.mem_of_getElem? hratio)
  have hword : a ≤ i128Max := (List.single_le_sum h.amounts a hmem).trans h.total
  have hdenominator : (inv.ratioDenominator : ℤ) ≤ i128Max := by
    have hsmall : (u64Max : ℤ) ≤ i128Max := by norm_num [u64Max, i128Max]
    exact le_trans (by exact_mod_cast h.denominator) hsmall
  have hpart : x = part a inv.ratioDenominator ratio :=
    plainMulDiv_eq_part ⟨h.amounts a hmem, hword⟩ (Int.natCast_nonneg _) (by exact_mod_cast hle) hdenominator
      (checkedProportion_ok.1 hx)
  refine ⟨?_, ?_⟩
  · rw [hpart, ratioPart, List.getD_eq_getElem?_getD, List.getD_eq_getElem?_getD, ha, hratio]
    rfl
  · rw [hpart]
    exact part_nonneg (h.amounts a hmem) (Int.natCast_nonneg _) (Int.natCast_nonneg _)

theorem stageGross_ratio (h : Staged inv) (hratios : inv.ratios ≠ []) {bps : ℕ}
    (hall : ∀ i < inv.recipients.length, ∃ x, stageShare inv bps i = .ok x) :
    stageGross inv bps = ratioGross inv := by
  unfold stageGross ratioGross
  congr 1
  apply List.map_congr_left
  intro i hi
  obtain ⟨x, hx⟩ := hall i (List.mem_range.1 hi)
  obtain ⟨hpart, hnonneg⟩ := stageShare_ratio h hratios hx
  rw [grossAt, hx, ← hpart]
  exact max_eq_left hnonneg

end Ratios

/-! ## The movements of a stage -/

/-- What goes out of the funding: payouts, platform fees and taxes. -/
def spends (id : ℕ) (m : Transfer Memo) : Bool :=
  m.memo = ⟨id, .payout⟩ ∨ m.memo = ⟨id, .platformFee⟩ ∨ m.memo = ⟨id, .tax⟩

/-- The settings under which the contract itself pays out and the platform fee is divided exactly. -/
structure PaysItself (env : Env) : Prop where
  noRouter : env.config.dexRouter = none
  flat : env.config.platformFeeBps ≤ 10000
  whole : ∀ rs ∈ env.config.feeRecipients, rs ≠ [] ∧ (rs.map FeeSplit.basisPoints).sum = 10000

/-- A gross share is sent to its recipient or put by as fee and tax. -/
structure Divided (id : ℕ) (acc acc' : ℤ × ℤ) (gross : ℤ) (s t : Store) : Prop where
  fee : acc.1 ≤ acc'.1
  fee_le : acc'.1 ≤ acc.1 + gross
  tax : acc.2 ≤ acc'.2
  whole : tally (spends id) t.log + acc'.1 + acc'.2 = tally (spends id) s.log + acc.1 + acc.2 + gross

section Movements

variable {acc acc' : ℤ × ℤ} {gross fee tax : ℤ} {token : Address} {bps : ℕ}

theorem Divided.nothing (id : ℕ) (acc : ℤ × ℤ) (s : Store) : Divided id acc acc 0 s s :=
  ⟨le_rfl, by omega, le_rfl, by omega⟩

theorem Divided.trans {acc'' : ℤ × ℤ} {gross' : ℤ} {u : Store} (h : Divided id acc acc' gross s t)
    (h' : Divided id acc' acc'' gross' t u) : Divided id acc acc'' (gross + gross') s u := by
  refine ⟨h.fee.trans h'.fee, ?_, h.tax.trans h'.tax, ?_⟩
  · linarith [h.fee_le, h'.fee_le]
  · linarith [h.whole, h'.whole]

theorem claimFee_bounds {r : Address} {share : ℤ} (hpays : PaysItself env) (hshare : 0 ≤ share)
    (h : claimFee env r share = .ok fee) : 0 ≤ fee ∧ fee ≤ share := by
  unfold claimFee calcPlatformFee at h
  split_ifs at h
  · obtain rfl := Except.ok.inj h
    exact ⟨le_rfl, hshare⟩
  · obtain rfl := Except.ok.inj h
    exact ⟨le_rfl, hshare⟩
  · obtain rfl := Except.ok.inj h
    have hrate : (env.config.platformFeeBps : ℤ) ≤ 10000 := by exact_mod_cast hpays.flat
    have hmul : share * env.config.platformFeeBps ≤ share * 10000 := mul_le_mul_of_nonneg_left hrate hshare
    exact ⟨by positivity, by omega⟩

theorem payStageShare_divided {ri : Address × ℕ} (hpays : PaysItself env)
    (hrun : payStageShare env id inv token bps acc ri s = .ok (acc', t)) :
    Divided id acc acc' (grossAt inv bps ri.2) s t := by
  obtain ⟨raw, hraw, hrun⟩ := ofResult_bind.1 hrun
  have hgross : grossAt inv bps ri.2 = max raw 0 := by rw [grossAt, hraw]
  rw [hgross]
  split_ifs at hrun with hpos
  · obtain ⟨fee, hfee, hrun⟩ := ofResult_bind.1 hrun
    obtain ⟨tax, htax, hrun⟩ := ofResult_bind.1 hrun
    obtain ⟨routed, u, hrouted, hrun⟩ := bind_ok.1 hrun
    obtain ⟨_, w, hsend, hrun⟩ := bind_ok.1 hrun
    obtain ⟨rfl, rfl⟩ := pure_ok.1 hrun
    obtain ⟨hnonneg, hle⟩ := claimFee_bounds hpays hpos.le hfee
    have htax₀ : 0 ≤ tax := plainMulDiv_nonneg htax (by norm_num)
    have hdirect : routed = false ∧ s = u := by
      unfold executeSmartRoute at hrouted
      rw [hpays.noRouter, ite_self] at hrouted
      exact (pure_ok.1 hrouted).imp_left Eq.symm
    obtain ⟨rfl, rfl⟩ := hdirect
    obtain ⟨-, rfl⟩ := transfer_ok.1 ((onlyIf_ok.1 hsend).resolve_right fun h => h.1 rfl).2
    rw [max_eq_left hpos.le]
    refine ⟨by dsimp only; omega, by dsimp only; omega, by dsimp only; omega, ?_⟩
    rw [Store.withLog_log, tally_cons, if_pos (by simp [spends])]
    dsimp only
    ring
  · obtain ⟨rfl, rfl⟩ := pure_ok.1 hrun
    rw [max_eq_right (not_lt.1 hpos)]
    exact Divided.nothing id acc s

theorem payStageShares_divided {xs : List (Address × ℕ)} (hpays : PaysItself env)
    (hrun : xs.foldlM (payStageShare env id inv token bps) acc s = .ok (acc', t)) :
    Divided id acc acc' (xs.map fun ri => grossAt inv bps ri.2).sum s t := by
  induction xs generalizing acc s with
  | nil =>
      obtain ⟨rfl, rfl⟩ := pure_ok.1 hrun
      exact Divided.nothing id acc s
  | cons ri xs ih =>
      rw [List.foldlM_cons] at hrun
      obtain ⟨next, u, hfirst, hrest⟩ := bind_ok.1 hrun
      exact (payStageShare_divided hpays hfirst).trans (ih hrest)

theorem sum_gross_zipIdx (inv : Invoice) (bps : ℕ) :
    (inv.recipients.zipIdx.map fun ri => grossAt inv bps ri.2).sum = stageGross inv bps := by
  have hplaces : inv.recipients.zipIdx.map Prod.snd = List.range inv.recipients.length := by
    rw [List.zipIdx_map_snd, List.range_eq_range']
  rw [stageGross, ← hplaces, List.map_map]
  rfl

theorem payPlatformFee_spends (hpays : PaysItself env) (hfee : 0 ≤ fee ∧ fee ≤ i128Max)
    (hrun : payPlatformFee env id fee token s = .ok (v, t)) :
    tally (spends id) t.log = tally (spends id) s.log + fee := by
  have hsent : payPlatformFee env id fee (fundingTokenFor { sampleInvoice with fundingToken := token }) s = .ok (v, t) :=
    hrun
  obtain ⟨new, hlog, hsum, hnew⟩ := payPlatformFee_sent hpays.whole hfee hsent
  rw [hlog, tally_append, tally_all fun m hm => by simp [spends, (hnew m hm).2.1], hsum, add_comm]

theorem payTax_spends (htax : 0 ≤ tax) (hrun : payTax env id inv token tax s = .ok (v, t)) :
    tally (spends id) t.log = tally (spends id) s.log + tax := by
  rcases onlyIf_ok.1 hrun with ⟨-, hrun⟩ | ⟨hnot, rfl⟩
  · obtain ⟨authority, -, hrun⟩ := ofResult_bind.1 hrun
    rw [transfer, move_ok] at hrun
    obtain ⟨-, rfl⟩ := hrun
    rw [Store.withLog_log, tally_cons, if_pos (by simp [spends]), add_comm]
  · omega

/-- What a stage spends is its gross: the payouts, and the fees and taxes that were put by. -/
theorem stageRelease_spends {creator : Address} (hpays : PaysItself env) (hload : (s.entries id).load = some inv)
    (hword : ∀ bps ∈ inv.releaseStages, stageGross inv bps ≤ i128Max)
    (hrun : stageRelease env id creator s = .ok (v, t)) :
    ∃ bps, inv.releaseStages[inv.releasedStages]? = some bps ∧
      tally (spends id) t.log = tally (spends id) s.log + stageGross inv bps := by
  simp only [stageRelease, requireNotPaused_bind, requireAuth_bind, loadInvoice_bind, require_bind,
    orPanic_bind] at hrun
  obtain ⟨-, -, inv', hload', -, -, -, -, -, -, bps, hbps, token, -, hrun⟩ := hrun
  obtain rfl := Option.some.inj (hload.symm.trans hload')
  obtain ⟨sums, u₁, hloop, hrun⟩ := bind_ok.1 hrun
  obtain ⟨_, u₂, hfees, hrun⟩ := bind_ok.1 hrun
  obtain ⟨_, u₃, htaxes, hrun⟩ := bind_ok.1 hrun
  obtain ⟨_, u₄, hcount, hfinish⟩ := bind_ok.1 hrun
  have hdivided := payStageShares_divided hpays hloop
  rw [sum_gross_zipIdx] at hdivided
  have hfee : 0 ≤ sums.1 ∧ sums.1 ≤ i128Max := by
    have hgross := hword bps (List.mem_of_getElem? hbps)
    exact ⟨hdivided.fee, by linarith [hdivided.fee_le]⟩
  have hcounted : Grows (fun memo => memo = ⟨id, .insurance⟩) u₃ u₄ := framed_countTranche.respects u₃ _ u₄ hcount
  -- closing the invoice sends no more than its insurance fund
  have hmoves : Moves (Grows fun memo => memo = ⟨id, .insurance⟩) ⟨id, .insurance⟩ := moves_grows rfl
  have hended := trans_of (Grows _) hcounted (framed_finishStage.respects u₄ _ t hfinish)
  refine ⟨bps, hbps, ?_⟩
  rw [hended.tally fun m hm => by simp [spends, hm], payTax_spends hdivided.tax htaxes,
    payPlatformFee_spends hpays hfee hfees]
  linarith [hdivided.whole]

end Movements

/-! ## Runs of stages -/

/-- The fields of an invoice that decide about the shares of its stages. -/
def stageTerms (inv : Invoice) : (List Address × List ℤ × ℤ) × (List ℕ × ℕ) × List ℕ :=
  ((inv.recipients, inv.amounts, inv.funded), (inv.ratios, inv.ratioDenominator), inv.releaseStages)

@[simp] theorem stageTerms_withPayments (inv : Invoice) (payments : List Payment) :
    stageTerms (inv.withPayments payments) = stageTerms inv := rfl

@[simp] theorem stageTerms_completed (inv : Invoice) (status : InvoiceStatus) (now : ℕ) :
    stageTerms (inv.completed status now) = stageTerms inv := rfl

@[simp] theorem stageTerms_withReleasedStages (inv : Invoice) (stages : ℕ) :
    stageTerms (inv.withReleasedStages stages) = stageTerms inv := rfl

@[simp] theorem stageTerms_insurancePaid (inv : Invoice) : stageTerms inv.insurancePaid = stageTerms inv := rfl

theorem stageShare_congr {inv' : Invoice} (h : stageTerms inv' = stageTerms inv) :
    stageShare inv' = stageShare inv := by
  simp only [stageTerms, Prod.mk.injEq] at h
  obtain ⟨⟨-, hamounts, hfunded⟩, ⟨hratios, hdenominator⟩, -⟩ := h
  funext bps i
  rw [stageShare, stageShare, hamounts, hfunded, hratios, hdenominator, Invoice.total, Invoice.total, hamounts]

theorem stageGross_congr {inv' : Invoice} (h : stageTerms inv' = stageTerms inv) :
    stageGross inv' = stageGross inv := by
  have hshare := stageShare_congr h
  simp only [stageTerms, Prod.mk.injEq] at h
  funext bps
  unfold stageGross grossAt
  rw [h.1.1, hshare]

/-- A stage that returns had a share for every recipient, and is counted. -/
theorem stageRelease_ok {creator : Address} (hload : (s.entries id).load = some inv)
    (hrun : stageRelease env id creator s = .ok (v, t)) :
    ∃ bps, inv.releaseStages[inv.releasedStages]? = some bps ∧
      (∀ i < inv.recipients.length, ∃ x, stageShare inv bps i = .ok x) ∧
      ∃ inv', (t.entries id).load = some inv' ∧ stageTerms inv' = stageTerms inv ∧
        inv'.releasedStages = inv.releasedStages + 1 := by
  have hcall : (ShareCall.stageRelease creator).run env id inv s = .ok (v, t) := hrun
  have hshares : ∀ i < inv.recipients.length, ∃ x,
      stageShare inv (inv.releaseStages.getD inv.releasedStages 0) i = .ok x := fun i hi =>
    payout_ok hload hcall (List.getElem?_eq_getElem hi)
  simp only [stageRelease, requireNotPaused_bind, requireAuth_bind, loadInvoice_bind, require_bind,
    orPanic_bind] at hrun
  obtain ⟨-, -, inv', hload', -, -, -, -, -, -, bps, hbps, token, -, hrun⟩ := hrun
  obtain rfl := Option.some.inj (hload.symm.trans hload')
  obtain ⟨sums, _, -, hrun⟩ := bind_ok.1 hrun
  obtain ⟨_, _, -, hrun⟩ := bind_ok.1 hrun
  obtain ⟨_, _, -, hrun⟩ := bind_ok.1 hrun
  obtain ⟨_, _, -, hfinish⟩ := bind_ok.1 hrun
  refine ⟨bps, hbps, ?_, ?_⟩
  · rwa [List.getD_eq_getElem?_getD, hbps, Option.getD_some] at hshares
  · unfold finishStage at hfinish
    split_ifs at hfinish with hlast
    · obtain ⟨_, _, -, hfinish⟩ := bind_ok.1 hfinish
      obtain ⟨_, _, -, hsave⟩ := bind_ok.1 hfinish
      exact ⟨_, saveInvoice_load hsave, by simp, rfl⟩
    · exact ⟨_, saveInvoice_load hfinish, by simp, rfl⟩

/-- A stage release, or another call. -/
inductive StageOp where
  | stageRelease (creator : Address)
  | other (call : SplitM Unit)

/-- What the stage that is next would pay. -/
def nextGross (id : ℕ) (s : Store) : ℤ :=
  match (s.entries id).load with
  | none => 0
  | some inv => ((inv.releaseStages[inv.releasedStages]?).map (stageGross inv)).getD 0

/-- Beside the store, what all the stages paid together. -/
def stageStep (id : ℕ) (c : Env × StageOp) : Call (Store × ℤ) SplitFault Unit :=
  match c.2 with
  | .stageRelease creator => beside (fun paid s _ => paid + nextGross id s) (stageRelease c.1 id creator)
  | .other call => beside (fun paid _ _ => paid) call

/-- The stages of the invoice and how many of them are paid. -/
def stagesOf (s : Store) (id : ℕ) : Option (((List Address × List ℤ × ℤ) × (List ℕ × ℕ) × List ℕ) × ℕ) :=
  ((s.entries id).load).map fun inv => (stageTerms inv, inv.releasedStages)

/-- The other calls of a run leave the stages and their terms. -/
def OthersKeep (id : ℕ) (calls : List (Env × StageOp)) : Prop :=
  ∀ c ∈ calls, ∀ call, c.2 = .other call → ∀ s v t, call s = .ok (v, t) → stagesOf t id = stagesOf s id

/-- The stages that were paid since a run began, and what they paid. -/
structure StagesPaid (id : ℕ) (inv inv' : Invoice) (paid : ℤ) (t : Store) : Prop where
  load : (t.entries id).load = some inv'
  terms : stageTerms inv' = stageTerms inv
  least : inv.releasedStages ≤ inv'.releasedStages
  most : inv'.releasedStages ≤ max inv.releasedStages inv.releaseStages.length
  paid_eq : paid = (((inv.releaseStages.take inv'.releasedStages).drop inv.releasedStages).map (stageGross inv)).sum
  ratios : inv.ratios ≠ [] → paid = (inv'.releasedStages - inv.releasedStages : ℕ) * ratioGross inv

theorem stagesPaid_start (hload : (s.entries id).load = some inv) : StagesPaid id inv inv 0 s where
  load := hload
  terms := rfl
  least := le_rfl
  most := le_max_left _ _
  paid_eq := by rw [List.drop_eq_nil_of_le (List.length_take_le _ _)]; rfl
  ratios _ := by simp

section Step

variable {inv' : Invoice} {paid : ℤ}

theorem StagesPaid.stage {creator : Address} (hstaged : Staged inv) (h : StagesPaid id inv inv' paid s)
    (hrun : stageRelease env id creator s = .ok (v, t)) :
    ∃ inv'', StagesPaid id inv inv'' (paid + nextGross id s) t := by
  obtain ⟨bps, hbps, hshares, inv'', hload, hterms, hcount⟩ := stageRelease_ok h.load hrun
  have hterms' : stageTerms inv'' = stageTerms inv := hterms.trans h.terms
  have hstages : inv'.releaseStages = inv.releaseStages := congrArg (fun p => p.2.2) h.terms
  have hrecipients : inv'.recipients = inv.recipients := congrArg (fun p => p.1.1) h.terms
  have hgross : nextGross id s = stageGross inv bps := by
    rw [nextGross, h.load]
    simp only [hbps, Option.map_some, Option.getD_some, stageGross_congr h.terms]
  rw [hstages] at hbps
  obtain ⟨hlt, rfl⟩ := List.getElem?_eq_some_iff.1 hbps
  refine ⟨inv'', hload, hterms', by rw [hcount]; exact h.least.trans (Nat.le_succ _), ?_, ?_, ?_⟩
  · rw [hcount]
    exact le_max_of_le_right hlt
  · have hlen : inv.releasedStages ≤ (inv.releaseStages.take inv'.releasedStages).length := by
      rw [List.length_take, Nat.min_eq_left hlt.le]
      exact h.least
    rw [hgross, hcount, List.take_succ_eq_append_getElem hlt, List.drop_append_of_le_length hlen,
      List.map_append, List.sum_append, ← h.paid_eq]
    simp
  · intro hratios
    have hall : ∀ i < inv.recipients.length, ∃ x, stageShare inv inv.releaseStages[inv'.releasedStages] i = .ok x := by
      rwa [← hrecipients, ← stageShare_congr h.terms]
    have hnext : inv''.releasedStages - inv.releasedStages = (inv'.releasedStages - inv.releasedStages) + 1 := by
      have := h.least
      omega
    rw [hgross, stageGross_ratio hstaged hratios hall, h.ratios hratios, hnext]
    push_cast
    ring

/-- A call that leaves the stages and their terms leaves what they paid. -/
theorem StagesPaid.other (h : StagesPaid id inv inv' paid s) (hkept : stagesOf t id = stagesOf s id) :
    ∃ inv'', StagesPaid id inv inv'' paid t := by
  rw [stagesOf, stagesOf, h.load, Option.map_some] at hkept
  obtain ⟨inv'', hload, heq⟩ := Option.map_eq_some_iff.1 hkept
  obtain ⟨hterms, hcount⟩ := Prod.mk.inj heq
  refine ⟨inv'', hload, hterms.trans h.terms, ?_, ?_, ?_, ?_⟩
  · rw [hcount]
    exact h.least
  · rw [hcount]
    exact h.most
  · rw [hcount]
    exact h.paid_eq
  · rw [hcount]
    exact h.ratios

end Step

/-- What every stage keeps with its gross added, and every other call as it is, holds after the run. -/
theorem stages_induction {calls : List (Env × StageOp)} {I : Store → ℤ → Prop}
    (hstage : ∀ c ∈ calls, ∀ creator, c.2 = .stageRelease creator → ∀ u paid w t, I u paid →
      stageRelease c.1 id creator u = .ok (w, t) → I t (paid + nextGross id u))
    (hother : ∀ c ∈ calls, ∀ call, c.2 = .other call → ∀ u paid w t, I u paid → call u = .ok (w, t) → I t paid)
    (hstart : I s 0) : I (runAll (stageStep id) (s, 0) calls).1 (runAll (stageStep id) (s, 0) calls).2 := by
  have hallowed : Along (fun _ c => c ∈ calls ∧ True) (stageStep id) (s, 0) calls :=
    (along_true _ _ _).and_mem fun _ hc => hc
  refine runAll_induction (I := fun p => I p.1 p.2) ?_ hstart hallowed
  rintro ⟨u, paid⟩ ⟨env, op⟩ w ⟨t, paid'⟩ h ⟨hmem, -⟩ hrun
  cases op with
  | stageRelease creator =>
      simp only [stageStep] at hrun
      obtain ⟨hcall, rfl⟩ := beside_ok.1 hrun
      exact hstage _ hmem creator rfl u paid w t h hcall
  | other call =>
      simp only [stageStep] at hrun
      obtain ⟨hcall, rfl⟩ := beside_ok.1 hrun
      exact hother _ hmem call rfl u _ w t h hcall

theorem stagesPaid_run {calls : List (Env × StageOp)} (hstaged : Staged inv)
    (hload : (s.entries id).load = some inv) (hothers : OthersKeep id calls) :
    ∃ inv', StagesPaid id inv inv' (runAll (stageStep id) (s, 0) calls).2
      (runAll (stageStep id) (s, 0) calls).1 := by
  refine stages_induction (I := fun u paid => ∃ inv', StagesPaid id inv inv' paid u) ?_ ?_ ⟨inv, stagesPaid_start hload⟩
  · rintro _ _ _ _ u paid w t ⟨inv', h⟩ hrun
    exact h.stage hstaged hrun
  · rintro c hc call hcall u paid w t ⟨inv', h⟩ hrun
    exact h.other (hothers c hc call hcall u w t hrun)

/-- The gross of a stage is at most the funding, or at most the sum of the amounts. -/
theorem stageGross_word (h : Staged inv) (hword : inv.funded ≤ i128Max) {bps : ℕ} (hbps : bps ∈ inv.releaseStages) :
    stageGross inv bps ≤ i128Max := by
  by_cases hratios : inv.ratios = []
  · have hle : bps ≤ 10000 := by
      rw [← h.stages]
      exact List.single_le_sum (fun _ _ => Nat.zero_le _) bps hbps
    have hpart : (bps : ℤ) * inv.funded ≤ 10000 * inv.funded :=
      mul_le_mul_of_nonneg_right (by exact_mod_cast hle) h.funded
    have hgross := stageGross_le h hratios bps
    omega
  · have hle : ∀ i, grossAt inv bps i ≤ inv.amounts.getD i 0 := by
      intro i
      have hnonneg := amount_nonneg h.amounts i
      unfold grossAt
      cases hx : stageShare inv bps i with
      | error e => exact hnonneg
      | ok x =>
          obtain ⟨hpart, hpos⟩ := stageShare_ratio h hratios hx
          have hratio : inv.ratios.getD i 0 ≤ inv.ratioDenominator := by
            rcases lt_or_ge i inv.ratios.length with hlt | hge
            · rw [List.getD_eq_getElem _ _ hlt]
              exact ratio_le (h.ratios.resolve_left hratios) _ (List.getElem_mem hlt)
            · rw [List.getD_eq_default _ _ hge]
              exact Nat.zero_le _
          dsimp only
          rw [max_eq_left hpos, hpart]
          exact part_le hnonneg (Int.natCast_nonneg _) (by exact_mod_cast hratio)
    exact ((List.sum_le_sum fun i _ => hle i).trans (sum_getD_le h.amounts _)).trans h.total

/-- The other calls of a run move no payout, fee or tax of the invoice. -/
def OthersQuiet (id : ℕ) (calls : List (Env × StageOp)) : Prop :=
  ∀ c ∈ calls, ∀ call, c.2 = .other call → ∀ s v t, call s = .ok (v, t) →
    tally (spends id) t.log = tally (spends id) s.log

/-- What is counted beside the run is what the log has of payouts, fees and taxes since its start. -/
theorem stages_spent {calls : List (Env × StageOp)} (hstaged : Staged inv) (hword : inv.funded ≤ i128Max)
    (hload : (s.entries id).load = some inv) (hothers : OthersKeep id calls) (hquiet : OthersQuiet id calls)
    (hpays : ∀ c ∈ calls, PaysItself c.1) :
    tally (spends id) (runAll (stageStep id) (s, 0) calls).1.log =
      tally (spends id) s.log + (runAll (stageStep id) (s, 0) calls).2 := by
  refine (stages_induction (I := fun u paid => (∃ inv', StagesPaid id inv inv' paid u) ∧
    tally (spends id) u.log = tally (spends id) s.log + paid) ?_ ?_
    ⟨⟨inv, stagesPaid_start hload⟩, (add_zero _).symm⟩).2
  · rintro c hc _ _ u paid w t ⟨⟨inv', h⟩, hspent⟩ hrun
    have hstages : inv'.releaseStages = inv.releaseStages := congrArg (fun p => p.2.2) h.terms
    have hgrosses : ∀ bps ∈ inv'.releaseStages, stageGross inv' bps ≤ i128Max := by
      rw [hstages, stageGross_congr h.terms]
      exact fun bps => stageGross_word hstaged hword
    obtain ⟨bps, hbps, hlog⟩ := stageRelease_spends (hpays c hc) h.load hgrosses hrun
    have hgross : nextGross id u = stageGross inv' bps := by
      rw [nextGross, h.load]
      simp only [hbps, Option.map_some, Option.getD_some]
    exact ⟨h.stage hstaged hrun, by rw [hlog, hspent, hgross, add_assoc]⟩
  · rintro c hc call hcall u paid w t ⟨⟨inv', h⟩, hspent⟩ hrun
    exact ⟨h.other (hothers c hc call hcall u w t hrun), (hquiet c hc call hcall u w t hrun).trans hspent⟩

theorem ratioGross_nonneg (h : Staged inv) : 0 ≤ ratioGross inv := by
  apply List.sum_nonneg
  intro x hx
  obtain ⟨i, -, rfl⟩ := List.mem_map.1 hx
  exact part_nonneg (amount_nonneg h.amounts i) (Int.natCast_nonneg _) (Int.natCast_nonneg _)

/-- Stages in proportion to the funding stay within it. -/
theorem StagesPaid.within {inv' : Invoice} {paid : ℤ} (hstaged : Staged inv) (hratios : inv.ratios = [])
    (h : StagesPaid id inv inv' paid s) : paid ≤ inv.funded := by
  have hpart : ((inv.releaseStages.take inv'.releasedStages).drop inv.releasedStages).sum ≤ 10000 := by
    rw [← hstaged.stages]
    refine List.Sublist.sum_le_sum ?_ fun _ _ => Nat.zero_le _
    exact (List.drop_sublist _ _).trans (List.take_sublist _ _)
  have hle := sum_stageGross_le hstaged hratios ((inv.releaseStages.take inv'.releasedStages).drop inv.releasedStages)
  rw [← h.paid_eq] at hle
  have hmul := mul_le_mul_of_nonneg_right (Int.ofNat_le.2 hpart) hstaged.funded
  push_cast at hmul hle
  linarith

/-- In every state that a run reaches, the stages paid at most the funding exactly when they are
divided in proportion to it or the ratios have not yet given out more. -/
theorem stages_within_iff (calls : List (Env × StageOp)) (hstaged : Staged inv)
    (hload : (s.entries id).load = some inv) (hothers : OthersKeep id calls) :
    ∃ inv', (((runAll (stageStep id) (s, 0) calls).1.entries id).load = some inv') ∧
      ((runAll (stageStep id) (s, 0) calls).2 ≤ inv.funded ↔ inv.ratios = [] ∨
        (inv'.releasedStages - inv.releasedStages : ℕ) * ratioGross inv ≤ inv.funded) ∧
      (inv.ratios = [] ∨ inv.releaseStages.length * ratioGross inv ≤ inv.funded →
        (runAll (stageStep id) (s, 0) calls).2 ≤ inv.funded) := by
  obtain ⟨inv', h⟩ := stagesPaid_run hstaged hload hothers
  have hiff : (runAll (stageStep id) (s, 0) calls).2 ≤ inv.funded ↔ inv.ratios = [] ∨
      (inv'.releasedStages - inv.releasedStages : ℕ) * ratioGross inv ≤ inv.funded := by
    by_cases hratios : inv.ratios = []
    · exact ⟨fun _ => .inl hratios, fun _ => h.within hstaged hratios⟩
    · rw [h.ratios hratios]
      exact ⟨.inr, fun hor => hor.resolve_left hratios⟩
  refine ⟨inv', h.load, hiff, fun hcond => hiff.2 (hcond.imp_right fun hall => ?_)⟩
  have hcount : inv'.releasedStages - inv.releasedStages ≤ inv.releaseStages.length := by
    have := h.most
    omega
  exact (mul_le_mul_of_nonneg_right (Int.ofNat_le.2 hcount) (ratioGross_nonneg hstaged)).trans hall

/-- An invoice for 100 that is paid out in two stages of one half. -/
def stagedInvoice (ratios : List ℕ) : Invoice := { sampleInvoice with
  amounts := [99, 1]
  funded := 100
  ratios := ratios
  ratioDenominator := 100
  releaseStages := [5000, 5000] }

def twoStages : List (Env × StageOp) :=
  [(sampleEnv 5 200, .stageRelease 2), (sampleEnv 6 200, .stageRelease 2)]

theorem staged_sample (ratios : List ℕ)
    (h : ratios = [] ∨ validateRatios ratios 100 = .ok ()) : Staged (stagedInvoice ratios) where
  amounts := (by decide : ∀ a ∈ ([99, 1] : List ℤ), 0 ≤ a)
  total := (by decide : ([99, 1] : List ℤ).sum ≤ i128Max)
  funded := (by decide : (0 : ℤ) ≤ 100)
  stages := rfl
  ratios := h
  denominator := (by decide : 100 ≤ u64Max)

theorem stages_within_sample :
    ∃ inv', (((runAll (stageStep 1) (sampleStore (stagedInvoice []) [], 0) twoStages).1.entries 1).load = some inv') ∧
      ((runAll (stageStep 1) (sampleStore (stagedInvoice []) [], 0) twoStages).2 ≤ (stagedInvoice []).funded ↔
        (stagedInvoice []).ratios = [] ∨ (inv'.releasedStages - (stagedInvoice []).releasedStages : ℕ) *
          ratioGross (stagedInvoice []) ≤ (stagedInvoice []).funded) ∧
      ((stagedInvoice []).ratios = [] ∨
          (stagedInvoice []).releaseStages.length * ratioGross (stagedInvoice []) ≤ (stagedInvoice []).funded →
        (runAll (stageStep 1) (sampleStore (stagedInvoice []) [], 0) twoStages).2 ≤ (stagedInvoice []).funded) :=
  stages_within_iff (s := sampleStore (stagedInvoice []) []) twoStages (staged_sample [] (.inl rfl)) rfl (by
    intro c hc call hcall
    rcases List.mem_cons.1 hc with rfl | hc
    · cases hcall
    · rw [List.mem_singleton.1 hc] at hcall
      cases hcall)

/-- With the ratios 99 and 1 out of 100 each of the two stages pays out 98. -/
theorem stages_overspend :
    validateRatios [99, 1] 100 = .ok () ∧
      (runAll (stageStep 1) (sampleStore (stagedInvoice [99, 1]) [], 0) twoStages).2 = 196 ∧
      ((runAll (stageStep 1) (sampleStore (stagedInvoice [99, 1]) [], 0) twoStages).1.log.map
        fun m => (m.dst, m.amount)) = [(10, 98), (10, 98)] := by
  decide +kernel

end StellarSplit.Split.Stages
