import StellarSplit.Split.Creation
import StellarSplit.Split.Expiry
import StellarSplit.Split.Volume

/-!
# Milestones

A payment releases the milestones its funding has reached. Every milestone pays
the recipients their part of the tranche, and the last one the rest. What a cap
holds back is added to the share of the last recipient and recorded as surplus
as well, so a tranche is conserved as long as only the cap of the last recipient
holds something back; and each tranche is rounded down on its own.
-/

namespace StellarSplit.Split

open Exec Function Machine

variable {env : Env} {s t u : Store} {v : Unit} {id : ℕ} {inv : Invoice}

/-! ## Milestone lists -/

/-- The steps from one milestone to the next. -/
def milestoneDeltas : ℕ → List ℕ → List ℕ
  | _, [] => []
  | prev, milestone :: rest => (milestone - prev) :: milestoneDeltas milestone rest

theorem validateMilestonesFrom_sum {prev : ℕ} {ms : List ℕ}
    (h : validateMilestonesFrom prev ms = .ok ()) : prev + (milestoneDeltas prev ms).sum = 10000 := by
  induction ms generalizing prev with
  | nil =>
      unfold validateMilestonesFrom at h
      split at h
      · simpa [milestoneDeltas]
      · cases h
  | cons m ms ih =>
      simp only [validateMilestonesFrom] at h
      split_ifs at h with hlt hle
      have hrest := ih h
      simp only [milestoneDeltas, List.sum_cons]
      omega

theorem validateMilestones_sum {ms : List ℕ} (hsome : ms ≠ []) (h : validateMilestones ms = .ok ()) :
    (milestoneDeltas 0 ms).sum = 10000 := by
  unfold validateMilestones at h
  rw [if_neg hsome] at h
  have hsum := validateMilestonesFrom_sum h
  omega

theorem milestoneDeltas_append (prev : ℕ) (ms rest : List ℕ) :
    milestoneDeltas prev (ms ++ rest) =
      milestoneDeltas prev ms ++ milestoneDeltas (ms.getLastD prev) rest := by
  induction ms generalizing prev with
  | nil => rfl
  | cons m ms ih =>
      rw [List.cons_append, milestoneDeltas, ih, milestoneDeltas, List.cons_append, List.getLastD_cons]

/-! ## Tranches -/

/-- The part of an amount that a number of basis points makes. -/
def bpsPart (amount : ℤ) (bps : ℕ) : ℤ := amount * bps / 10000

theorem checkedBpsOf_eq {amount r : ℤ} {bps : ℕ} (h₀ : 0 ≤ amount) (h₁ : amount ≤ i128Max)
    (h : checkedBpsOf amount bps 10000 = .ok r) : r = bpsPart amount bps := by
  unfold checkedBpsOf at h
  split at h
  · rename_i q hq
    obtain rfl := Except.ok.inj h
    obtain ⟨-, hword, rfl⟩ := checkedMulDiv_eq hq
    have hcast : asU128 amount = amount.toNat := by
      apply asU128_of_nonneg h₀
      simp only [i128Max] at h₁
      omega
    rw [hcast] at hword ⊢
    have hquot : amount.toNat * bps / 10000 < 2 ^ 127 := by
      simp only [u128Max] at hword
      omega
    rw [asI128_of_lt hquot]
    unfold bpsPart
    push_cast
    rw [Int.toNat_of_nonneg h₀]
  · cases h

theorem bpsPart_nonneg {amount : ℤ} (h : 0 ≤ amount) (bps : ℕ) : 0 ≤ bpsPart amount bps := by
  unfold bpsPart
  positivity

theorem bpsPart_le {amount : ℤ} {bps : ℕ} (h : 0 ≤ amount) (hbps : bps ≤ 10000) :
    bpsPart amount bps ≤ amount := by
  unfold bpsPart
  apply Int.ediv_le_of_le_mul (by norm_num)
  exact mul_le_mul_of_nonneg_left (by exact_mod_cast hbps) h

/-- The tranches of a list of steps. -/
def trancheSum (total : ℤ) (deltas : List ℕ) : ℤ := (deltas.map (bpsPart total)).sum

/-- What rounding takes from a list of tranches. -/
theorem trancheSum_add_rest (total : ℤ) (deltas : List ℕ) :
    10000 * trancheSum total deltas + (deltas.map fun d : ℕ => total * d % 10000).sum =
      total * deltas.sum := by
  induction deltas with
  | nil => simp [trancheSum]
  | cons d ds ih =>
      have hdiv := Int.mul_ediv_add_emod (total * d) 10000
      simp only [trancheSum, List.map_cons, List.sum_cons, bpsPart, Nat.cast_add] at ih ⊢
      linarith

theorem rounding_nonneg {total : ℤ} {deltas : List ℕ} :
    ∀ x ∈ deltas.map fun d : ℕ => total * d % 10000, 0 ≤ x := by
  intro x hx
  obtain ⟨d, -, rfl⟩ := List.mem_map.1 hx
  exact Int.emod_nonneg _ (by norm_num)

/-- The tranches of all milestones make the total exactly when each of them is a whole number. -/
theorem trancheSum_eq_iff {total : ℤ} {deltas : List ℕ} (hsum : deltas.sum = 10000) :
    trancheSum total deltas = total ↔ ∀ d ∈ deltas, (10000 : ℤ) ∣ total * d := by
  have hrest := trancheSum_add_rest total deltas
  rw [hsum] at hrest
  have hzero : trancheSum total deltas = total ↔
      (deltas.map fun d : ℕ => total * d % 10000).sum = 0 := by
    constructor <;> intro h <;> push_cast at hrest <;> linarith
  rw [hzero]
  constructor
  · intro h d hd
    apply Int.dvd_of_emod_eq_zero
    exact List.all_zero_of_le_zero_le_of_sum_eq_zero rounding_nonneg h (List.mem_map.2 ⟨d, hd, rfl⟩)
  · intro h
    apply List.sum_eq_zero
    intro x hx
    obtain ⟨d, hd, rfl⟩ := List.mem_map.1 hx
    exact Int.emod_eq_zero_of_dvd (h d hd)

theorem trancheSum_nonneg {total : ℤ} (h : 0 ≤ total) (deltas : List ℕ) :
    0 ≤ trancheSum total deltas := by
  apply List.sum_nonneg
  intro x hx
  obtain ⟨d, -, rfl⟩ := List.mem_map.1 hx
  exact bpsPart_nonneg h d

theorem trancheSum_le {total : ℤ} {deltas : List ℕ} (h : 0 ≤ total) (hsum : deltas.sum ≤ 10000) :
    trancheSum total deltas ≤ total := by
  have hrest := trancheSum_add_rest total deltas
  have hrounding : 0 ≤ (deltas.map fun d : ℕ => total * d % 10000).sum :=
    List.sum_nonneg rounding_nonneg
  have hle : total * deltas.sum ≤ total * 10000 :=
    mul_le_mul_of_nonneg_left (by exact_mod_cast hsum) h
  linarith

/-! ## One milestone -/

/-- What creation promises of an invoice with milestones. -/
structure MilestoneTerms (inv : Invoice) : Prop where
  recipients : inv.recipients ≠ []
  amounts : ∀ a ∈ inv.amounts, 0 ≤ a
  total : inv.total ≤ i128Max
  milestones : inv.milestones ≠ []
  valid : validateMilestones inv.milestones = .ok ()

/-- No cap but that of the last recipient holds back a part of a step, and that one is not
negative. -/
structure CapsIdle (inv : Invoice) (delta : ℕ) : Prop where
  others : ∀ i amount cap, i + 1 < inv.recipients.length → inv.amounts[i]? = some amount →
    inv.recipientMaxPayouts.getD i none = some cap → bpsPart amount delta ≤ cap
  last : ∀ i cap, i + 1 = inv.recipients.length →
    inv.recipientMaxPayouts.getD i none = some cap → 0 ≤ cap

/-- What milestones paid, and what they recorded as surplus. -/
def milestoneOut (id : ℕ) (s : Store) : ℤ := spent id .payout s + (s.entries id).surplus

theorem transferPositive_spent {token dst : Address} {amount : ℤ} (h : 0 ≤ amount)
    (hrun : transferPositive env token dst amount ⟨id, .payout⟩ s = .ok (v, t)) :
    t.entries = s.entries ∧ spent id .payout t = spent id .payout s + amount := by
  rcases transferPositive_ok.1 hrun with ⟨-, -, rfl⟩ | ⟨hneg, rfl⟩
  · refine ⟨rfl, ?_⟩
    unfold spent
    rw [Store.withLog_log, tally_cons, if_pos (by simp)]
    ring
  · have hzero : amount = 0 := by omega
    exact ⟨rfl, by rw [hzero, add_zero]⟩

theorem cappedShare_idle {i : ℕ} {p : ℤ}
    (h : ∀ cap, inv.recipientMaxPayouts.getD i none = some cap → p ≤ cap) : cappedShare inv i p = p := by
  unfold cappedShare
  split
  · rename_i cap hcap
    exact min_eq_left (h cap hcap)
  · rfl

theorem cappedShare_bounds {i : ℕ} {p : ℤ} (hp : 0 ≤ p)
    (h : ∀ cap, inv.recipientMaxPayouts.getD i none = some cap → 0 ≤ cap) :
    0 ≤ cappedShare inv i p ∧ cappedShare inv i p ≤ p := by
  unfold cappedShare
  split
  · rename_i cap hcap
    exact ⟨le_min hp (h cap hcap), min_le_left _ _⟩
  · exact ⟨hp, le_rfl⟩

theorem satAddI128_le {a b : ℤ} (ha : 0 ≤ a) (hb : 0 ≤ b) :
    0 ≤ satAddI128 a b ∧ satAddI128 a b ≤ a + b := by
  unfold satAddI128 i128Min i128Max
  omega

theorem satAddI128_of_word {a b : ℤ} (h₀ : 0 ≤ a + b) (h₁ : a + b ≤ i128Max) :
    satAddI128 a b = a + b := by
  unfold satAddI128
  simp only [i128Min, i128Max] at h₁ ⊢
  omega

theorem satSubI128_of_word {a b : ℤ} (h₀ : 0 ≤ a - b) (h₁ : a - b ≤ i128Max) :
    satSubI128 a b = a - b := by
  unfold satSubI128
  simp only [i128Min, i128Max] at h₁ ⊢
  omega

/-- The shares before recipient `k` were paid in full, and are no more than their part. -/
structure SharesPaid (inv : Invoice) (delta k : ℕ) (acc : ℤ × ℤ) : Prop where
  surplus : acc.2 = 0
  nonneg : 0 ≤ acc.1
  paid : 10000 * acc.1 ≤ (inv.amounts.take k).sum * delta

theorem take_sum_le (h : ∀ a ∈ inv.amounts, 0 ≤ a) (k : ℕ) :
    0 ≤ (inv.amounts.take k).sum ∧ (inv.amounts.take k).sum ≤ inv.total := by
  have hsplit : inv.total = (inv.amounts.take k).sum + (inv.amounts.drop k).sum := by
    rw [← List.sum_append, List.take_append_drop]
    rfl
  have htake : 0 ≤ (inv.amounts.take k).sum :=
    List.sum_nonneg fun a ha => h a (List.mem_of_mem_take ha)
  have hdrop : 0 ≤ (inv.amounts.drop k).sum :=
    List.sum_nonneg fun a ha => h a (List.mem_of_mem_drop ha)
  exact ⟨htake, by omega⟩

theorem SharesPaid.le_tranche {delta k : ℕ} {acc : ℤ × ℤ} (hpaid : SharesPaid inv delta k acc)
    (hterms : MilestoneTerms inv) : acc.1 ≤ bpsPart inv.total delta := by
  have hle := (take_sum_le hterms.amounts k).2
  have hpart : (inv.amounts.take k).sum * delta ≤ inv.total * delta :=
    mul_le_mul_of_nonneg_right hle (Int.natCast_nonneg _)
  unfold bpsPart
  apply Int.le_ediv_of_mul_le (by norm_num)
  linarith [hpaid.paid]

theorem payMilestoneShare_other {delta k : ℕ} {tranche : ℤ} {token r : Address} {acc acc' : ℤ × ℤ}
    (hterms : MilestoneTerms inv) (hcaps : CapsIdle inv delta) (hdelta : delta ≤ 10000)
    (hk : k + 1 < inv.recipients.length) (hpaid : SharesPaid inv delta k acc)
    (hrun : payMilestoneShare env id inv token delta tranche acc (r, k) s = .ok (acc', t)) :
    t.entries = s.entries ∧ SharesPaid inv delta (k + 1) acc' ∧
      spent id .payout t = spent id .payout s + (acc'.1 - acc.1) := by
  obtain ⟨p, hshare, hrun⟩ := ofResult_bind.1 hrun
  obtain ⟨_, u, htransfer, hrun⟩ := bind_ok.1 hrun
  obtain ⟨rfl, rfl⟩ := pure_ok.1 hrun
  obtain ⟨amount, hamount, hshare⟩ := except_bind_ok.1 hshare
  have hget := unwrap_ok.1 hamount
  rw [if_neg (by omega)] at hshare
  have hmem : amount ∈ inv.amounts := List.mem_of_getElem? hget
  have hnonneg : 0 ≤ amount := hterms.amounts amount hmem
  have hword : amount ≤ i128Max := by
    have hle : amount ≤ inv.total := List.single_le_sum hterms.amounts amount hmem
    exact hle.trans hterms.total
  obtain rfl : p = bpsPart amount delta := checkedBpsOf_eq hnonneg hword hshare
  have hidle : cappedShare inv k (bpsPart amount delta) = bpsPart amount delta :=
    cappedShare_idle fun cap hcap => hcaps.others k amount cap hk hget hcap
  have hpart : 0 ≤ bpsPart amount delta := bpsPart_nonneg hnonneg delta
  rw [hidle] at htransfer
  obtain ⟨hentries, hspent⟩ := transferPositive_spent hpart htransfer
  have htake : (inv.amounts.take (k + 1)).sum = (inv.amounts.take k).sum + amount := by
    rw [List.take_add_one, hget, List.sum_append]
    simp
  -- the new sum is the old one and the share
  have hpaid' : SharesPaid inv delta (k + 1) (acc.1 + bpsPart amount delta, 0) := by
    refine ⟨rfl, by linarith [hpaid.nonneg], ?_⟩
    have hround : 10000 * bpsPart amount delta ≤ amount * delta := by
      unfold bpsPart
      exact Int.mul_ediv_self_le (by norm_num)
    rw [htake, add_mul]
    linarith [hpaid.paid]
  have hsums : milestoneSums acc (bpsPart amount delta) (bpsPart amount delta) =
      (acc.1 + bpsPart amount delta, 0) := by
    have htotal := hpaid'.le_tranche hterms
    have htranche : bpsPart inv.total delta ≤ inv.total :=
      bpsPart_le (le_trans (take_sum_le hterms.amounts 0).1 (take_sum_le hterms.amounts 0).2) hdelta
    have hword' : acc.1 + bpsPart amount delta ≤ i128Max :=
      le_trans htotal (htranche.trans hterms.total)
    unfold milestoneSums
    rw [if_neg (lt_irrefl _), hpaid.surplus]
    split
    · rw [satAddI128_of_word (by linarith [hpaid.nonneg]) hword']
    · have hzero : bpsPart amount delta = 0 := by omega
      rw [hzero, add_zero]
  rw [hidle, hsums]
  refine ⟨hentries, hpaid', ?_⟩
  rw [hspent]
  ring

theorem payMilestoneShare_last {delta k : ℕ} {token r : Address} {acc acc' : ℤ × ℤ}
    (hterms : MilestoneTerms inv) (hcaps : CapsIdle inv delta) (hdelta : delta ≤ 10000)
    (hk : k + 1 = inv.recipients.length) (hpaid : SharesPaid inv delta k acc)
    (hrun : payMilestoneShare env id inv token delta (bpsPart inv.total delta) acc (r, k) s =
      .ok (acc', t)) :
    t.entries = s.entries ∧ 0 ≤ acc'.2 ∧ acc'.2 ≤ bpsPart inv.total delta ∧
      spent id .payout t + acc'.2 = spent id .payout s + (bpsPart inv.total delta - acc.1) := by
  obtain ⟨p, hshare, hrun⟩ := ofResult_bind.1 hrun
  obtain ⟨_, u, htransfer, hrun⟩ := bind_ok.1 hrun
  obtain ⟨rfl, rfl⟩ := pure_ok.1 hrun
  obtain ⟨amount, -, hshare⟩ := except_bind_ok.1 hshare
  rw [if_pos hk, hpaid.surplus] at hshare
  have hle := hpaid.le_tranche hterms
  have hnonneg := hpaid.nonneg
  have hword : bpsPart inv.total delta ≤ i128Max := by
    have htotal : 0 ≤ inv.total :=
      le_trans (take_sum_le hterms.amounts 0).1 (take_sum_le hterms.amounts 0).2
    exact (bpsPart_le htotal hdelta).trans hterms.total
  have hp : p = bpsPart inv.total delta - acc.1 := by
    rw [← Except.ok.inj hshare, satSubI128_of_word (by omega) (by omega),
      satAddI128_of_word (by omega) (by omega), add_zero]
  have hp₀ : 0 ≤ p := by omega
  obtain ⟨hcap₀, hcap₁⟩ := cappedShare_bounds hp₀ fun cap hcap => hcaps.last k cap hk hcap
  obtain ⟨hentries, hspent⟩ := transferPositive_spent hcap₀ htransfer
  have hsurplus : (milestoneSums acc p (cappedShare inv k p)).2 = p - cappedShare inv k p := by
    unfold milestoneSums
    dsimp only
    rw [hpaid.surplus]
    split
    · rw [satAddI128_of_word (by omega) (by omega), zero_add]
    · omega
  rw [hsurplus, hspent]
  refine ⟨hentries, ?_, ?_, ?_⟩ <;> omega

/-- All recipients of a milestone together get the tranche, less what the last cap holds back. -/
theorem payMilestoneShares {delta k : ℕ} {token : Address} {l : List Address} {acc acc' : ℤ × ℤ}
    (hterms : MilestoneTerms inv) (hcaps : CapsIdle inv delta) (hdelta : delta ≤ 10000)
    (hl : l ≠ []) (hk : k + l.length = inv.recipients.length) (hpaid : SharesPaid inv delta k acc)
    (hrun : (l.zipIdx k).foldlM
      (payMilestoneShare env id inv token delta (bpsPart inv.total delta)) acc s = .ok (acc', t)) :
    t.entries = s.entries ∧ 0 ≤ acc'.2 ∧ acc'.2 ≤ bpsPart inv.total delta ∧
      spent id .payout t + acc'.2 = spent id .payout s + (bpsPart inv.total delta - acc.1) := by
  induction l generalizing k acc s with
  | nil => exact absurd rfl hl
  | cons r rest ih =>
      rw [List.zipIdx_cons, List.foldlM_cons] at hrun
      obtain ⟨mid, u, hfirst, hrest⟩ := bind_ok.1 hrun
      cases rest with
      | nil =>
          obtain ⟨rfl, rfl⟩ := pure_ok.1 hrest
          exact payMilestoneShare_last hterms hcaps hdelta hk hpaid hfirst
      | cons r' rest =>
          simp only [List.length_cons] at hk ih
          obtain ⟨hentries, hmid, hspent⟩ :=
            payMilestoneShare_other hterms hcaps hdelta (by omega) hpaid hfirst
          obtain ⟨hentries', hsurplus₀, hsurplus₁, hout⟩ :=
            ih (by simp) (by omega) hmid hrest
          refine ⟨hentries'.trans hentries, hsurplus₀, hsurplus₁, ?_⟩
          linarith

theorem addSurplus_ok {x : ℤ} (hrun : addSurplus id x s = .ok (v, t)) :
    t.log = s.log ∧ (t.entries id).surplus = satAddI128 (s.entries id).surplus x := by
  obtain rfl := modifyEntry_ok.1 hrun
  refine ⟨rfl, ?_⟩
  rw [Store.setEntry_self]

/-- A milestone pays and records its tranche; less only if the record is full. -/
theorem releaseMilestone_out {prev bps : ℕ} {token : Address} (hterms : MilestoneTerms inv)
    (hcaps : CapsIdle inv (bps - prev)) (hbps : bps - prev ≤ 10000)
    (hsurplus : 0 ≤ (s.entries id).surplus)
    (hrun : releaseMilestone env id inv token prev bps s = .ok (v, t)) :
    milestoneOut id t ≤ milestoneOut id s + bpsPart inv.total (bps - prev) ∧
      0 ≤ (t.entries id).surplus ∧
      ((s.entries id).surplus + bpsPart inv.total (bps - prev) ≤ i128Max →
        milestoneOut id t = milestoneOut id s + bpsPart inv.total (bps - prev) ∧
        (t.entries id).surplus ≤ (s.entries id).surplus + bpsPart inv.total (bps - prev)) := by
  have htotal : 0 ≤ inv.total :=
    le_trans (take_sum_le hterms.amounts 0).1 (take_sum_le hterms.amounts 0).2
  obtain ⟨tranche, htranche, hrun⟩ := ofResult_bind.1 hrun
  obtain rfl := checkedBpsOf_eq htotal hterms.total htranche
  obtain ⟨sums, u, hshares, hrun⟩ := bind_ok.1 hrun
  have hstart : SharesPaid inv (bps - prev) 0 (0, 0) := ⟨rfl, le_rfl, by simp⟩
  obtain ⟨hentries, hsum₀, hsum₁, hout⟩ :=
    payMilestoneShares hterms hcaps hbps hterms.recipients (Nat.zero_add _) hstart hshares
  have hword : sums.2 ≤ i128Max := hsum₁.trans ((bpsPart_le htotal hbps).trans hterms.total)
  unfold milestoneOut
  rcases onlyIf_ok.1 hrun with ⟨hpos, hadd⟩ | ⟨hneg, rfl⟩
  · obtain ⟨hlog, hrecord⟩ := addSurplus_ok hadd
    have hspent : spent id .payout t = spent id .payout u := by
      unfold spent
      rw [hlog]
    rw [hentries] at hrecord
    obtain ⟨hsat₀, hsat⟩ := satAddI128_le hsurplus hpos.le
    refine ⟨by omega, by omega, fun hroom => ?_⟩
    rw [satAddI128_of_word (by omega) (by omega)] at hrecord
    constructor <;> omega
  · rw [hentries]
    refine ⟨by omega, hsurplus, fun hroom => ?_⟩
    constructor <;> omega

/-! ## The loop over the milestones -/

/-- Paid and recorded was as much as the tranches of these steps. -/
structure Conserved (id : ℕ) (total : ℤ) (deltas : List ℕ) (s t : Store) : Prop where
  out : milestoneOut id t = milestoneOut id s + trancheSum total deltas
  nonneg : 0 ≤ (t.entries id).surplus
  record : (t.entries id).surplus ≤ (s.entries id).surplus + trancheSum total deltas

/-- What the steps of an invoice have to meet. -/
def StepsIdle (inv : Invoice) (deltas : List ℕ) : Prop :=
  ∀ delta ∈ deltas, CapsIdle inv delta ∧ delta ≤ 10000

theorem milestoneLoop_conserved {token : Address} {ms : List ℕ} {prev released released' : ℕ}
    (hterms : MilestoneTerms inv) (hidle : StepsIdle inv (milestoneDeltas prev ms))
    (hsurplus : 0 ≤ (s.entries id).surplus)
    (hroom : (s.entries id).surplus + trancheSum inv.total (milestoneDeltas prev ms) ≤ i128Max)
    (hrun : milestoneLoop env id inv token ms prev released s = .ok (released', t)) :
    ∃ n ≤ ms.length, released' = released + n ∧
      Conserved id inv.total (milestoneDeltas prev (ms.take n)) s t := by
  have htotal : 0 ≤ inv.total :=
    le_trans (take_sum_le hterms.amounts 0).1 (take_sum_le hterms.amounts 0).2
  have hstop : Conserved id inv.total [] s s := by
    refine ⟨?_, hsurplus, ?_⟩ <;> simp [trancheSum]
  induction ms generalizing prev released s with
  | nil =>
      obtain ⟨rfl, rfl⟩ := pure_ok.1 hrun
      exact ⟨0, le_rfl, rfl, hstop⟩
  | cons m ms ih =>
      obtain ⟨threshold, -, hrun⟩ := ofResult_bind.1 hrun
      split at hrun
      · obtain ⟨rfl, rfl⟩ := pure_ok.1 hrun
        exact ⟨0, Nat.zero_le _, rfl, hstop⟩
      · obtain ⟨_, u, hfirst, hrest⟩ := bind_ok.1 hrun
        rw [milestoneDeltas] at hidle hroom
        obtain ⟨hcaps, hbps⟩ := hidle (m - prev) (by simp)
        have hlater : 0 ≤ trancheSum inv.total (milestoneDeltas m ms) := trancheSum_nonneg htotal _
        simp only [trancheSum, List.map_cons, List.sum_cons] at hroom hlater
        obtain ⟨-, hsurplus', hexact⟩ :=
          releaseMilestone_out hterms hcaps hbps hsurplus hfirst
        obtain ⟨hout, hrecord⟩ := hexact (by omega)
        have hstop' : Conserved id inv.total [] u u := by
          refine ⟨?_, hsurplus', ?_⟩ <;> simp [trancheSum]
        obtain ⟨n, hn, hreleased, hcons⟩ := ih
          (fun d hd => hidle d (List.mem_cons_of_mem _ hd)) hsurplus'
          (by unfold trancheSum; omega) hrest hstop'
        refine ⟨n + 1, Nat.succ_le_succ hn, by omega, ?_, hcons.nonneg, ?_⟩
        · rw [List.take_succ_cons, milestoneDeltas, hcons.out, hout]
          simp only [trancheSum, List.map_cons, List.sum_cons]
          ring
        · have hend := hcons.record
          rw [List.take_succ_cons, milestoneDeltas]
          simp only [trancheSum, List.map_cons, List.sum_cons] at hend ⊢
          omega

theorem MilestoneTerms.congr {now : Invoice} (h : MilestoneTerms inv)
    (hterms : now.terms = inv.terms) : MilestoneTerms now := by
  have hbase : MilestoneTerms inv.terms :=
    ⟨h.recipients, h.amounts, h.total, h.milestones, h.valid⟩
  rw [← hterms] at hbase
  exact ⟨hbase.recipients, hbase.amounts, hbase.total, hbase.milestones, hbase.valid⟩

theorem CapsIdle.congr {now : Invoice} {delta : ℕ} (h : CapsIdle inv delta)
    (hterms : now.terms = inv.terms) : CapsIdle now delta := by
  have hbase : CapsIdle inv.terms delta := ⟨h.others, h.last⟩
  rw [← hterms] at hbase
  exact ⟨hbase.others, hbase.last⟩

theorem total_of_terms {now : Invoice} (hterms : now.terms = inv.terms) : now.total = inv.total := by
  have htotal := congrArg Invoice.total hterms
  exact htotal

theorem milestones_of_terms {now : Invoice} (hterms : now.terms = inv.terms) :
    now.milestones = inv.milestones := by
  have hmilestones := congrArg Invoice.milestones hterms
  exact hmilestones

theorem lastMilestone_eq (h : inv.milestonesReleased ≤ inv.milestones.length) :
    lastMilestone inv = (inv.milestones.take inv.milestonesReleased).getLastD 0 := by
  unfold lastMilestone
  rw [List.getLastD_eq_getLast?, List.getLast?_take]
  split
  · rfl
  · rename_i hpos
    have hlt : inv.milestonesReleased - 1 < inv.milestones.length := by omega
    rw [List.getD_eq_getElem?_getD, List.getElem?_eq_getElem hlt]
    rfl

theorem trancheSum_append (total : ℤ) (ds es : List ℕ) :
    trancheSum total (ds ++ es) = trancheSum total ds + trancheSum total es := by
  unfold trancheSum
  rw [List.map_append, List.sum_append]

/-- What a run of payments on an invoice assumes: valid terms and caps that hold nothing back. -/
structure MilestoneRun (id : ℕ) (inv : Invoice) (start : Store) : Prop where
  terms : MilestoneTerms inv
  idle : ∀ delta ∈ milestoneDeltas 0 inv.milestones, CapsIdle inv delta
  record : (start.entries id).surplus = 0

theorem MilestoneTerms.delta_le (h : MilestoneTerms inv) {delta : ℕ}
    (hdelta : delta ∈ milestoneDeltas 0 inv.milestones) : delta ≤ 10000 := by
  rw [← validateMilestones_sum h.milestones h.valid]
  exact List.single_le_sum (fun _ _ => Nat.zero_le _) delta hdelta

theorem maybeReleaseMilestones_conserved {start : Store} {now paid : Invoice}
    (hrunOf : MilestoneRun id inv start) (hterms : now.terms = inv.terms)
    (hreleased : now.milestonesReleased ≤ inv.milestones.length)
    (hcons : Conserved id inv.total
      (milestoneDeltas 0 (inv.milestones.take now.milestonesReleased)) start s)
    (hrun : maybeReleaseMilestones env id now s = .ok (paid, t)) :
    paid.terms = inv.terms ∧ paid.milestonesReleased ≤ inv.milestones.length ∧
      Conserved id inv.total
        (milestoneDeltas 0 (inv.milestones.take paid.milestonesReleased)) start t := by
  obtain ⟨-, rfl, rfl⟩ | ⟨-, -, -, token, released, -, hloop, rfl⟩ := maybeReleaseMilestones_cases hrun
  · exact ⟨hterms, hreleased, hcons⟩
  · have hms := milestones_of_terms hterms
    have hlast : lastMilestone now =
        (inv.milestones.take now.milestonesReleased).getLastD 0 := by
      rw [lastMilestone_eq (by rw [hms]; exact hreleased), hms]
    rw [hms, hlast] at hloop
    -- the steps already taken and the steps still to come
    have hsplit : ∀ n, milestoneDeltas 0 (inv.milestones.take (now.milestonesReleased + n)) =
        milestoneDeltas 0 (inv.milestones.take now.milestonesReleased) ++
          milestoneDeltas ((inv.milestones.take now.milestonesReleased).getLastD 0)
            ((inv.milestones.drop now.milestonesReleased).take n) := by
      intro n
      rw [List.take_add, milestoneDeltas_append]
    have hall : milestoneDeltas 0 inv.milestones =
        milestoneDeltas 0 (inv.milestones.take now.milestonesReleased) ++
          milestoneDeltas ((inv.milestones.take now.milestonesReleased).getLastD 0)
            (inv.milestones.drop now.milestonesReleased) := by
      rw [← milestoneDeltas_append, List.take_append_drop]
    have htotal : 0 ≤ inv.total :=
      le_trans (take_sum_le hrunOf.terms.amounts 0).1 (take_sum_le hrunOf.terms.amounts 0).2
    have hsum : trancheSum inv.total (milestoneDeltas 0 inv.milestones) ≤ inv.total :=
      trancheSum_le htotal (validateMilestones_sum hrunOf.terms.milestones hrunOf.terms.valid).le
    rw [hall, trancheSum_append] at hsum
    have hrecord := hcons.record
    rw [hrunOf.record, zero_add] at hrecord
    obtain ⟨n, hn, hcount, hstep⟩ := milestoneLoop_conserved (hrunOf.terms.congr hterms)
      (fun d hd => by
        have hmem : d ∈ milestoneDeltas 0 inv.milestones := by
          rw [hall]
          exact List.mem_append_right _ hd
        exact ⟨(hrunOf.idle d hmem).congr hterms, hrunOf.terms.delta_le hmem⟩)
      hcons.nonneg
      (by
        rw [total_of_terms hterms]
        have := hrunOf.terms.total
        omega) hloop
    rw [total_of_terms hterms] at hstep
    rw [List.length_drop] at hn
    have hnew : Conserved id inv.total (milestoneDeltas 0 (inv.milestones.take released)) start t := by
      rw [hcount, hsplit]
      refine ⟨?_, hstep.nonneg, ?_⟩
      · rw [trancheSum_append, hstep.out, hcons.out]
        ring
      · have hfirst := hcons.record
        have hsecond := hstep.record
        rw [trancheSum_append]
        omega
    have hle : released ≤ inv.milestones.length := by omega
    split
    · exact ⟨hterms, hle, hnew⟩
    · exact ⟨hterms, hle, hnew⟩

/-! ## Passes that pay no milestone -/

/-- No payout of the invoice was made and its surplus is the same. -/
structure Quiet (id : ℕ) (s t : Store) : Prop where
  spent : spent id .payout t = spent id .payout s
  surplus : (t.entries id).surplus = (s.entries id).surplus

instance quiet_refl : Std.Refl (Quiet id) := ⟨fun _ => ⟨rfl, rfl⟩⟩

instance quiet_trans : IsTrans Store (Quiet id) :=
  ⟨fun _ _ _ h₁ h₂ => ⟨h₂.spent.trans h₁.spent, h₂.surplus.trans h₁.surplus⟩⟩

theorem Quiet.conserved {total : ℤ} {deltas : List ℕ} {start : Store} (h : Quiet id s t)
    (hcons : Conserved id total deltas start s) : Conserved id total deltas start t := by
  refine ⟨?_, ?_, ?_⟩
  · have hout := hcons.out
    unfold milestoneOut at hout ⊢
    rw [h.spent, h.surplus, hout]
  · rw [h.surplus]
    exact hcons.nonneg
  · rw [h.surplus]
    exact hcons.record

theorem moves_quiet {memo : Memo} (h : memo ≠ ⟨id, .payout⟩) : Moves (Quiet id) memo := by
  refine ⟨fun s m hm => ⟨?_, rfl⟩⟩
  unfold Split.spent
  rw [Store.withLog_log, tally_cons, if_neg (by simp [hm, h]), zero_add]

instance moves_quiet_payment : Moves (Quiet id) ⟨id, .payment⟩ := moves_quiet (by simp)

instance moves_quiet_surplus : Moves (Quiet id) ⟨id, .surplus⟩ := moves_quiet (by simp)

instance moves_quiet_donation : Moves (Quiet id) ⟨id, .donation⟩ := moves_quiet (by simp)

instance moves_quiet_penalty : Moves (Quiet id) ⟨id, .penalty⟩ := moves_quiet (by simp)

instance countsVolume_quiet : CountsVolume (Quiet id) := ⟨fun _ _ => ⟨rfl, rfl⟩⟩

theorem framed_modifyEntry_quiet {f : Entry → Entry} (hf : ∀ e, (f e).surplus = e.surplus) :
    Framed (Quiet id) (modifyEntry id f) := by
  refine .of (.modify fun s => ⟨rfl, ?_⟩)
  rw [Store.setEntry_self]
  exact hf _

instance saves_quiet : Saves (Quiet id) id inv := by
  refine ⟨fun _ _ s => ⟨rfl, ?_⟩⟩
  rw [Store.setEntry_self]

instance framed_recordPayment_quiet {a : Address} {x : ℤ} {b : Bool} :
    Framed (Quiet id) (recordPayment id a x b) := by
  have hpush : ∀ p, Framed (Quiet id) (pushPayment id p) := fun _ =>
    framed_modifyEntry_quiet fun _ => rfl
  have hcumulative : Framed (Quiet id) (addCumulative id x) := framed_modifyEntry_quiet fun _ => rfl
  have hcontribution : Framed (Quiet id) (addContribution id a x) :=
    framed_modifyEntry_quiet fun _ => rfl
  unfold recordPayment
  infer_instance

instance framed_recordFunded_quiet : Framed (Quiet id) (recordFunded env id) :=
  framed_modifyEntry_quiet fun _ => rfl

instance framed_accumulate_quiet {a : Address} {x y : ℤ} :
    Framed (Quiet id) (accumulate id inv a x y) := by
  have hset : ∀ x, Framed (Quiet id) (setAccumulator id a x) := fun _ =>
    framed_modifyEntry_quiet fun _ => rfl
  unfold accumulate
  infer_instance

instance framed_checkLimits_quiet {a : Address} {x : ℤ} {n : ℕ} :
    Framed (Quiet id) (checkLimits env id inv a x n) := by
  have hnonce : Framed (Quiet id) (incrementNonce id a) := framed_modifyEntry_quiet fun _ => rfl
  have hvelocity : ∀ window, Framed (Quiet id) (setVelocity id a window) := fun _ =>
    framed_modifyEntry_quiet fun _ => rfl
  unfold checkLimits
  infer_instance

/-! ## Runs of payments -/

/-- The invoice under the id keeps its terms, and the milestones released so far paid and recorded
their tranches. -/
structure MilestonesPaid (id : ℕ) (inv : Invoice) (start s : Store) (now : Invoice) : Prop where
  load : (s.entries id).load = some now
  terms : now.terms = inv.terms
  released : now.milestonesReleased ≤ inv.milestones.length
  conserved : Conserved id inv.total
    (milestoneDeltas 0 (inv.milestones.take now.milestonesReleased)) start s

theorem startHold_terms (env : Env) (inv : Invoice) :
    (startHold env inv).terms = inv.terms ∧
      (startHold env inv).milestonesReleased = inv.milestonesReleased := by
  exact ⟨startHold_field Invoice.terms (fun _ => rfl) env,
    startHold_field Invoice.milestonesReleased (fun _ => rfl) env⟩

theorem saveInvoice_load (hrun : saveInvoice env id inv s = .ok (v, t)) :
    (t.entries id).load = some (inv.withPayments (t.entries id).payments) := by
  obtain ⟨-, rfl⟩ := saveInvoice_ok.1 hrun
  rw [Store.setEntry_self]
  rfl

/-- A payment on an invoice with milestones is saved, never released. -/
theorem settlePayment_milestones {target : ℤ} {payer : Address} (hms : inv.milestones ≠ [])
    (hrun : settlePayment env id inv target payer s = .ok (v, t)) :
    Quiet id s t ∧ ∃ now, (t.entries id).load = some now ∧ now.terms = inv.terms ∧
      now.milestonesReleased = inv.milestonesReleased := by
  obtain ⟨-, u, hrecord, ⟨-, hrun⟩ | ⟨hopen, -⟩⟩ | ⟨-, hrun⟩ := settlePayment_cases hrun
  · have hquiet : Quiet id s u := framed_recordFunded_quiet.respects s _ u hrecord
    have hsaved : Quiet id u t := framed_saveInvoice.respects u v t hrun
    obtain ⟨hterms, hreleased⟩ := startHold_terms env inv
    exact ⟨IsTrans.trans s u t hquiet hsaved, _, saveInvoice_load hrun, hterms, hreleased⟩
  · rw [payGuarded_of_milestones _ hms] at hopen
    cases hopen
  · exact ⟨framed_saveInvoice.respects s v t hrun, _, saveInvoice_load hrun, rfl, rfl⟩

theorem creditPayment_conserved {start : Store} {now : Invoice} {payer : Address}
    {amount target : ℤ} {donate : Bool}
    (hrunOf : MilestoneRun id inv start) (hterms : now.terms = inv.terms)
    (hreleased : now.milestonesReleased ≤ inv.milestones.length)
    (hcons : Conserved id inv.total
      (milestoneDeltas 0 (inv.milestones.take now.milestonesReleased)) start s)
    (hrun : creditPayment env payer id now amount target donate s = .ok (v, t)) :
    ∃ next, MilestonesPaid id inv start t next := by
  obtain ⟨credited, premium, credit, paid, u₃, u₄, u₅, u₆, u₇, u₈, -, -, htake, -, hrecord, hcount, hnotify,
    hmilestones, hreceipt, hsettle⟩ := creditPayment_passes hrun
  have hcons₃ := Quiet.conserved (framed_takePayment.respects s _ u₃ htake) hcons
  have hcons₄ := Quiet.conserved (framed_recordPayment_quiet.respects u₃ _ u₄ hrecord) hcons₃
  have hcons₅ := Quiet.conserved (framed_countPayment.respects u₄ _ u₅ hcount) hcons₄
  have hcons₆ := Quiet.conserved (framed_notifyInvoice.respects u₅ _ u₆ hnotify) hcons₅
  have hterms' : (now.credited (now.funded + credited) premium credit).terms = inv.terms := hterms
  obtain ⟨hterms₇, hreleased₇, hcons₇⟩ :=
    maybeReleaseMilestones_conserved hrunOf hterms' hreleased hcons₆ hmilestones
  have hcons₈ := Quiet.conserved (framed_invokeIfSet.respects u₇ _ u₈ hreceipt) hcons₇
  have hms : paid.milestones ≠ [] := by
    rw [milestones_of_terms hterms₇]
    exact hrunOf.terms.milestones
  obtain ⟨hquiet, next, hload, hnext, hcount'⟩ := settlePayment_milestones hms hsettle
  refine ⟨next, hload, hnext.trans hterms₇, ?_, ?_⟩
  · rw [hcount']
    exact hreleased₇
  · rw [hcount']
    exact hquiet.conserved hcons₈

/-- The invoice under the id is the same. -/
def SameLoad (id : ℕ) (s t : Store) : Prop := (t.entries id).load = (s.entries id).load

instance sameLoad_refl : Std.Refl (SameLoad id) := ⟨fun _ => rfl⟩

instance sameLoad_trans : IsTrans Store (SameLoad id) := ⟨fun _ _ _ h₁ h₂ => Eq.trans h₂ h₁⟩

instance notes_sameLoad : Notes (SameLoad id) id := by
  refine ⟨fun s e hcore => ?_⟩
  have hload := congrArg Entry.load hcore
  unfold SameLoad
  rw [Store.setEntry_self]
  exact hload

/-- What a payment reads of the invoice's milestones. -/
def Invoice.progress (inv : Invoice) : Invoice × ℕ := (inv.terms, inv.milestonesReleased)

theorem checkPayment_progress {payer : Address} {amount : ℤ} {now : Invoice}
    (hrun : checkPayment env payer id amount s = .ok (now, t)) :
    ∃ stored next, (s.entries id).load = some stored ∧ (t.entries id).load = some next ∧
      now.progress = stored.progress ∧ next.progress = stored.progress := by
  obtain ⟨stored, hload, -, hnow⟩ := checkPayment_ok hrun
  rcases hnow with ⟨rfl, rfl⟩ | ⟨rfl, hsave⟩
  · exact ⟨now, now, hload, hload, rfl, rfl⟩
  · exact ⟨stored, _, hload, saveInvoice_load hsave, rfl, rfl⟩

/-- One payment keeps the milestones paid. -/
theorem pay_conserved {start : Store} {now : Invoice} {payer : Address} {amount : ℤ} {nonce : ℕ}
    {donate : Bool} (hrunOf : MilestoneRun id inv start) (h : MilestonesPaid id inv start s now)
    (hrun : pay env payer id amount nonce donate s = .ok (v, t)) :
    ∃ next, MilestonesPaid id inv start t next := by
  obtain ⟨cur, target, credits, u₁, u₂, u₃, -, hcheck, -, hkyc, haccumulate, hcredits⟩ := pay_passes hrun
  obtain ⟨stored, next, hload, hnext, hcur, hprogress⟩ := checkPayment_progress hcheck
  rw [h.load] at hload
  cases hload
  have hcons₁ := Quiet.conserved (framed_checkPayment.respects s _ u₁ hcheck) h.conserved
  have hcons₂ := Quiet.conserved (framed_checkKyc.respects u₁ _ u₂ hkyc) hcons₁
  have hcons₃ := Quiet.conserved (framed_accumulate_quiet.respects u₂ _ u₃ haccumulate) hcons₂
  have hkeeps : ∀ x : Invoice, x.progress = now.progress →
      x.terms = inv.terms ∧ x.milestonesReleased = now.milestonesReleased := by
    intro x hx
    obtain ⟨hterms, hreleased⟩ := Prod.mk.inj hx
    exact ⟨hterms.trans h.terms, hreleased⟩
  rcases hcredits with ⟨-, u₄, hlimits, hcredit⟩ | ⟨-, rfl⟩
  · have hcons₄ := Quiet.conserved (framed_checkLimits_quiet.respects u₃ _ u₄ hlimits) hcons₃
    obtain ⟨hterms, hreleased⟩ := hkeeps cur hcur
    refine creditPayment_conserved hrunOf hterms ?_ ?_ hcredit
    · rw [hreleased]
      exact h.released
    · rw [hreleased]
      exact hcons₄
  · have hsame₂ : SameLoad id u₁ u₂ := framed_checkKyc.respects u₁ _ u₂ hkyc
    have hsame₃ : SameLoad id u₂ u₃ := framed_accumulate.respects u₂ _ u₃ haccumulate
    obtain ⟨hterms, hreleased⟩ := hkeeps next hprogress
    refine ⟨next, ?_, hterms, ?_, ?_⟩
    · rw [hsame₃, hsame₂, hnext]
    · rw [hreleased]
      exact h.released
    · rw [hreleased]
      exact hcons₃

/-- A payment on the invoice. -/
structure PayCall where
  env : Env
  payer : Address
  amount : ℤ
  nonce : ℕ
  donateOnFailure : Bool

def payStep (id : ℕ) (c : PayCall) : SplitM Unit :=
  pay c.env c.payer id c.amount c.nonce c.donateOnFailure

theorem runAll_milestones (hload : (s.entries id).load = some inv)
    (hnone : inv.milestonesReleased = 0) (hrunOf : MilestoneRun id inv s) (calls : List PayCall) :
    ∃ now, MilestonesPaid id inv s (runAll (payStep id) s calls) now := by
  refine runAll_invariant (I := fun u => ∃ now, MilestonesPaid id inv s u now) ?_ ?_ calls
  · rintro u c _ t ⟨now, hpaid⟩ hrun
    exact pay_conserved hrunOf hpaid hrun
  · refine ⟨inv, hload, rfl, ?_, ?_⟩
    · rw [hnone]
      exact Nat.zero_le _
    · rw [hnone]
      refine ⟨?_, hrunOf.record.ge, ?_⟩ <;> simp [trancheSum, milestoneDeltas]

/-- Each milestone pays and records at most its tranche when only the last cap holds something
back; and once all milestones of a run of payments are released, they paid and recorded the total
exactly when every tranche is a whole number. -/
theorem milestone_payouts_conserved (hload : (s.entries id).load = some inv)
    (hnone : inv.milestonesReleased = 0) (hrecord : (s.entries id).surplus = 0)
    (hterms : MilestoneTerms inv)
    (hcaps : ∀ delta ∈ milestoneDeltas 0 inv.milestones, CapsIdle inv delta)
    (calls : List PayCall) :
    (∀ env now token prev bps u w, now.terms = inv.terms →
      bps - prev ∈ milestoneDeltas 0 inv.milestones → 0 ≤ (u.entries id).surplus →
      releaseMilestone env id now token prev bps u = .ok ((), w) →
      milestoneOut id w ≤ milestoneOut id u + bpsPart inv.total (bps - prev)) ∧
    ∀ now, ((runAll (payStep id) s calls).entries id).load = some now →
      now.milestonesReleased = inv.milestones.length →
      (milestoneOut id (runAll (payStep id) s calls) = milestoneOut id s + inv.total ↔
        ∀ delta ∈ milestoneDeltas 0 inv.milestones, (10000 : ℤ) ∣ inv.total * delta) := by
  refine ⟨?_, ?_⟩
  · intro env now token prev bps u w hnow hdelta hsurplus hrun
    have hout := (releaseMilestone_out (hterms.congr hnow) ((hcaps _ hdelta).congr hnow)
      (hterms.delta_le hdelta) hsurplus hrun).1
    rw [total_of_terms hnow] at hout
    exact hout
  · intro now hnow hall
    obtain ⟨now', hpaid⟩ := runAll_milestones hload hnone ⟨hterms, hcaps, hrecord⟩ calls
    have hsame := hpaid.load
    rw [hnow] at hsame
    cases hsame
    have hout := hpaid.conserved.out
    rw [hall, List.take_length] at hout
    rw [hout, ← trancheSum_eq_iff (validateMilestones_sum hterms.milestones hterms.valid)]
    constructor <;> intro h <;> linarith

/-- The sample invoice in two milestones. -/
def milestoneInvoice : Invoice := { sampleInvoice with milestones := [5000, 10000] }

/-- Two payments of one half. -/
def twoHalves : List PayCall :=
  [⟨sampleEnv 10 0, 20, 50, 0, false⟩, ⟨sampleEnv 11 0, 21, 50, 0, false⟩]

theorem two_halves_conserved :
    milestoneOut 1 (runAll (payStep 1) (sampleStore milestoneInvoice []) twoHalves) =
      milestoneOut 1 (sampleStore milestoneInvoice []) + 100 := by
  have hterms : MilestoneTerms milestoneInvoice := by
    refine ⟨by decide, by decide, by decide, by decide, by decide⟩
  have hcaps : ∀ delta ∈ milestoneDeltas 0 milestoneInvoice.milestones,
      CapsIdle milestoneInvoice delta := by
    intro delta _
    refine ⟨?_, ?_⟩
    · rintro i amount cap - - hcap
      cases hcap
    · rintro i cap - hcap
      cases hcap
  have hload : ((sampleStore milestoneInvoice []).entries 1).load = some milestoneInvoice := rfl
  have hrun := milestone_payouts_conserved hload rfl rfl hterms hcaps twoHalves
  exact (hrun.2 _ rfl (by decide +kernel)).2 (by decide)

/-- One milestone, and a cap of 10 for the first recipient. -/
def cappedInvoice : Invoice :=
  { sampleInvoice with milestones := [10000], recipientMaxPayouts := [some 10, none] }

/-- An invoice over one unit in two milestones. -/
def unitInvoice : Invoice :=
  { sampleInvoice with recipients := [10], amounts := [1], tokens := [9], milestones := [5000, 10000] }

/-- The milestone of 100 pays 140 and records 40 when the first recipient is capped; the milestones
of an invoice over one unit pay nothing. -/
theorem capped_milestone_pays_twice :
    (bpsPart cappedInvoice.total 10000 = 100 ∧
      spent 1 .payout (runAll (payStep 1) (sampleStore cappedInvoice [])
        [⟨sampleEnv 10 100, 20, 100, 0, false⟩]) = 140 ∧
      milestoneOut 1 (runAll (payStep 1) (sampleStore cappedInvoice [])
        [⟨sampleEnv 10 100, 20, 100, 0, false⟩]) = 180) ∧
    (((runAll (payStep 1) (sampleStore unitInvoice [])
        [⟨sampleEnv 10 0, 20, 1, 0, false⟩]).entries 1).invoice.map Invoice.milestonesReleased = some 2 ∧
      milestoneOut 1 (runAll (payStep 1) (sampleStore unitInvoice [])
        [⟨sampleEnv 10 0, 20, 1, 0, false⟩]) = 0) := by
  refine ⟨⟨?_, ?_, ?_⟩, ?_, ?_⟩ <;> decide +kernel

end StellarSplit.Split
