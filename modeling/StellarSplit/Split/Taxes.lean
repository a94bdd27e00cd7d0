import StellarSplit.Split.Accounts
import StellarSplit.Split.Payout

/-!
# How often a release pays the tax

The tax is withheld from each recipient's share and goes to the authority of the
invoice. A release into a treasury sends the sum once. One to the recipients sends the
whole sum with every payout, and one of tranches sends it twice.
-/

namespace StellarSplit.Split.Taxes

open Exec Function Machine Accounts

variable {env : Env} {s t u : Store} {v : Unit} {id : ℕ} {inv : Invoice} {authority : Address}
  {paidSet : List Address} {platformFee : ℤ} {plan : Plan}

/-! ## The movements to the authority -/

/-- The taxes of an invoice that have gone to an address. -/
def taxSent (id : ℕ) (authority : Address) (s : Store) : ℤ :=
  tally (fun m => m.memo = ⟨id, .tax⟩ ∧ m.dst = authority) s.log

/-- Only movements that are no tax of the invoice. -/
abbrev NoTax (id : ℕ) : Store → Store → Prop := Grows fun memo => memo ≠ ⟨id, .tax⟩

theorem NoTax.sent (h : NoTax id s t) : taxSent id authority t = taxSent id authority s :=
  h.tally fun m hm => by simp [hm]

theorem moves_noTax {p : Purpose} (h : p ≠ .tax) : Moves (NoTax id) ⟨id, p⟩ :=
  moves_grows (by simpa using h)

instance : Moves (NoTax id) ⟨id, .payout⟩ := moves_noTax (by simp)

instance : Moves (NoTax id) ⟨id, .stream⟩ := moves_noTax (by simp)

instance : Moves (NoTax id) ⟨id, .platformFee⟩ := moves_noTax (by simp)

instance : Moves (NoTax id) ⟨id, .creatorFee⟩ := moves_noTax (by simp)

instance : Moves (NoTax id) ⟨id, .protocolFee⟩ := moves_noTax (by simp)

instance : Moves (NoTax id) ⟨id, .treasuryNet⟩ := moves_noTax (by simp)

instance : Moves (NoTax id) ⟨id, .bonus⟩ := moves_noTax (by simp)

instance : Moves (NoTax id) ⟨id, .insurance⟩ := moves_noTax (by simp)

theorem transferIfSet_taxSent {token : Address} {amount : ℤ}
    (hrun : transferIfSet env token (some authority) amount ⟨id, .tax⟩ s = .ok (v, t)) :
    taxSent id authority t = taxSent id authority s + amount := by
  obtain ⟨-, rfl⟩ := transfer_ok.1 hrun
  simp [taxSent, tally_cons, add_comm]

/-! ## A release to the recipients -/

section Turns

variable {e : Entry} {acc acc' : Pass} {ps : List (Address × ℤ)}

/-- One turn of the transfer pass sends the whole tax when it reaches the recipient. -/
theorem turn_taxSent {p : Address × ℤ} (hauth : inv.taxAuthority = some authority)
    (h : Turn env id e inv platformFee plan p acc s acc' t) :
    taxSent id authority t = taxSent id authority s + if Reached env e inv p.1 then plan.totalTax else 0 := by
  cases h with
  | skipped hnot => rw [if_neg hnot, add_zero]
  | missing hnot hmark =>
      have hsame : NoTax id s t := framed_markMissing.respects s _ t hmark
      rw [if_neg hnot, add_zero, hsame.sent]
  | @paid k success u₁ u₂ _ hreached _ hdeliver hrecord htax =>
      have h₁ : NoTax id s u₁ := framed_deliverPayout.respects s _ u₁ hdeliver
      have hframe : Framed (NoTax id)
          (onlyIf (success = false) (recordFailure env id p.1 (cutOf env inv platformFee p).1)) := inferInstance
      have h₂ : NoTax id u₁ u₂ := hframe.respects u₁ _ u₂ hrecord
      rw [hauth] at htax
      rw [transferIfSet_taxSent htax, h₂.sent, h₁.sent, if_pos hreached]

/-- The turns send the whole tax once for every recipient they reach. -/
theorem turns_taxSent (hauth : inv.taxAuthority = some authority)
    (h : Turns env id e inv platformFee plan ps acc s acc' t) :
    taxSent id authority t = taxSent id authority s +
      (ps.filter fun p => Reached env e inv p.1).length * plan.totalTax := by
  induction h with
  | nil => simp
  | @cons p ps _ _ _ _ _ _ hfirst _ ih =>
      rw [ih, turn_taxSent hauth hfirst]
      by_cases hreached : Reached env e inv p.1
      · rw [List.filter_cons_of_pos (by simpa using hreached), if_pos hreached, List.length_cons]
        push_cast
        ring
      · rw [List.filter_cons_of_neg (by simpa using hreached), if_neg hreached, add_zero]

end Turns

/-! ## When copies of a sum make up a part of it -/

section Copies

variable {α : Type*} {f : α → ℤ} {p : α → Prop} [DecidablePred p] {xs : List α}

theorem sum_map_eq_zero_iff (hf : ∀ x ∈ xs, 0 ≤ f x) : (xs.map f).sum = 0 ↔ ∀ x ∈ xs, f x = 0 := by
  constructor
  · intro h x hx
    have hall : ∀ y ∈ xs.map f, 0 ≤ y := List.forall_mem_map.2 hf
    exact List.all_zero_of_le_zero_le_of_sum_eq_zero hall h (List.mem_map_of_mem hx)
  · intro h
    exact List.sum_eq_zero (List.forall_mem_map.2 h)

/-- A whole sum taken once for each selected element is the sum over those elements exactly when
all is nothing, nobody is selected, or a single element is that has it all. -/
theorem copies_eq_iff (hf : ∀ x ∈ xs, 0 ≤ f x) :
    ((xs.filter p).length : ℤ) * (xs.map f).sum = ((xs.filter p).map f).sum ↔
      (∀ x ∈ xs, f x = 0) ∨ (∀ x ∈ xs, ¬p x) ∨ ∃ a, xs.filter p = [a] ∧ ∀ x ∈ xs, ¬p x → f x = 0 := by
  have hsplit := sum_filter_add_rest f p xs
  have hchosen : 0 ≤ ((xs.filter p).map f).sum :=
    List.sum_nonneg (List.forall_mem_map.2 fun x hx => hf x (List.mem_of_mem_filter hx))
  have hothers : ∀ x ∈ xs.filter (fun x => !p x), 0 ≤ f x := fun x hx => hf x (List.mem_of_mem_filter hx)
  have hrest : 0 ≤ ((xs.filter fun x => !p x).map f).sum := List.sum_nonneg (List.forall_mem_map.2 hothers)
  have hleft : ((xs.filter fun x => !p x).map f).sum = 0 ↔ ∀ x ∈ xs, ¬p x → f x = 0 := by
    rw [sum_map_eq_zero_iff hothers]
    simp [List.mem_filter]
  constructor
  · intro h
    rcases hchosen' : xs.filter p with _ | ⟨a, _ | ⟨b, more⟩⟩
    · refine .inr (.inl fun x hx hpx => ?_)
      have hin : x ∈ xs.filter p := List.mem_filter.2 ⟨hx, by simpa using hpx⟩
      rw [hchosen'] at hin
      exact absurd hin List.not_mem_nil
    · refine .inr (.inr ⟨a, hchosen', hleft.1 ?_⟩)
      have hone : ((xs.filter p).length : ℤ) = 1 := by rw [hchosen']; rfl
      rw [hone, one_mul] at h
      linarith
    · refine .inl ((sum_map_eq_zero_iff hf).1 ?_)
      have htwo : 2 ≤ ((xs.filter p).length : ℤ) := by
        rw [hchosen', List.length_cons, List.length_cons]
        push_cast
        omega
      have hall : 0 ≤ (xs.map f).sum := by linarith
      have hmul := mul_le_mul_of_nonneg_right htwo hall
      linarith
  · rintro (hnone | hno | ⟨a, ha, hzero⟩)
    · rw [(sum_map_eq_zero_iff hf).2 hnone, mul_zero,
        (sum_map_eq_zero_iff fun x hx => hf x (List.mem_of_mem_filter hx)).2 fun x hx =>
          hnone x (List.mem_of_mem_filter hx)]
    · have hnil : xs.filter p = [] := List.filter_eq_nil_iff.2 fun x hx => by simpa using hno x hx
      rw [hnil]
      simp
    · have hone : ((xs.filter p).length : ℤ) = 1 := by rw [ha]; rfl
      rw [hone, one_mul]
      linarith [hleft.2 hzero]

end Copies

/-- The tax on a share is less than a unit. -/
def Untaxed (inv : Invoice) (share : ℤ) : Prop := asU128 share * inv.taxBps < 10000

instance (inv : Invoice) (share : ℤ) : Decidable (Untaxed inv share) := inferInstanceAs (Decidable (_ < _))

theorem taxOf_eq_zero_iff {share : ℤ} (h : asU128 share * inv.taxBps ≤ u128Max) :
    taxOf inv share = 0 ↔ Untaxed inv share := by
  rw [taxOf_eq h, Untaxed]
  omega

/-! ## What the passes send to the authority -/

variable (authority) in
/-- The passes around the payouts of a full release send no tax. -/
theorem payPasses_taxSent {e : Entry} {failed : Bool}
    (hrun : payPasses env id inv e platformFee plan s = .ok (failed, u)) :
    ∃ u₁ u₂ passFailed, (u₁.entries id).recipientLock = (s.entries id).recipientLock ∧
      payPlan env id inv e platformFee plan u₁ = .ok (passFailed, u₂) ∧
      taxSent id authority u₁ = taxSent id authority s ∧ taxSent id authority u = taxSent id authority u₂ := by
  obtain ⟨u₁, u₂, u₃, hpark, hprotocol, hpay, hbonus⟩ := payPasses_ok.1 hrun
  have h₁ : NoTax id s u₁ := framed_parkShares.respects s _ u₁ hpark
  have h₂ : NoTax id u₁ u₂ := framed_payProtocolFee.respects u₁ _ u₂ hprotocol
  have h₃ : NoTax id u₃ u := framed_payBonus.respects u₃ _ u hbonus
  have hlock₁ : Keeps Entry.recipientLock s u₁ := framed_parkShares.respects s _ u₁ hpark
  have hlock₂ : Keeps Entry.recipientLock u₁ u₂ := framed_payProtocolFee.respects u₁ _ u₂ hprotocol
  exact ⟨u₂, u₃, failed, (hlock₂ id).trans (hlock₁ id), hpay, h₂.sent.trans h₁.sent, h₃.sent⟩

/-- The recipients' branch sends the whole tax once for every recipient it reaches. -/
theorem payRecipients_taxSent {e : Entry} {failed : Bool} (hauth : inv.taxAuthority = some authority)
    (hlock : (s.entries id).recipientLock = e.recipientLock) (hadds : Adds env e inv platformFee plan)
    (hrun : payRecipients env id inv e.paidRecipients platformFee plan s = .ok (failed, t)) :
    (∀ p ∈ sharesOf e inv, Reached env e inv p.1 →
        netPayout env inv platformFee p.1 p.2 = .ok (cutOf env inv platformFee p)) ∧
      taxSent id authority t = taxSent id authority s +
        ((sharesOf e inv).filter fun p => Reached env e inv p.1).length * plan.totalTax := by
  obtain ⟨pass, u₁, u₂, hturns, hplatform, hcreator⟩ := payRecipients_turns hlock hadds hrun
  have h₁ : NoTax id u₁ u₂ := framed_payPlatformFee.respects u₁ _ u₂ hplatform
  have h₂ : NoTax id u₂ t := framed_transferPositive.respects u₂ _ t hcreator
  refine ⟨hturns.cuts, ?_⟩
  rw [h₂.sent, h₁.sent, turns_taxSent hauth hturns]

theorem payTreasury_taxSent {e : Entry} {treasury : Address} (hauth : inv.taxAuthority = some authority)
    (hadds : Adds env e inv platformFee plan) (hrun : payTreasury env id inv plan treasury s = .ok (v, t)) :
    taxSent id authority t = taxSent id authority s + plan.totalTax := by
  obtain ⟨_, u₁, htax, hrun⟩ := bind_ok.1 hrun
  obtain ⟨_, u₂, hplatform, hnet⟩ := bind_ok.1 hrun
  have h₁ : NoTax id u₁ u₂ := framed_payPlatformFee.respects u₁ _ u₂ hplatform
  have h₂ : NoTax id u₂ t := framed_transferPositive.respects u₂ _ t hnet
  rw [h₂.sent, h₁.sent]
  rcases onlyIf_ok.1 htax with ⟨-, htax⟩ | ⟨hzero, rfl⟩
  · rw [hauth] at htax
    exact transferIfSet_taxSent htax
  · rw [le_antisymm (not_lt.1 hzero) hadds.totalTax_nonneg, add_zero]

/-! ## Tranches -/

theorem payTranche_tax {k : ℕ} {trancheFee : ℤ} {acc acc' : TranchePass} {r : Address}
    (hfee : trancheFeeOf env inv (unlockedPart env inv) = .ok trancheFee)
    (hrun : payTranche env id inv (newlyUnlocked env inv) (unlockedPart env inv) trancheFee acc (r, k) s =
      .ok (acc', t)) :
    acc'.tax = acc.tax + taxOf inv (rawShare env inv k) ∧
      asU128 (rawShare env inv k) * inv.taxBps ≤ u128Max ∧
      (0 < rawShare env inv k → trancheNet env inv r (rawShare env inv k) (unlockedPart env inv) trancheFee =
        .ok (trancheCut env inv (r, rawShare env inv k))) := by
  simp only [payTranche, ofResult_bind] at hrun
  obtain ⟨amount, hamount, raw, hraw, hrun⟩ := hrun
  have hget : inv.amounts.getD k 0 = amount := by
    rw [List.getD_eq_getElem?_getD, unwrap_ok.1 hamount, Option.getD_some]
  have hshare : rawShare env inv k = max raw 0 := by rw [rawShare, hget, hraw]
  rw [hshare]
  split_ifs at hrun with hpos
  · obtain ⟨net, hnet, hrun⟩ := ofResult_bind.1 hrun
    obtain ⟨_, u₁, -, hrun⟩ := bind_ok.1 hrun
    obtain ⟨_, u₂, -, hrun⟩ := bind_ok.1 hrun
    obtain ⟨rfl, rfl⟩ := pure_ok.1 hrun
    rw [max_eq_left hpos.le, hnet]
    obtain ⟨fee, hprice, hnet⟩ := except_bind_ok.1 hnet
    obtain ⟨tax, htax, hnet⟩ := except_bind_ok.1 hnet
    obtain rfl := Except.ok.inj hnet
    obtain ⟨-, hfits, htax⟩ := checkedMulDiv_eq (plainMulDiv_eq htax)
    have htax : tax = taxOf inv raw := htax
    have hprice : fee = trancheFeeOfShare env inv (r, raw) := by
      have hbind : (Except.ok trancheFee >>= trancheFeeOn env r raw (unlockedPart env inv)) = .ok fee := hprice
      rw [trancheFeeOfShare, if_pos hpos, hfee, hbind]
    exact ⟨by rw [htax], hfits, fun _ => by rw [trancheCut, htax, hprice]⟩
  · obtain ⟨rfl, rfl⟩ := pure_ok.1 hrun
    rw [max_eq_right (not_lt.1 hpos)]
    exact ⟨by simp, by simp [asU128], fun h => absurd h (lt_irrefl 0)⟩

theorem payTranches_tax {k : ℕ} {trancheFee : ℤ} {acc acc' : TranchePass} {rs : List Address}
    (hfee : trancheFeeOf env inv (unlockedPart env inv) = .ok trancheFee)
    (hrun : (rs.zipIdx k).foldlM (payTranche env id inv (newlyUnlocked env inv) (unlockedPart env inv) trancheFee)
      acc s = .ok (acc', t)) :
    acc'.tax = acc.tax + ((rs.zipIdx k).map fun ri => taxOf inv (rawShare env inv ri.2)).sum ∧
      ∀ ri ∈ rs.zipIdx k, asU128 (rawShare env inv ri.2) * inv.taxBps ≤ u128Max ∧
        (0 < rawShare env inv ri.2 →
          trancheNet env inv ri.1 (rawShare env inv ri.2) (unlockedPart env inv) trancheFee =
            .ok (trancheCut env inv (ri.1, rawShare env inv ri.2))) := by
  induction rs generalizing s k acc with
  | nil =>
      obtain ⟨rfl, rfl⟩ := pure_ok.1 hrun
      exact ⟨by simp, fun ri h => absurd h List.not_mem_nil⟩
  | cons r rs ih =>
      rw [List.zipIdx_cons, List.foldlM_cons] at hrun
      obtain ⟨mid, u, hfirst, hrest⟩ := bind_ok.1 hrun
      obtain ⟨hmid, hone⟩ := payTranche_tax hfee hfirst
      obtain ⟨hacc, hall⟩ := ih hrest
      rw [List.zipIdx_cons]
      refine ⟨?_, List.forall_mem_cons.2 ⟨hone, hall⟩⟩
      rw [hacc, hmid, List.map_cons, List.sum_cons, add_assoc]

/-- The fees of a release of tranches send the tax twice. -/
theorem payTrancheFees_taxSent {pass : TranchePass} (hauth : inv.taxAuthority = some authority)
    (htax : 0 ≤ pass.tax) (hrun : payTrancheFees env id inv pass s = .ok (v, t)) :
    taxSent id authority t = taxSent id authority s + 2 * pass.tax := by
  obtain ⟨_, u₁, hfirst, hrun⟩ := bind_ok.1 hrun
  obtain ⟨_, u₂, hplatform, hsecond⟩ := bind_ok.1 hrun
  have h₁ : NoTax id u₁ u₂ := framed_payPlatformFee.respects u₁ _ u₂ hplatform
  have hfirst : taxSent id authority u₁ = taxSent id authority s + pass.tax := by
    rcases onlyIf_ok.1 hfirst with ⟨-, hfirst⟩ | ⟨hzero, rfl⟩
    · rw [hauth] at hfirst
      exact transferIfSet_taxSent hfirst
    · rw [le_antisymm (not_lt.1 hzero) htax, add_zero]
  have hsecond : taxSent id authority t = taxSent id authority u₂ + pass.tax := by
    rcases onlyIf_ok.1 hsecond with ⟨-, hsecond⟩ | ⟨hzero, rfl⟩
    · obtain ⟨dst, hdst, hsecond⟩ := ofResult_bind.1 hsecond
      obtain rfl : authority = dst := Option.some.inj (hauth.symm.trans (unwrap_ok.1 hdst))
      exact transferIfSet_taxSent hsecond
    · rw [le_antisymm (not_lt.1 hzero) htax, add_zero]
  rw [hsecond, h₁.sent, hfirst]
  ring

theorem releaseTranches_taxSent (hauth : inv.taxAuthority = some authority)
    (hrun : releaseTranches env id inv s = .ok (v, t)) :
    ∃ trancheFee, trancheFeeOf env inv (unlockedPart env inv) = .ok trancheFee ∧
      taxSent id authority t = taxSent id authority s +
        2 * ((trancheShares env inv).map fun p => taxOf inv p.2).sum ∧
      ∀ p ∈ trancheShares env inv, asU128 p.2 * inv.taxBps ≤ u128Max ∧
        (0 < p.2 → trancheNet env inv p.1 p.2 (unlockedPart env inv) trancheFee = .ok (trancheCut env inv p)) := by
  simp only [releaseTranches, bind_ok] at hrun
  obtain ⟨_, u₀, hnew, fee, u₁, hfee, pass, u₂, hloop, _, u₃, hfees, _, u₄, hrebate, _, u₅, hcount, hfinish⟩ := hrun
  obtain ⟨-, rfl⟩ := require_ok.1 hnew
  obtain ⟨hprice, rfl⟩ := ofResult_ok.1 hfee
  obtain ⟨htax, hcuts⟩ := payTranches_tax hprice hloop
  have hsum : pass.tax = ((trancheShares env inv).map fun p => taxOf inv p.2).sum := by
    rw [htax, trancheShares, List.map_map, zero_add]
    rfl
  have hcuts : ∀ p ∈ trancheShares env inv, asU128 p.2 * inv.taxBps ≤ u128Max ∧ (0 < p.2 →
      trancheNet env inv p.1 p.2 (unlockedPart env inv) fee = .ok (trancheCut env inv p)) :=
    List.forall_mem_map.2 hcuts
  have hnonneg : 0 ≤ pass.tax := by
    rw [hsum]
    exact List.sum_nonneg (List.forall_mem_map.2 fun p hp => taxOf_nonneg (hcuts p hp).1)
  have hframe : Framed (NoTax id) (inv.recipients.zipIdx.foldlM (payTranche env id inv (newlyUnlocked env inv)
      (tranchePart inv.funded (newlyUnlocked env inv)) fee) {}) := inferInstance
  have h₁ : NoTax id s u₂ := hframe.respects s _ u₂ hloop
  have h₃ : NoTax id u₃ u₄ := framed_accrueCreatorRebate.respects u₃ _ u₄ hrebate
  have h₄ : NoTax id u₄ u₅ := framed_countTranche.respects u₄ _ u₅ hcount
  have h₅ : NoTax id u₅ t := framed_finishTranches.respects u₅ _ t hfinish
  refine ⟨fee, hprice, ?_, hcuts⟩
  rw [h₅.sent, h₄.sent, h₃.sent, payTrancheFees_taxSent hauth hnonneg hfees, h₁.sent, hsum]

/-! ## Once -/

/-- What keeps the tax of a release single: it goes to a treasury, nobody is reached, no share is
taxed, or the one recipient who is reached has the only taxed share. Tranches have to be untaxed. -/
def TaxedOnce (env : Env) (e : Entry) (inv : Invoice) : Prop :=
  if inv.tranches = [] then
    e.treasury.isSome = true ∨ (∀ p ∈ sharesOf e inv, Untaxed inv p.2) ∨
      (∀ p ∈ sharesOf e inv, ¬Reached env e inv p.1) ∨
      ∃ p, (sharesOf e inv).filter (fun q => Reached env e inv q.1) = [p] ∧
        ∀ q ∈ sharesOf e inv, ¬Reached env e inv q.1 → Untaxed inv q.2
  else ∀ p ∈ trancheShares env inv, Untaxed inv p.2

/-- The tax that goes out with every payout is the tax withheld exactly when it goes out once. -/
theorem recipients_exact_iff {e : Entry} (hadds : Adds env e inv platformFee plan)
    (hsent : taxSent id authority u = taxSent id authority s +
      ((sharesOf e inv).filter fun p => Reached env e inv p.1).length * plan.totalTax) :
    taxSent id authority u - taxSent id authority s = (recipientsAccount env e inv platformFee).withheld ↔
      (∀ p ∈ sharesOf e inv, Untaxed inv p.2) ∨ (∀ p ∈ sharesOf e inv, ¬Reached env e inv p.1) ∨
        ∃ p, (sharesOf e inv).filter (fun q => Reached env e inv q.1) = [p] ∧
          ∀ q ∈ sharesOf e inv, ¬Reached env e inv q.1 → Untaxed inv q.2 := by
  have hzero : ∀ p ∈ sharesOf e inv, (taxOf inv p.2 = 0 ↔ Untaxed inv p.2) := fun p hp =>
    taxOf_eq_zero_iff (hadds.fits p hp)
  have hcopies := copies_eq_iff (p := fun p : Address × ℤ => Reached env e inv p.1) hadds.tax_nonneg
  rw [hsent, add_sub_cancel_left, hadds.tax, recipientsAccount, hcopies]
  refine or_congr (forall₂_congr hzero) (or_congr_right (exists_congr fun p => and_congr_right fun _ => ?_))
  exact forall₂_congr fun q hq => imp_congr_right fun _ => hzero q hq

theorem tranches_exact_iff (hfits : ∀ p ∈ trancheShares env inv, asU128 p.2 * inv.taxBps ≤ u128Max)
    (hsent : taxSent id authority t = taxSent id authority s +
      2 * ((trancheShares env inv).map fun p => taxOf inv p.2).sum) :
    taxSent id authority t - taxSent id authority s = (trancheAccount env inv).withheld ↔
      ∀ p ∈ trancheShares env inv, Untaxed inv p.2 := by
  have hnonneg : ∀ p ∈ trancheShares env inv, 0 ≤ taxOf inv p.2 := fun p hp => taxOf_nonneg (hfits p hp)
  calc taxSent id authority t - taxSent id authority s = (trancheAccount env inv).withheld
      ↔ ((trancheShares env inv).map fun p => taxOf inv p.2).sum = 0 := by
        rw [hsent, trancheAccount]
        simp only [trancheCut]
        constructor <;> intro h <;> linarith
    _ ↔ ∀ p ∈ trancheShares env inv, taxOf inv p.2 = 0 := sum_map_eq_zero_iff hnonneg
    _ ↔ ∀ p ∈ trancheShares env inv, Untaxed inv p.2 :=
        forall₂_congr fun p hp => taxOf_eq_zero_iff (hfits p hp)

/-- The payouts of a full release send the tax withheld exactly when they send it once. -/
theorem fullRelease_exact_iff {actor : Address} {failed : Bool} (hauth : inv.taxAuthority = some authority)
    (hempty : inv.tranches = []) (hfee : totalPlatformFee env inv actor = .ok platformFee)
    (hplan : planPayouts env inv (s.entries id).paidRecipients (s.entries id).recipientLock platformFee = .ok plan)
    (hpasses : payPasses env id inv (s.entries id) platformFee plan s = .ok (failed, u)) :
    ∃ a, ReleasePays env id inv actor s u a ∧
      (taxSent id authority u - taxSent id authority s = a.withheld ↔ TaxedOnce env (s.entries id) inv) ∧
      (Sound env (s.entries id) inv → a.net + a.fees + a.withheld ≤ a.gross) := by
  have hadds := planPayouts_adds hplan
  obtain ⟨u₁, u₂, passFailed, hlock, hpay, hbefore, hafter⟩ := payPasses_taxSent authority hpasses
  unfold payPlan at hpay
  rw [TaxedOnce, if_pos hempty]
  cases htreasury : (s.entries id).treasury with
  | none =>
      simp only [htreasury] at hpay
      obtain ⟨hcut, hsent⟩ := payRecipients_taxSent hauth hlock hadds hpay
      rw [← hafter, hbefore] at hsent
      refine ⟨_, .recipients hempty htreasury hfee hplan hpasses hcut, ?_, fun hsound => ?_⟩
      · rw [recipients_exact_iff hadds hsent]
        exact (or_iff_right (by simp)).symm
      · exact recipientsAccount_bounded hsound hadds (totalPlatformFee_bounds hsound.fees hsound.credit hfee)
  | some treasury =>
      simp only [htreasury] at hpay
      obtain ⟨_, u₃, hsend, hreturn⟩ := bind_ok.1 hpay
      obtain ⟨-, rfl⟩ := pure_ok.1 hreturn
      have hsent := payTreasury_taxSent hauth hadds hsend
      rw [← hafter, hbefore, hadds.tax] at hsent
      refine ⟨_, .treasury hempty htreasury hfee hplan hpasses, ?_, fun _ => le_of_eq ?_⟩
      · rw [hsent, add_sub_cancel_left]
        exact iff_of_true rfl (.inl rfl)
      · have hparts : ((sharesOf (s.entries id) inv).map (afterFee env inv platformFee)).sum + _ + _ = _ :=
          sum_parts _ (fun p => taxOf inv p.2) fun p => feeOf env inv platformFee p.1 p.2
        simp only [treasuryAccount]
        linarith

/-- A release sends the authority the tax it withholds exactly when the tax goes out once; then no
more goes out than is shared. The passes after the payouts send no tax of the invoice, as long as no
chain of forwards leads back to it. -/
theorem tax_once_iff {depth : ℕ} {actor : Address} (hauth : inv.taxAuthority = some authority)
    (hrun : releaseWithin env depth id inv actor s = .ok (v, t)) :
    ∃ u a, ReleasePays env id inv actor s u a ∧ (inv.tranches ≠ [] → u = t) ∧
      (id ∉ forwardReach s id → ForwardsInto (forwardReach s id) inv →
        taxSent id authority t = taxSent id authority u) ∧
      (taxSent id authority u - taxSent id authority s = a.withheld ↔ TaxedOnce env (s.entries id) inv) ∧
      (Sound env (s.entries id) inv → TaxedOnce env (s.entries id) inv →
        a.net + a.fees + (taxSent id authority u - taxSent id authority s) ≤ a.gross) := by
  rcases releaseWithin_ok hrun with ⟨hempty, next, hfull⟩ | ⟨hsome, htranches⟩
  · obtain ⟨platformFee, plan, failed, u, u₂, u₃, u₄, hfee, hplan, hpasses, hgroup, hinsurance, hforward,
      hfinish⟩ := releaseFull_passes hfull
    obtain ⟨a, hpays, hexact, hbounded⟩ := fullRelease_exact_iff hauth hempty hfee hplan hpasses
    refine ⟨u, a, hpays, fun h => absurd hempty h, fun hacyclic hinto => ?_, hexact, fun hsound honce => ?_⟩
    · have hcovers : Covers (others id) fun m => m ≠ ⟨id, .tax⟩ := ⟨fun _ hm _ h => hm (congrArg Memo.invoice h)⟩
      have hquiet : NoTax id u t := lastPasses_grows (by simp) (by simp) hacyclic hinto hpasses hgroup hinsurance
        hforward hfinish
      exact hquiet.sent
    · rw [hexact.2 honce]
      exact hbounded hsound
  · obtain ⟨trancheFee, hfee, hsent, hcuts⟩ := releaseTranches_taxSent hauth htranches
    have hexact := tranches_exact_iff (fun p hp => (hcuts p hp).1) hsent
    refine ⟨t, _, .tranches hsome hfee htranches fun p hp => (hcuts p hp).2, fun _ => rfl, fun _ _ => rfl, ?_,
      fun _ honce => le_of_eq ?_⟩
    · rw [TaxedOnce, if_neg hsome, hexact]
    · rw [TaxedOnce, if_neg hsome] at honce
      rw [hexact.2 honce]
      have hparts := sum_parts (trancheShares env inv) (trancheFeeOfShare env inv) fun p => taxOf inv p.2
      simp only [trancheAccount, trancheCut]
      linarith

/-- An invoice taxed at a tenth, funded in full. -/
def taxedInvoice (recipients : List Address) (amounts : List ℤ) : Invoice :=
  { sampleInvoice with
    recipients := recipients
    amounts := amounts
    tokens := recipients.map fun _ => 9
    funded := 100
    taxBps := 1000
    taxAuthority := some 30 }

/-- The only recipient has 90, the authority 10. -/
theorem tax_once_sample :
    ∃ u a, ReleasePays (sampleEnv 20 200) 1 (taxedInvoice [10] [100]) 2 (sampleStore (taxedInvoice [10] [100]) []) u a ∧
      taxSent 1 30 u = a.withheld ∧ a.net + a.fees + taxSent 1 30 u ≤ a.gross := by
  have hauth : (taxedInvoice [10] [100]).taxAuthority = some 30 := rfl
  obtain ⟨u, a, hpays, -, -, hexact, hbounded⟩ := tax_once_iff (v := ()) hauth
    (ok_commit (x := releaseWithin (sampleEnv 20 200) 1 1 (taxedInvoice [10] [100]) 2)
      (s := sampleStore (taxedInvoice [10] [100]) []) (a := ()) (by decide +kernel))
  have honce : TaxedOnce (sampleEnv 20 200) ((sampleStore (taxedInvoice [10] [100]) []).entries 1)
      (taxedInvoice [10] [100]) := by
    have hempty : (taxedInvoice [10] [100]).tranches = [] := rfl
    rw [TaxedOnce, if_pos hempty]
    exact .inr (.inr (.inr ⟨(10, 100), by decide +kernel⟩))
  have hsound : Sound (sampleEnv 20 200) ((sampleStore (taxedInvoice [10] [100]) []).entries 1)
      (taxedInvoice [10] [100]) := by
    refine ⟨⟨by decide, ?_⟩, by decide, by decide, by decide, by decide, by decide +kernel⟩
    rintro bs ⟨⟩
  have hbounded := hbounded hsound honce
  have hexact := hexact.2 honce
  rw [show taxSent 1 30 (sampleStore (taxedInvoice [10] [100]) []) = 0 from rfl, sub_zero] at hbounded hexact
  exact ⟨u, a, hpays, hexact, hbounded⟩

/-- Each of two recipients has 45; the tax of 10 goes to the authority with both payouts. -/
theorem tax_sent_twice :
    ∃ t, releaseWithin (sampleEnv 20 200) 1 1 (taxedInvoice [10, 11] [50, 50]) 2
        (sampleStore (taxedInvoice [10, 11] [50, 50]) []) = .ok ((), t) ∧
      t.log.map (fun m => (m.dst, m.amount)) = [(30, 10), (11, 45), (30, 10), (10, 45)] ∧
      taxSent 1 30 t = 20 ∧
      (recipientsAccount (sampleEnv 20 200) ((sampleStore (taxedInvoice [10, 11] [50, 50]) []).entries 1)
        (taxedInvoice [10, 11] [50, 50]) 0).withheld = 10 := by
  refine ⟨_, ok_commit (x := releaseWithin (sampleEnv 20 200) 1 1 (taxedInvoice [10, 11] [50, 50]) 2)
    (s := sampleStore (taxedInvoice [10, 11] [50, 50]) []) (a := ()) (by decide +kernel), ?_, ?_, ?_⟩
  · decide +kernel
  · decide +kernel
  · decide +kernel

end StellarSplit.Split.Taxes
