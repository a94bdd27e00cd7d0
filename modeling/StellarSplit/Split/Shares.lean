import StellarSplit.Split.Release

/-!
# Shares of the funded amount

What the rules of an invoice give each recipient of the funded amount, before
taxes and fees. Taxes and fees only take something off a share.
-/

namespace StellarSplit.Split

open Exec Function Machine

variable {env : Env} {inv : Invoice}

/-! ## Shares -/

/-- One recipient of the list of shares: the list so far and its sum. -/
def shareStep (inv : Invoice) (paidSet : List Address) (locked : Address → Bool) (effective : ℤ)
    (acc : List ℤ × ℤ) (ri : Address × ℕ) : Result (List ℤ × ℤ) := do
  let amount ← unwrap inv.amounts[ri.2]?
  if ri.1 ∈ paidSet then .ok (acc.1 ++ [0], acc.2)
  else
    let proportional ← proportionalShare inv effective (lastUnpaidIdx inv.recipients paidSet) ri.2
      amount acc.2
    if locked ri.1 then .ok (acc.1 ++ [0], acc.2)
    else .ok (acc.1 ++ [cappedShare inv ri.2 proportional],
      acc.2 + cappedShare inv ri.2 proportional)

/-- What the rules of the invoice give each recipient of the funded amount, before taxes and
fees: nothing for a locked recipient and for one who was paid individually. -/
def shareList (inv : Invoice) (paidSet : List Address) (locked : Address → Bool) :
    Result (List ℤ × ℤ) := do
  let effective ← effectiveTotal inv paidSet
  inv.recipients.zipIdx.foldlM (shareStep inv paidSet locked effective) ([], 0)

/-- The sum of a quantity over the places at which an address is a recipient. -/
def sumAt (recipients : List Address) (r : Address) (f : ℕ → ℤ) : ℤ :=
  (recipients.zipIdx.map fun ri => if ri.1 = r then f ri.2 else 0).sum

theorem sumAt_nonneg {recipients : List Address} {r : Address} {f : ℕ → ℤ} (h : ∀ i, 0 ≤ f i) :
    0 ≤ sumAt recipients r f := by
  apply List.sum_nonneg
  intro x hx
  obtain ⟨ri, -, rfl⟩ := List.mem_map.1 hx
  split_ifs
  · exact h ri.2
  · exact le_rfl

/-- The share of a recipient in the funded amount. -/
def recipientShare (e : Entry) (inv : Invoice) (r : Address) : ℤ :=
  if inv.tranches = [] then
    match shareList inv e.paidRecipients e.recipientLock with
    | .ok shares => sumAt inv.recipients r fun i => max (shares.1.getD i 0) 0
    | .error _ => 0
  else sumAt inv.recipients r fun i => inv.amounts.getD i 0 * inv.funded / inv.total

/-- The planning pass and the list of shares walk side by side. -/
theorem planStep_share {paidSet : List Address} {locked : Address → Bool} {effective fee : ℤ}
    {acc acc' : Plan} {ri : Address × ℕ}
    (h : planStep env inv paidSet locked effective fee acc ri = .ok acc') :
    shareStep inv paidSet locked effective (acc.payouts, acc.distributed) ri =
      .ok (acc'.payouts, acc'.distributed) := by
  unfold planStep at h
  unfold shareStep
  obtain ⟨amount, hamount, h⟩ := except_bind_ok.1 h
  refine except_bind_ok.2 ⟨amount, hamount, ?_⟩
  by_cases hpaid : ri.1 ∈ paidSet
  · rw [if_pos hpaid] at h ⊢
    obtain rfl := Except.ok.inj h
    rfl
  · rw [if_neg hpaid] at h ⊢
    obtain ⟨proportional, hprop, h⟩ := except_bind_ok.1 h
    refine except_bind_ok.2 ⟨proportional, hprop, ?_⟩
    by_cases hlocked : locked ri.1
    · simp only [if_pos hlocked] at h ⊢
      obtain rfl := Except.ok.inj h
      rfl
    · simp only [if_neg hlocked] at h ⊢
      obtain ⟨tax, -, h⟩ := except_bind_ok.1 h
      obtain ⟨fee, -, h⟩ := except_bind_ok.1 h
      obtain rfl := Except.ok.inj h
      rfl

theorem planFold_share {paidSet : List Address} {locked : Address → Bool} {effective fee : ℤ}
    {xs : List (Address × ℕ)} {acc acc' : Plan}
    (h : xs.foldlM (planStep env inv paidSet locked effective fee) acc = .ok acc') :
    xs.foldlM (shareStep inv paidSet locked effective) (acc.payouts, acc.distributed) =
      .ok (acc'.payouts, acc'.distributed) := by
  induction xs generalizing acc with
  | nil =>
      obtain rfl := Except.ok.inj h
      rfl
  | cons x xs ih =>
      rw [List.foldlM_cons] at h ⊢
      obtain ⟨mid, hfirst, hrest⟩ := except_bind_ok.1 h
      exact except_bind_ok.2 ⟨_, planStep_share hfirst, ih hrest⟩

/-- The planned payouts are the shares. -/
theorem planPayouts_share {paidSet : List Address} {locked : Address → Bool} {fee : ℤ} {plan : Plan}
    (h : planPayouts env inv paidSet locked fee = .ok plan) :
    shareList inv paidSet locked = .ok (plan.payouts, plan.distributed) := by
  obtain ⟨effective, heffective, h⟩ := except_bind_ok.1 h
  exact except_bind_ok.2 ⟨effective, heffective, planFold_share h⟩

/-! ## Fees take away -/

/-- The fee settings an administrator can make: no rate above 100%. -/
structure FeesValid (env : Env) : Prop where
  flat : env.config.platformFeeBps ≤ 10000
  brackets : ∀ bs ∈ env.config.feeBrackets, ∀ b ∈ bs, b.rateBps ≤ 10000

theorem checkedBpsOf_nonneg {amount r : ℤ} {bps : ℕ} (h : checkedBpsOf amount bps 10000 = .ok r) :
    0 ≤ r := by
  unfold checkedBpsOf at h
  split at h
  · rename_i q hq
    obtain rfl := Except.ok.inj h
    exact checkedMulDiv_nonneg hq (by norm_num)
  · cases h

theorem plainMulDiv_eq {a b d : ℕ} {r : ℤ} (h : plainMulDiv a b d = .ok r) :
    checkedMulDiv a b d = some r := by
  unfold plainMulDiv at h
  split at h
  · rename_i q hq
    rw [hq, Except.ok.inj h]
  · cases h

theorem plainMulDiv_nonneg {a b d : ℕ} {r : ℤ} (h : plainMulDiv a b d = .ok r) (hd : 2 ≤ d) : 0 ≤ r :=
  checkedMulDiv_nonneg (plainMulDiv_eq h) hd

/-- A rate of at most 100% takes at most the whole. -/
theorem plainMulDiv_rate_le {slice part : ℤ} {bps : ℕ} (hslice : 0 < slice) (hbps : bps ≤ 10000)
    (h : plainMulDiv (asU128 slice) bps 10000 = .ok part) : part ≤ slice := by
  obtain ⟨-, -, rfl⟩ := checkedMulDiv_eq (plainMulDiv_eq h)
  have hquot : asU128 slice * bps / 10000 ≤ asU128 slice := by
    apply Nat.div_le_of_le_mul
    rw [Nat.mul_comm]
    exact Nat.mul_le_mul_right _ hbps
  have hcast : (asU128 slice : ℤ) ≤ slice := asU128_le hslice.le
  have hword : asI128 (asU128 slice * bps / 10000) ≤ (asU128 slice * bps / 10000 : ℕ) := asI128_le _
  omega

/-- What the fee loop adds lies between nothing and what is left of the amount. -/
theorem feeLoop_bounds {bs : List FeeBracket} {remaining prevMax fee r : ℤ}
    (hrates : ∀ b ∈ bs, b.rateBps ≤ 10000) (h : feeLoop bs remaining prevMax fee = .ok r) :
    fee ≤ r ∧ r ≤ fee + max remaining 0 := by
  induction bs generalizing remaining prevMax fee with
  | nil =>
      obtain rfl := Except.ok.inj h
      exact ⟨le_rfl, by omega⟩
  | cons b bs ih =>
      have hrest : ∀ c ∈ bs, c.rateBps ≤ 10000 := fun c hc => hrates c (List.mem_cons_of_mem b hc)
      simp only [feeLoop] at h
      generalize hslice : (if satSubI128 b.maxAmount prevMax < remaining then
        satSubI128 b.maxAmount prevMax else remaining) = slice at h
      have hle : slice ≤ remaining := by
        rw [← hslice]
        split_ifs with hlt
        · exact hlt.le
        · exact le_rfl
      by_cases hpos : 0 < slice
      · rw [if_pos hpos] at h
        obtain ⟨part, hpart, h⟩ := except_bind_ok.1 h
        have hpart₀ : 0 ≤ part := plainMulDiv_nonneg hpart (by norm_num)
        have hpart₁ : part ≤ slice := plainMulDiv_rate_le hpos (hrates b (by simp)) hpart
        by_cases hdone : remaining - slice ≤ 0
        · rw [if_pos hdone] at h
          obtain rfl := Except.ok.inj h
          omega
        · rw [if_neg hdone] at h
          have := ih hrest h
          omega
      · rw [if_neg hpos] at h
        by_cases hdone : remaining ≤ 0
        · rw [if_pos hdone] at h
          obtain rfl := Except.ok.inj h
          omega
        · rw [if_neg hdone] at h
          exact ih hrest h

theorem computeFee_bounds {amount fee : ℤ} (hfees : FeesValid env)
    (h : computeFee env.config amount = .ok fee) : 0 ≤ fee ∧ fee ≤ max amount 0 := by
  unfold computeFee at h
  split_ifs at h with hamount
  · obtain rfl := Except.ok.inj h
    omega
  · have hrates : ∀ b ∈ env.config.feeBrackets.getD [⟨i128Max, env.config.platformFeeBps⟩],
        b.rateBps ≤ 10000 := by
      cases hbs : env.config.feeBrackets with
      | none => simpa using hfees.flat
      | some bs => exact hfees.brackets bs hbs
    have := feeLoop_bounds hrates h
    omega

theorem totalPlatformFee_bounds {actor : Address} {fee : ℤ} (hfees : FeesValid env)
    (hcredit : 0 ≤ inv.earlyBirdFeeCredit) (h : totalPlatformFee env inv actor = .ok fee) :
    0 ≤ fee ∧ fee ≤ max inv.funded 0 := by
  unfold totalPlatformFee at h
  split_ifs at h with hwaived
  · obtain rfl := Except.ok.inj h
    omega
  · obtain ⟨gross, hgross, h⟩ := except_bind_ok.1 h
    have := computeFee_bounds hfees hgross
    obtain rfl := Except.ok.inj h
    omega

/-- A proportional fee of at most the whole never adds to an amount. The quotient of a word by
one may wrap around, so the case of a divisor of one looks at the word itself. -/
theorem mulDiv_takes {x fee d q : ℤ} (hd : 0 < d) (hword : d ≤ i128Max) (hfee₀ : 0 ≤ fee)
    (hfee₁ : fee ≤ max d 0) (hx : x ≤ i128Max)
    (h : checkedMulDiv (asU128 x) (asU128 fee) (asU128 d) = some q) : x - q ≤ max x 0 := by
  have hdivisor : asU128 d = d.toNat := asU128_of_nonneg hd.le (by
    unfold i128Max at hword
    omega)
  by_cases hone : d = 1
  · obtain ⟨-, -, rfl⟩ := checkedMulDiv_eq h
    have hbit : fee = 0 ∨ fee = 1 := by omega
    subst hone
    rcases hbit with rfl | rfl
    · simp [asU128, asI128]
    · have hwrap : x - asI128 (asU128 x) ≤ max x 0 := by
        unfold asI128 asU128
        unfold i128Max at hx
        split <;> omega
      simpa [asU128] using hwrap
  · have hq : 0 ≤ q := checkedMulDiv_nonneg h (by omega)
    omega

theorem feeOnShare_le {waived : Bool} {funded platformFee postTax fee : ℤ} (hfunded : 0 ≤ funded)
    (hword : funded ≤ i128Max) (hfee₀ : 0 ≤ platformFee) (hfee₁ : platformFee ≤ max funded 0)
    (hpost : postTax ≤ i128Max) (h : feeOnShare waived funded platformFee postTax = .ok fee) :
    postTax - fee ≤ max postTax 0 := by
  unfold feeOnShare at h
  split_ifs at h with hwaived
  · obtain rfl := Except.ok.inj h
    omega
  have hpos : funded ≠ 0 := fun h0 => hwaived (.inr h0)
  unfold checkedProportion at h
  split at h
  · rename_i q hq
    obtain rfl := Except.ok.inj h
    exact mulDiv_takes (by omega) hword hfee₀ hfee₁ hpost hq
  · cases h

/-- Taxes and fees never add to a share. -/
theorem netPayout_le {platformFee proportional : ℤ} {recipient : Address} {net : ℤ × ℤ}
    (hfunded : 0 ≤ inv.funded) (hword : inv.funded ≤ i128Max) (hfee₀ : 0 ≤ platformFee)
    (hfee₁ : platformFee ≤ max inv.funded 0) (hshare : proportional ≤ i128Max)
    (h : netPayout env inv platformFee recipient proportional = .ok net) :
    net.1 ≤ max proportional 0 := by
  obtain ⟨tax, htax, h⟩ := except_bind_ok.1 h
  obtain ⟨fee, hfee, h⟩ := except_bind_ok.1 h
  obtain ⟨creatorFee, hcreator, h⟩ := except_bind_ok.1 h
  obtain rfl := Except.ok.inj h
  have htax₀ : 0 ≤ tax := checkedBpsOf_nonneg htax
  have hcreator₀ : 0 ≤ creatorFee := checkedBpsOf_nonneg hcreator
  have hnet : proportional - tax - fee ≤ max (proportional - tax) 0 :=
    feeOnShare_le hfunded hword hfee₀ hfee₁ (by omega) hfee
  change proportional - tax - fee - creatorFee ≤ max proportional 0
  omega

end StellarSplit.Split
