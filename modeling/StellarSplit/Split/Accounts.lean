import StellarSplit.Split.PlainRelease
import StellarSplit.Split.Planning

/-!
# What a release pays out

The tax, the platform fee and the creator's fee on a share are read here from the passes of a
release, with what it pays out, charges and withholds in all. A release pays its recipients,
the treasury of a group, or the shares of newly unlocked tranches.
-/

namespace StellarSplit.Split.Accounts

open Exec Function Machine

variable {env : Env} {id : ℕ} {inv : Invoice} {platformFee : ℤ} {plan : Plan}

/-! ## The cut of a share -/

/-- What tax and platform fee leave of a share. -/
def afterFee (env : Env) (inv : Invoice) (platformFee : ℤ) (p : Address × ℤ) : ℤ :=
  p.2 - taxOf inv p.2 - feeOf env inv platformFee p.1 p.2

def creatorFeeOf (inv : Invoice) (rest : ℤ) : ℤ := asI128 (asU128 rest * inv.creatorFeeBps / 10000)

/-- What the recipient and the creator get of a share. -/
def cutOf (env : Env) (inv : Invoice) (platformFee : ℤ) (p : Address × ℤ) : ℤ × ℤ :=
  (afterFee env inv platformFee p - creatorFeeOf inv (afterFee env inv platformFee p),
    creatorFeeOf inv (afterFee env inv platformFee p))

theorem netPayout_cut {p : Address × ℤ} {net : ℤ × ℤ} (h : netPayout env inv platformFee p.1 p.2 = .ok net) :
    net = cutOf env inv platformFee p := by
  obtain ⟨tax, htax, h⟩ := except_bind_ok.1 h
  obtain ⟨fee, hfee, h⟩ := except_bind_ok.1 h
  obtain ⟨creatorFee, hcreator, h⟩ := except_bind_ok.1 h
  obtain rfl := Except.ok.inj h
  have htax : tax = taxOf inv p.2 := (checkedBpsOf_quotient htax).2
  have hrest : p.2 - tax - fee = afterFee env inv platformFee p := by
    rw [afterFee, feeOf, ← htax, hfee]
  have hcreator : creatorFee = creatorFeeOf inv (p.2 - tax - fee) := (checkedBpsOf_quotient hcreator).2
  rw [cutOf, hcreator, hrest]

/-! ## The shares of a release -/

/-- A recipient whom the release pays: not paid before, not locked, with an account. -/
def Reached (env : Env) (e : Entry) (inv : Invoice) (r : Address) : Prop :=
  r ∉ e.paidRecipients ∧ e.recipientLock r = false ∧ env.accountExists (fundingTokenFor inv) r = true

instance (env : Env) (e : Entry) (inv : Invoice) (r : Address) : Decidable (Reached env e inv r) :=
  inferInstanceAs (Decidable (_ ∧ _ ∧ _))

/-- What a release shares out, and what becomes of it. -/
structure Account where
  gross : ℤ
  net : ℤ
  fees : ℤ
  withheld : ℤ

/-- The recipients with their shares: nothing for one who is locked or was paid before. -/
def sharesOf (e : Entry) (inv : Invoice) : List (Address × ℤ) :=
  match shareList inv e.paidRecipients e.recipientLock with
  | .ok l => inv.recipients.zip l.1
  | .error _ => []

/-- The payout to the recipients; everyone's platform fee is sent, the creator's fee and the tax
are withheld from those who are reached. -/
def recipientsAccount (env : Env) (e : Entry) (inv : Invoice) (platformFee : ℤ) : Account where
  gross := ((sharesOf e inv).map Prod.snd).sum
  net := (((sharesOf e inv).filter fun p => Reached env e inv p.1).map fun p =>
    (cutOf env inv platformFee p).1).sum
  fees := ((sharesOf e inv).map fun p => feeOf env inv platformFee p.1 p.2).sum +
    (((sharesOf e inv).filter fun p => Reached env e inv p.1).map fun p => (cutOf env inv platformFee p).2).sum
  withheld := (((sharesOf e inv).filter fun p => Reached env e inv p.1).map fun p => taxOf inv p.2).sum

/-- The payout to the treasury of the invoice's group. -/
def treasuryAccount (env : Env) (e : Entry) (inv : Invoice) (platformFee : ℤ) : Account where
  gross := ((sharesOf e inv).map Prod.snd).sum
  net := ((sharesOf e inv).map (afterFee env inv platformFee)).sum
  fees := ((sharesOf e inv).map fun p => feeOf env inv platformFee p.1 p.2).sum
  withheld := ((sharesOf e inv).map fun p => taxOf inv p.2).sum

/-- The part of the funded amount in newly unlocked tranches. -/
def unlockedPart (env : Env) (inv : Invoice) : ℤ := tranchePart inv.funded (newlyUnlocked env inv)

/-- The share of a recipient in newly unlocked tranches. -/
def rawShare (env : Env) (inv : Invoice) (i : ℕ) : ℤ :=
  match trancheShare (inv.amounts.getD i 0) inv.funded inv.total (newlyUnlocked env inv) with
  | .ok raw => max raw 0
  | .error _ => 0

def trancheShares (env : Env) (inv : Invoice) : List (Address × ℤ) :=
  inv.recipients.zipIdx.map fun ri => (ri.1, rawShare env inv ri.2)

/-- The platform fee on a recipient's share of the tranches. -/
def trancheFeeOfShare (env : Env) (inv : Invoice) (p : Address × ℤ) : ℤ :=
  if 0 < p.2 then
    match trancheFeeOf env inv (unlockedPart env inv) >>= trancheFeeOn env p.1 p.2 (unlockedPart env inv) with
    | .ok fee => fee
    | .error _ => 0
  else 0

/-- What the recipient, the fee addresses and the authority get of a share of the tranches. -/
def trancheCut (env : Env) (inv : Invoice) (p : Address × ℤ) : ℤ × ℤ × ℤ :=
  (p.2 - trancheFeeOfShare env inv p - taxOf inv p.2, trancheFeeOfShare env inv p, taxOf inv p.2)

def trancheAccount (env : Env) (inv : Invoice) : Account where
  gross := ((trancheShares env inv).map Prod.snd).sum
  net := ((trancheShares env inv).map fun p => (trancheCut env inv p).1).sum
  fees := ((trancheShares env inv).map fun p => (trancheCut env inv p).2.1).sum
  withheld := ((trancheShares env inv).map fun p => (trancheCut env inv p).2.2).sum

/-- What a release pays for the invoice itself up to a state: all of a release of tranches, the
payouts and the bonus of a full release. -/
inductive ReleasePays (env : Env) (id : ℕ) (inv : Invoice) (actor : Address) (s : Store) : Store → Account → Prop
  | recipients {platformFee : ℤ} {plan : Plan} {failed : Bool} {u : Store} (hempty : inv.tranches = [])
      (hnone : (s.entries id).treasury = none) (hfee : totalPlatformFee env inv actor = .ok platformFee)
      (hplan : planPayouts env inv (s.entries id).paidRecipients (s.entries id).recipientLock platformFee = .ok plan)
      (hpay : payPasses env id inv (s.entries id) platformFee plan s = .ok (failed, u))
      (hcut : ∀ p ∈ sharesOf (s.entries id) inv, Reached env (s.entries id) inv p.1 →
        netPayout env inv platformFee p.1 p.2 = .ok (cutOf env inv platformFee p)) :
      ReleasePays env id inv actor s u (recipientsAccount env (s.entries id) inv platformFee)
  | treasury {platformFee : ℤ} {plan : Plan} {failed : Bool} {u : Store} {treasury : Address}
      (hempty : inv.tranches = []) (hsome : (s.entries id).treasury = some treasury)
      (hfee : totalPlatformFee env inv actor = .ok platformFee)
      (hplan : planPayouts env inv (s.entries id).paidRecipients (s.entries id).recipientLock platformFee = .ok plan)
      (hpay : payPasses env id inv (s.entries id) platformFee plan s = .ok (failed, u)) :
      ReleasePays env id inv actor s u (treasuryAccount env (s.entries id) inv platformFee)
  | tranches {u : Store} {v : Unit} {trancheFee : ℤ} (hsome : inv.tranches ≠ [])
      (hfee : trancheFeeOf env inv (unlockedPart env inv) = .ok trancheFee)
      (hrun : releaseTranches env id inv s = .ok (v, u))
      (hcut : ∀ p ∈ trancheShares env inv, 0 < p.2 →
        trancheNet env inv p.1 p.2 (unlockedPart env inv) trancheFee = .ok (trancheCut env inv p)) :
      ReleasePays env id inv actor s u (trancheAccount env inv)

/-! ## What the plan adds up -/

/-- The planned shares, and what the plan adds up over them. -/
structure Adds (env : Env) (e : Entry) (inv : Invoice) (platformFee : ℤ) (plan : Plan) : Prop where
  recipients : (sharesOf e inv).map Prod.fst = inv.recipients
  payouts : (sharesOf e inv).map Prod.snd = plan.payouts
  paid : ∀ p ∈ sharesOf e inv, p.1 ∈ e.paidRecipients → p.2 = 0
  fits : ∀ p ∈ sharesOf e inv, asU128 p.2 * inv.taxBps ≤ u128Max
  tax : plan.totalTax = ((sharesOf e inv).map fun p => taxOf inv p.2).sum
  fee : plan.totalFee = ((sharesOf e inv).map fun p => feeOf env inv platformFee p.1 p.2).sum
  distributed : plan.distributed = ((sharesOf e inv).map Prod.snd).sum

theorem planPayouts_adds {e : Entry}
    (h : planPayouts env inv e.paidRecipients e.recipientLock platformFee = .ok plan) :
    Adds env e inv platformFee plan := by
  obtain ⟨effective, slots, -, hslots, hfits, hplan⟩ := planPayouts_slots h
  have hshares : sharesOf e inv = slots.map fun x => (x.recipient, x.payout) := by
    rw [sharesOf, planPayouts_share h, hplan, ← hslots.recipients]
    simp [Plan.adding, List.zip_map']
  refine ⟨?_, ?_, ?_, ?_, ?_, ?_, ?_⟩
  · rw [hshares, List.map_map, ← hslots.recipients]
    rfl
  · rw [hshares, List.map_map, hplan]
    simp [Plan.adding, Function.comp_def]
  · rw [hshares]
    refine List.forall_mem_map.2 fun x hx hpaid => ?_
    obtain ⟨-, hcapped, -⟩ := hslots.of_paid x hx hpaid
    simp [Slot.payout, hcapped]
  · rw [hshares]
    exact List.forall_mem_map.2 hfits
  · rw [hshares, List.map_map, hplan]
    simp [Plan.adding, Function.comp_def]
  · rw [hshares, List.map_map, hplan]
    simp [Plan.adding, Function.comp_def]
  · rw [hshares, List.map_map, hplan]
    simp [Plan.adding, Function.comp_def]

theorem Adds.tax_nonneg {e : Entry} (h : Adds env e inv platformFee plan) :
    ∀ p ∈ sharesOf e inv, 0 ≤ taxOf inv p.2 := fun p hp => taxOf_nonneg (h.fits p hp)

theorem Adds.totalTax_nonneg {e : Entry} (h : Adds env e inv platformFee plan) : 0 ≤ plan.totalTax := by
  rw [h.tax]
  exact List.sum_nonneg (List.forall_mem_map.2 h.tax_nonneg)

/-! ## The turns of the transfer pass -/

/-- What the transfer pass does for one recipient with a share. -/
inductive Turn (env : Env) (id : ℕ) (e : Entry) (inv : Invoice) (platformFee : ℤ) (plan : Plan) (p : Address × ℤ)
    (acc : Pass) (s : Store) : Pass → Store → Prop
  | skipped (hnot : ¬Reached env e inv p.1) : Turn env id e inv platformFee plan p acc s acc s
  | missing {t : Store} (hnot : ¬Reached env e inv p.1) (hmark : markMissing id p.1 s = .ok ((), t)) :
      Turn env id e inv platformFee plan p acc s acc t
  | paid {k : ℕ} {success : Bool} {u₁ u₂ t : Store} (hreached : Reached env e inv p.1)
      (hnet : netPayout env inv platformFee p.1 p.2 = .ok (cutOf env inv platformFee p))
      (hdeliver : deliverPayout env id inv k p.1 (cutOf env inv platformFee p).1 s = .ok (success, u₁))
      (hrecord : onlyIf (success = false) (recordFailure env id p.1 (cutOf env inv platformFee p).1) u₁ =
        .ok ((), u₂))
      (htax : transferIfSet env (fundingTokenFor inv) inv.taxAuthority plan.totalTax ⟨id, .tax⟩ u₂ = .ok ((), t)) :
      Turn env id e inv platformFee plan p acc s
        { creatorFee := satAddI128 acc.creatorFee (cutOf env inv platformFee p).2
          failed := acc.failed || !success } t

/-- The turns of some recipients one after another. -/
inductive Turns (env : Env) (id : ℕ) (e : Entry) (inv : Invoice) (platformFee : ℤ) (plan : Plan) :
    List (Address × ℤ) → Pass → Store → Pass → Store → Prop
  | nil {acc : Pass} {s : Store} : Turns env id e inv platformFee plan [] acc s acc s
  | cons {p : Address × ℤ} {ps : List (Address × ℤ)} {acc mid acc' : Pass} {s u t : Store}
      (hfirst : Turn env id e inv platformFee plan p acc s mid u)
      (hrest : Turns env id e inv platformFee plan ps mid u acc' t) :
      Turns env id e inv platformFee plan (p :: ps) acc s acc' t

section Turns

variable {s t : Store} {e : Entry} {acc acc' : Pass} {ps : List (Address × ℤ)} {k : ℕ}

theorem payRecipient_turn {p : Address × ℤ} (hlock : (s.entries id).recipientLock = e.recipientLock)
    (hpayout : plan.payouts[k]? = some p.2) (hpaid : p.1 ∈ e.paidRecipients → p.2 = 0)
    (hrun : payRecipient env id inv e.paidRecipients platformFee plan acc (p.1, k) s = .ok (acc', t)) :
    Turn env id e inv platformFee plan p acc s acc' t := by
  unfold payRecipient at hrun
  obtain ⟨proportional, hread, hrun⟩ := ofResult_bind.1 hrun
  obtain rfl : p.2 = proportional := Option.some.inj (hpayout.symm.trans (unwrap_ok.1 hread))
  rw [getEntry_bind, hlock] at hrun
  split_ifs at hrun with hskip hmissing
  · obtain ⟨rfl, rfl⟩ := pure_ok.1 hrun
    refine .skipped ?_
    rintro ⟨hunpaid, hopen, -⟩
    rcases hskip with hlocked | ⟨-, hin⟩
    · rw [hopen] at hlocked
      cases hlocked
    · exact hunpaid hin
  · obtain ⟨_, w, hmark, hrun⟩ := bind_ok.1 hrun
    obtain ⟨rfl, rfl⟩ := pure_ok.1 hrun
    refine .missing (fun h => ?_) hmark
    rw [h.2.2] at hmissing
    cases hmissing
  · obtain ⟨hopen, hnew⟩ := not_or.1 hskip
    obtain ⟨net, hnet, hrun⟩ := ofResult_bind.1 hrun
    obtain ⟨success, u₁, hdeliver, hrun⟩ := bind_ok.1 hrun
    obtain ⟨_, u₂, hrecord, hrun⟩ := bind_ok.1 hrun
    obtain ⟨_, u₃, htax, hrun⟩ := bind_ok.1 hrun
    obtain ⟨rfl, rfl⟩ := pure_ok.1 hrun
    have hreached : Reached env e inv p.1 := by
      refine ⟨fun hin => hnew ⟨hpaid hin, hin⟩, Bool.eq_false_iff.2 hopen, ?_⟩
      exact Bool.not_eq_false _ ▸ hmissing
    obtain rfl := netPayout_cut hnet
    exact .paid hreached hnet hdeliver hrecord htax

instance untouched_recipientLock : Untouched Entry.recipientLock :=
  ⟨fun _ => rfl, fun _ _ => rfl, fun _ _ => rfl⟩

/-- The rest of the transfer pass takes the turns of the remaining recipients. -/
theorem payEach_turns (hlock : (s.entries id).recipientLock = e.recipientLock)
    (hpayouts : plan.payouts.drop k = ps.map Prod.snd) (hpaid : ∀ p ∈ ps, p.1 ∈ e.paidRecipients → p.2 = 0)
    (hrun : ((ps.map Prod.fst).zipIdx k).foldlM
      (payRecipient env id inv e.paidRecipients platformFee plan) acc s = .ok (acc', t)) :
    Turns env id e inv platformFee plan ps acc s acc' t := by
  induction ps generalizing s k acc with
  | nil =>
      obtain ⟨rfl, rfl⟩ := pure_ok.1 hrun
      exact .nil
  | cons p ps ih =>
      rw [List.map_cons, List.zipIdx_cons, List.foldlM_cons] at hrun
      obtain ⟨mid, u, hfirst, hrest⟩ := bind_ok.1 hrun
      have hshare : plan.payouts[k]? = some p.2 := by
        rw [← Nat.add_zero k, ← List.getElem?_drop, hpayouts, List.map_cons, List.getElem?_cons_zero]
      have hdrop : plan.payouts.drop (k + 1) = ps.map Prod.snd := by
        rw [← List.tail_drop, hpayouts, List.map_cons, List.tail_cons]
      have hkept : Keeps Entry.recipientLock s u := framed_payRecipient.respects s _ u hfirst
      obtain ⟨hp, hps⟩ := List.forall_mem_cons.1 hpaid
      exact .cons (payRecipient_turn hlock hshare hp hfirst) (ih ((hkept id).trans hlock) hdrop hps hrest)

/-- Everyone who is reached gets the cut of the share. -/
theorem Turns.cuts (h : Turns env id e inv platformFee plan ps acc s acc' t) :
    ∀ p ∈ ps, Reached env e inv p.1 → netPayout env inv platformFee p.1 p.2 = .ok (cutOf env inv platformFee p) := by
  induction h with
  | nil => exact fun p hp => absurd hp List.not_mem_nil
  | cons hfirst _ ih =>
      refine List.forall_mem_cons.2 ⟨fun hreached => ?_, ih⟩
      cases hfirst with
      | skipped hnot => exact absurd hreached hnot
      | missing hnot _ => exact absurd hreached hnot
      | paid _ hnet _ _ _ => exact hnet

/-- The recipients' branch: the turns, and the fees after them. -/
theorem payRecipients_turns {failed : Bool} (hlock : (s.entries id).recipientLock = e.recipientLock)
    (hadds : Adds env e inv platformFee plan)
    (hrun : payRecipients env id inv e.paidRecipients platformFee plan s = .ok (failed, t)) :
    ∃ pass u₁ u₂, Turns env id e inv platformFee plan (sharesOf e inv) {} s pass u₁ ∧
      payPlatformFee env id plan.totalFee (fundingTokenFor inv) u₁ = .ok ((), u₂) ∧
      transferPositive env (fundingTokenFor inv) inv.creator pass.creatorFee ⟨id, .creatorFee⟩ u₂ = .ok ((), t) := by
  obtain ⟨pass, u₁, hloop, hrun⟩ := bind_ok.1 hrun
  obtain ⟨_, u₂, hplatform, hrun⟩ := bind_ok.1 hrun
  obtain ⟨_, u₃, hcreator, hrun⟩ := bind_ok.1 hrun
  obtain ⟨-, rfl⟩ := pure_ok.1 hrun
  rw [← hadds.recipients] at hloop
  exact ⟨pass, u₁, u₂, payEach_turns hlock (hadds.payouts.symm ▸ rfl) hadds.paid hloop, hplatform, hcreator⟩

end Turns

/-! ## No more than the shares -/

/-- The settings under which no fee is above a share. -/
structure Sound (env : Env) (e : Entry) (inv : Invoice) : Prop where
  fees : FeesValid env
  tax : inv.taxBps ≤ 10000
  funded : 0 ≤ inv.funded
  word : inv.funded ≤ i128Max
  credit : 0 ≤ inv.earlyBirdFeeCredit
  shares : ∀ p ∈ sharesOf e inv, 0 ≤ p.2

theorem taxOf_bounds {share : ℤ} (hshare : 0 ≤ share) (hrate : inv.taxBps ≤ 10000)
    (hfits : asU128 share * inv.taxBps ≤ u128Max) : 0 ≤ taxOf inv share ∧ taxOf inv share ≤ share := by
  refine ⟨taxOf_nonneg hfits, ?_⟩
  rw [taxOf_eq hfits]
  have hquot : asU128 share * inv.taxBps / 10000 ≤ asU128 share := by
    apply Nat.div_le_of_le_mul
    rw [Nat.mul_comm]
    exact Nat.mul_le_mul_right _ hrate
  exact (Int.ofNat_le.2 hquot).trans (asU128_le hshare)

/-- The platform fee on a share is nothing or a part of what the tax leaves of it. -/
theorem feeOf_quotient (share : ℤ) (r : Address) (hfunded : 0 ≤ inv.funded ∧ inv.funded ≤ i128Max)
    (hfee : 0 ≤ platformFee ∧ platformFee ≤ max inv.funded 0) :
    feeOf env inv platformFee r share = 0 ∨
      ∃ q, q ≤ asU128 (share - taxOf inv share) ∧ feeOf env inv platformFee r share = asI128 q := by
  unfold feeOf
  split
  · rename_i fee hprice
    unfold feeOnShare at hprice
    split_ifs at hprice with hwaived
    · exact .inl (Except.ok.inj hprice).symm
    · obtain ⟨-, -, rfl⟩ := checkedMulDiv_eq (plainMulDiv_eq (PlainRelease.checkedProportion_ok.1 hprice))
      have hwords : asU128 platformFee ≤ asU128 inv.funded := by
        have hword : i128Max < 2 ^ 128 := by norm_num [i128Max]
        rw [asU128_of_nonneg hfee.1 (by omega), asU128_of_nonneg hfunded.1 (by omega)]
        omega
      refine .inr ⟨_, ?_, rfl⟩
      apply Nat.div_le_of_le_mul
      rw [Nat.mul_comm]
      exact Nat.mul_le_mul_right _ hwords
  · exact .inl rfl

/-- The platform fee on a share is at most what the tax leaves of it. -/
theorem feeOf_le {share : ℤ} {r : Address} (hfunded : 0 ≤ inv.funded ∧ inv.funded ≤ i128Max)
    (hfee : 0 ≤ platformFee ∧ platformFee ≤ max inv.funded 0) (hshare : 0 ≤ share) (hrate : inv.taxBps ≤ 10000)
    (hfits : asU128 share * inv.taxBps ≤ u128Max) :
    feeOf env inv platformFee r share ≤ share - taxOf inv share := by
  have hrest : 0 ≤ share - taxOf inv share := sub_nonneg.2 (taxOf_bounds hshare hrate hfits).2
  rcases feeOf_quotient share r hfunded hfee with hnone | ⟨q, hq, hfeed⟩
  · rw [hnone]
    exact hrest
  · rw [hfeed]
    exact ((asI128_le q).trans (Int.ofNat_le.2 hq)).trans (asU128_le hrest)

theorem sum_filter_add_rest {α : Type*} (f : α → ℤ) (p : α → Prop) [DecidablePred p] (xs : List α) :
    ((xs.filter p).map f).sum + ((xs.filter fun x => !p x).map f).sum = (xs.map f).sum := by
  have hsum := ((List.filter_append_perm (fun x => decide (p x)) xs).map f).sum_eq
  rwa [List.map_append, List.sum_append] at hsum

theorem sum_parts (ps : List (Address × ℤ)) (f g : Address × ℤ → ℤ) :
    (ps.map fun p => p.2 - f p - g p).sum + (ps.map f).sum + (ps.map g).sum = (ps.map Prod.snd).sum := by
  induction ps with
  | nil => rfl
  | cons p ps ih =>
      simp only [List.map_cons, List.sum_cons]
      linarith

/-- The cut of the shares that are reached, with the fees of the others. -/
theorem recipientsAccount_bounded {e : Entry} (hsound : Sound env e inv) (hadds : Adds env e inv platformFee plan)
    (hfee : 0 ≤ platformFee ∧ platformFee ≤ max inv.funded 0) :
    (recipientsAccount env e inv platformFee).net + (recipientsAccount env e inv platformFee).fees +
      (recipientsAccount env e inv platformFee).withheld ≤ (recipientsAccount env e inv platformFee).gross := by
  have hreached := sum_filter_add_rest Prod.snd (fun p => Reached env e inv p.1) (sharesOf e inv)
  have hfees := sum_filter_add_rest (fun p => feeOf env inv platformFee p.1 p.2) (fun p => Reached env e inv p.1)
    (sharesOf e inv)
  have hothers : (((sharesOf e inv).filter fun p => !Reached env e inv p.1).map fun p =>
      feeOf env inv platformFee p.1 p.2).sum ≤
        (((sharesOf e inv).filter fun p => !Reached env e inv p.1).map Prod.snd).sum := by
    refine List.sum_le_sum fun p hp => ?_
    have hin := List.mem_of_mem_filter hp
    have hle : feeOf env inv platformFee p.1 p.2 ≤ p.2 - taxOf inv p.2 :=
      feeOf_le ⟨hsound.funded, hsound.word⟩ hfee (hsound.shares p hin) hsound.tax (hadds.fits p hin)
    have htax := taxOf_nonneg (hadds.fits p hin)
    linarith
  have hcut : (((sharesOf e inv).filter fun p => Reached env e inv p.1).map (afterFee env inv platformFee)).sum + _ +
      _ = _ := sum_parts _ (fun p => taxOf inv p.2) fun p => feeOf env inv platformFee p.1 p.2
  have hnet : (((sharesOf e inv).filter fun p => Reached env e inv p.1).map fun p =>
      (cutOf env inv platformFee p).1).sum + (((sharesOf e inv).filter fun p => Reached env e inv p.1).map fun p =>
        (cutOf env inv platformFee p).2).sum =
      (((sharesOf e inv).filter fun p => Reached env e inv p.1).map (afterFee env inv platformFee)).sum := by
    rw [← List.sum_map_add]
    simp only [cutOf, sub_add_cancel]
  simp only [recipientsAccount]
  linarith

end StellarSplit.Split.Accounts
