import StellarSplit.Split.Accounts
import StellarSplit.Split.Reserves

/-!
# What the protocol fee adds to a release

The protocol fee is worked out on the funded amount and sent before the payouts, which
are planned as if it had not been. Of an invoice without tax, caps and locks the shares
are the payouts, the platform fee and the creator's fee, and the protocol fee comes on top.
-/

namespace StellarSplit.Split.ProtocolFees

open Exec Function Machine Proportion Accounts PlainRelease

variable {env : Env} {s t u : Store} {v : Unit} {id : ℕ} {inv : Invoice} {e : Entry} {platformFee : ℤ}
  {plan : Plan} {ps : List (Address × ℤ)} {acc acc' : Pass}

/-! ## The fees of a release -/

/-- The rate of the protocol fee in basis points. -/
def protocolRate (env : Env) : ℕ :=
  match env.config.protocolFee with
  | some cfg => cfg.rateBps
  | none => 0

/-- The protocol fee on the funded amount. -/
def protocolFeeOf (env : Env) (inv : Invoice) : ℤ := part inv.funded 10000 (protocolRate env)

/-- A movement of a protocol fee, a platform fee or a creator's fee of the invoice. -/
def isFee (id : ℕ) (m : Transfer Memo) : Bool :=
  m.memo = ⟨id, .protocolFee⟩ ∨ m.memo = ⟨id, .platformFee⟩ ∨ m.memo = ⟨id, .creatorFee⟩

/-- The fees of an invoice that have gone out. -/
def feesSent (id : ℕ) (s : Store) : ℤ := tally (isFee id) s.log

/-- No movement of a fee. -/
abbrev NoFee (id : ℕ) : Store → Store → Prop :=
  Grows fun memo => memo ≠ ⟨id, .protocolFee⟩ ∧ memo ≠ ⟨id, .platformFee⟩ ∧ memo ≠ ⟨id, .creatorFee⟩

theorem NoFee.sent (h : NoFee id s t) : feesSent id t = feesSent id s :=
  h.tally fun m hm => by simp [isFee, hm]

theorem moves_noFee {p : Purpose} (h : p ≠ .protocolFee ∧ p ≠ .platformFee ∧ p ≠ .creatorFee) :
    Moves (NoFee id) ⟨id, p⟩ := moves_grows (by simpa using h)

instance : Moves (NoFee id) ⟨id, .payout⟩ := moves_noFee (by simp)

instance : Moves (NoFee id) ⟨id, .stream⟩ := moves_noFee (by simp)

instance : Moves (NoFee id) ⟨id, .tax⟩ := moves_noFee (by simp)

instance : Moves (NoFee id) ⟨id, .bonus⟩ := moves_noFee (by simp)

theorem feesSent_of_log {new : List (Transfer Memo)} (hlog : t.log = new ++ s.log)
    (hnew : ∀ m ∈ new, isFee id m = true) : feesSent id t = feesSent id s + (new.map Transfer.amount).sum := by
  rw [feesSent, hlog, tally_append, tally_all hnew, add_comm]
  rfl

theorem payProtocolFee_sent (hrate : protocolRate env ≤ 10000) (hfunded : 0 ≤ inv.funded ∧ inv.funded ≤ i128Max)
    (hrun : payProtocolFee env id inv s = .ok (v, t)) :
    feesSent id t = feesSent id s + protocolFeeOf env inv := by
  unfold payProtocolFee at hrun
  unfold protocolRate at hrate
  unfold protocolFeeOf protocolRate
  cases hset : env.config.protocolFee with
  | none =>
      rw [hset] at hrun
      obtain ⟨-, rfl⟩ := pure_ok.1 hrun
      simp [part]
  | some cfg =>
      simp only [hset] at hrun hrate ⊢
      rcases onlyIf_ok.1 hrun with ⟨-, hrun⟩ | ⟨hzero, rfl⟩
      · obtain ⟨fee, hfee, hrun⟩ := ofResult_bind.1 hrun
        obtain rfl := plainMulDiv_bps_part hfunded hrate (checkedBpsOf_ok.1 hfee)
        have hnonneg : 0 ≤ part inv.funded 10000 cfg.rateBps :=
          part_nonneg hfunded.1 (by norm_num) (Int.natCast_nonneg _)
        obtain ⟨new, hlog, hsum, hnew⟩ := transferPositive_sent hnonneg hrun
        rw [feesSent_of_log hlog fun m hm => by simp [isFee, (hnew m hm).2.1], hsum]
      · have hrate₀ : cfg.rateBps = 0 := Nat.eq_zero_of_not_pos hzero
        simp [part, hrate₀]

/-! ## The payouts of a release -/

/-- A payout to a recipient, or the payout to the treasury of the group. -/
def isNet (id : ℕ) (m : Transfer Memo) : Bool := isPayout id m ∨ m.memo = ⟨id, .treasuryNet⟩

def netsOf (id : ℕ) (moved : List (Transfer Memo)) : List (Transfer Memo) := moved.filter (isNet id)

/-- What the payouts of an invoice sum to. -/
def netSent (id : ℕ) (s : Store) : ℤ := ((netsOf id s.log).map Transfer.amount).sum

/-- No movement of a payout. -/
abbrev NoNet (id : ℕ) : Store → Store → Prop :=
  Grows fun memo => memo ≠ ⟨id, .payout⟩ ∧ memo ≠ ⟨id, .stream⟩ ∧ memo ≠ ⟨id, .treasuryNet⟩

theorem NoNet.nets (h : NoNet id s t) : netsOf id t.log = netsOf id s.log := by
  obtain ⟨new, hlog, hnew⟩ := h
  have hnone : netsOf id new = [] :=
    List.filter_eq_nil_iff.2 fun m hm => by simp [isNet, isPayout, hnew m hm]
  unfold netsOf at hnone ⊢
  rw [hlog, List.filter_append, hnone, List.nil_append]

theorem moves_noNet {p : Purpose} (h : p ≠ .payout ∧ p ≠ .stream ∧ p ≠ .treasuryNet) :
    Moves (NoNet id) ⟨id, p⟩ := moves_grows (by simpa using h)

instance : Moves (NoNet id) ⟨id, .tax⟩ := moves_noNet (by simp)

instance : Moves (NoNet id) ⟨id, .protocolFee⟩ := moves_noNet (by simp)

instance : Moves (NoNet id) ⟨id, .bonus⟩ := moves_noNet (by simp)

/-- The recipients with a share whom the release pays. -/
def reachedOf (env : Env) (e : Entry) (inv : Invoice) (ps : List (Address × ℤ)) : List (Address × ℤ) :=
  ps.filter fun p => Reached env e inv p.1

section Turns

theorem turn_noFee {p : Address × ℤ} (h : Turn env id e inv platformFee plan p acc s acc' t) : NoFee id s t := by
  cases h with
  | skipped _ => exact refl_of (NoFee id) s
  | missing _ hmark => exact framed_markMissing.respects s _ t hmark
  | @paid k success u₁ u₂ _ _ _ hdeliver hrecord htax =>
      have h₁ : NoFee id s u₁ := framed_deliverPayout.respects s _ u₁ hdeliver
      have hframe : Framed (NoFee id)
          (onlyIf (success = false) (recordFailure env id p.1 (cutOf env inv platformFee p).1)) := inferInstance
      have h₂ : NoFee id u₁ u₂ := hframe.respects u₁ _ u₂ hrecord
      have h₃ : NoFee id u₂ t := framed_transferIfSet.respects u₂ _ t htax
      exact trans_of (NoFee id) (trans_of (NoFee id) h₁ h₂) h₃

theorem turns_noFee (h : Turns env id e inv platformFee plan ps acc s acc' t) : NoFee id s t := by
  induction h with
  | nil => exact refl_of (NoFee id) _
  | cons hfirst _ ih => exact trans_of (NoFee id) (turn_noFee hfirst) ih

/-- The creator's fees of the turns add up, as long as their sum fits the word. -/
theorem turns_creatorFee (h : Turns env id e inv platformFee plan ps acc s acc' t)
    (hcuts : ∀ p ∈ ps, 0 ≤ (cutOf env inv platformFee p).2) (hacc : 0 ≤ acc.creatorFee)
    (hfits : acc.creatorFee + ((reachedOf env e inv ps).map fun p => (cutOf env inv platformFee p).2).sum ≤ i128Max) :
    acc'.creatorFee = acc.creatorFee +
      ((reachedOf env e inv ps).map fun p => (cutOf env inv platformFee p).2).sum := by
  induction h with
  | nil => simp [reachedOf]
  | @cons p ps acc mid _ _ _ _ hfirst _ ih =>
      obtain ⟨hcut, hcuts⟩ := List.forall_mem_cons.1 hcuts
      have hrest : 0 ≤ ((reachedOf env e inv ps).map fun p => (cutOf env inv platformFee p).2).sum :=
        List.sum_nonneg (List.forall_mem_map.2 fun q hq => hcuts q (List.mem_of_mem_filter hq))
      by_cases hreached : Reached env e inv p.1
      · rw [reachedOf, List.filter_cons_of_pos (by simpa using hreached), List.map_cons, List.sum_cons] at hfits ⊢
        change acc.creatorFee + ((cutOf env inv platformFee p).2 +
          ((reachedOf env e inv ps).map fun p => (cutOf env inv platformFee p).2).sum) ≤ i128Max at hfits
        have hmid : mid.creatorFee = acc.creatorFee + (cutOf env inv platformFee p).2 := by
          cases hfirst with
          | skipped hnot => exact absurd hreached hnot
          | missing hnot _ => exact absurd hreached hnot
          | paid _ _ _ _ _ => exact satAddI128_of_word (by omega) (by omega)
        rw [ih hcuts (by omega) (by omega), hmid, add_assoc]
        rfl
      · rw [reachedOf, List.filter_cons_of_neg (by simpa using hreached)] at hfits ⊢
        have hmid : mid = acc := by
          cases hfirst with
          | skipped _ => rfl
          | missing _ _ => rfl
          | paid hyes _ _ _ _ => exact absurd hyes hreached
        subst hmid
        exact ih hcuts hacc hfits

/-- A turn makes one payout, of what the fees leave of the share, or none. -/
theorem turn_nets {p : Address × ℤ} (hdirect : DirectPayouts env inv)
    (h : Turn env id e inv platformFee plan p acc s acc' t) :
    ∃ paid, netsOf id t.log = paid ++ netsOf id s.log ∧
      (paid = [] ∨ Reached env e inv p.1 ∧ paid.map Transfer.amount = [(cutOf env inv platformFee p).1]) := by
  cases h with
  | skipped _ => exact ⟨[], rfl, .inl rfl⟩
  | missing _ hmark =>
      have hsame : NoNet id s t := framed_markMissing.respects s _ t hmark
      exact ⟨[], hsame.nets, .inl rfl⟩
  | @paid k success u₁ u₂ _ hreached _ hdeliver hrecord htax =>
      have hframe : Framed (NoNet id)
          (onlyIf (success = false) (recordFailure env id p.1 (cutOf env inv platformFee p).1)) := inferInstance
      have h₂ : NoNet id u₁ u₂ := hframe.respects u₁ _ u₂ hrecord
      have h₃ : NoNet id u₂ t := framed_transferIfSet.respects u₂ _ t htax
      rw [h₃.nets, h₂.nets]
      rcases deliverPayout_direct hdirect hdeliver with hpaid | hunpaid
      · refine ⟨[payoutMovement env id inv p.1 (cutOf env inv platformFee p).1], ?_, .inr ⟨hreached, ?_⟩⟩
        · rw [hpaid, netsOf, List.filter_cons_of_pos (by simp [isNet, isPayout_payoutMovement])]
          rfl
        · rw [List.map_singleton, payoutMovement_amount]
      · exact ⟨[], by rw [hunpaid]; rfl, .inl rfl⟩

/-- The turns make at most one payout for everyone they reach; if they make them all, these sum to what
the fees leave of the shares. -/
theorem turns_nets (hdirect : DirectPayouts env inv) (h : Turns env id e inv platformFee plan ps acc s acc' t) :
    ∃ paid, netsOf id t.log = paid ++ netsOf id s.log ∧ paid.length ≤ (reachedOf env e inv ps).length ∧
      (paid.length = (reachedOf env e inv ps).length → (paid.map Transfer.amount).sum =
        ((reachedOf env e inv ps).map fun p => (cutOf env inv platformFee p).1).sum) := by
  induction h with
  | nil => exact ⟨[], rfl, le_rfl, fun _ => rfl⟩
  | @cons p ps _ _ _ _ _ _ hfirst _ ih =>
      obtain ⟨first, hlog₁, hone⟩ := turn_nets hdirect hfirst
      obtain ⟨rest, hlog₂, hle, hall⟩ := ih
      refine ⟨rest ++ first, by rw [hlog₂, hlog₁, List.append_assoc], ?_⟩
      by_cases hreached : Reached env e inv p.1
      · rw [reachedOf, List.filter_cons_of_pos (by simpa using hreached), List.length_append, List.length_cons,
          List.map_append, List.sum_append, List.map_cons, List.sum_cons]
        change _ ≤ (reachedOf env e inv ps).length + 1 ∧ (_ = (reachedOf env e inv ps).length + 1 → _ = _ +
          ((reachedOf env e inv ps).map fun p => (cutOf env inv platformFee p).1).sum)
        rcases hone with rfl | ⟨-, hamount⟩
        · refine ⟨by simpa using hle.trans (Nat.le_succ _), fun hcount => ?_⟩
          rw [List.length_nil] at hcount
          omega
        · have hlength : first.length = 1 := by simpa using congrArg List.length hamount
          refine ⟨by omega, fun hcount => ?_⟩
          rw [hall (by omega), hamount, List.sum_singleton, add_comm]
      · rw [reachedOf, List.filter_cons_of_neg (by simpa using hreached)]
        obtain rfl : first = [] := hone.resolve_right fun h => hreached h.1
        simpa using ⟨hle, hall⟩

end Turns

/-! ## Shares without tax, caps and locks -/

/-- An invoice without tax, caps and locks, under rates that the contract admits. -/
structure Charged (env : Env) (e : Entry) (inv : Invoice) : Prop extends Sound env e inv where
  untaxed : inv.taxBps = 0
  uncapped : ∀ i, inv.recipientMaxPayouts.getD i none = none
  unlocked : ∀ r ∈ inv.recipients, e.recipientLock r = false
  creatorFee : inv.creatorFeeBps ≤ 10000
  rate : protocolRate env ≤ 10000
  feeRecipients : ∀ rs ∈ env.config.feeRecipients, rs ≠ [] ∧ (rs.map FeeSplit.basisPoints).sum = 10000
  fits : ((sharesOf e inv).map Prod.snd).sum ≤ i128Max

theorem quotient_bounds {q : ℕ} {x : ℤ} (hx : 0 ≤ x ∧ x ≤ i128Max) (hq : q ≤ asU128 x) :
    0 ≤ asI128 q ∧ asI128 q ≤ x := by
  have hle : (q : ℤ) ≤ x := (Int.ofNat_le.2 hq).trans (asU128_le hx.1)
  have hlt : q < 2 ^ 127 := by
    have hword := hx.2
    unfold i128Max at hword
    omega
  rw [asI128_of_lt hlt]
  exact ⟨Int.natCast_nonneg q, hle⟩

theorem creatorFeeOf_bounds {rest : ℤ} (hrest : 0 ≤ rest ∧ rest ≤ i128Max) (hrate : inv.creatorFeeBps ≤ 10000) :
    0 ≤ creatorFeeOf inv rest ∧ creatorFeeOf inv rest ≤ rest := by
  apply quotient_bounds hrest
  apply Nat.div_le_of_le_mul
  rw [Nat.mul_comm]
  exact Nat.mul_le_mul_right _ hrate

theorem taxOf_untaxed (h : inv.taxBps = 0) (share : ℤ) : taxOf inv share = 0 := by
  simp [taxOf, h, asI128]

/-- The fees on a share and the payout are not negative and make up the share. -/
theorem Charged.cut {p : Address × ℤ} (h : Charged env e inv)
    (hfee : 0 ≤ platformFee ∧ platformFee ≤ max inv.funded 0) (hp : p ∈ sharesOf e inv) :
    0 ≤ feeOf env inv platformFee p.1 p.2 ∧ 0 ≤ (cutOf env inv platformFee p).1 ∧
      0 ≤ (cutOf env inv platformFee p).2 ∧
      (cutOf env inv platformFee p).1 + (cutOf env inv platformFee p).2 + feeOf env inv platformFee p.1 p.2 = p.2 := by
  have hshare : 0 ≤ p.2 ∧ p.2 ≤ i128Max :=
    ⟨h.shares p hp, (List.single_le_sum (List.forall_mem_map.2 h.shares) _ (List.mem_map_of_mem hp)).trans h.fits⟩
  have htax := taxOf_untaxed h.untaxed p.2
  have hbounds : 0 ≤ feeOf env inv platformFee p.1 p.2 ∧ feeOf env inv platformFee p.1 p.2 ≤ p.2 := by
    rcases feeOf_quotient p.2 p.1 ⟨h.funded, h.word⟩ hfee with hnone | ⟨q, hq, hfeed⟩
    · rw [hnone]
      exact ⟨le_rfl, hshare.1⟩
    · rw [htax, sub_zero] at hq
      rw [hfeed]
      exact quotient_bounds hshare hq
  have hrest : afterFee env inv platformFee p = p.2 - feeOf env inv platformFee p.1 p.2 := by
    rw [afterFee, htax, sub_zero]
  have hcut : 0 ≤ creatorFeeOf inv (afterFee env inv platformFee p) ∧
      creatorFeeOf inv (afterFee env inv platformFee p) ≤ afterFee env inv platformFee p :=
    creatorFeeOf_bounds (by omega) h.creatorFee
  unfold cutOf
  refine ⟨hbounds.1, by dsimp only; omega, hcut.1, by dsimp only; omega⟩

/-- Without caps and locks the shares are paid out whole. -/
theorem Charged.payout_eq {effective : ℤ} {slots : List Slot} (h : Charged env e inv)
    (hslots : Planned inv e.paidRecipients e.recipientLock effective 0 0 inv.recipients slots) :
    ∀ x ∈ slots, x.payout = x.whole := by
  intro x hx
  have hopen : x.parked = false := by
    by_cases hpaid : x.recipient ∈ e.paidRecipients
    · exact (hslots.of_paid x hx hpaid).2.2
    · rw [hslots.of_unpaid x hx hpaid]
      exact h.unlocked _ (hslots.recipients ▸ List.mem_map_of_mem hx)
  rw [Slot.payout, hopen, hslots.capped_eq h.uncapped x hx]
  rfl

/-- Unless rules of their own give the shares, they sum to the funded amount. -/
theorem Charged.sum_shares (h : Charged env e inv)
    (hplan : planPayouts env inv e.paidRecipients e.recipientLock platformFee = .ok plan)
    (hratios : inv.ratios = []) (hrules : inv.splitRules = [])
    (hunpaid : ∃ r ∈ inv.recipients, r ∉ e.paidRecipients) : ((sharesOf e inv).map Prod.snd).sum = inv.funded := by
  obtain ⟨effective, slots, -, hslots, -, hadded⟩ := planPayouts_slots hplan
  have hwhole := h.payout_eq hslots
  have hpayouts : (sharesOf e inv).map Prod.snd = slots.map Slot.whole := by
    rw [(planPayouts_adds hplan).payouts, hadded, ← List.map_congr_left hwhole]
    exact List.nil_append _
  have hnothing : ((slots.take (lastUnpaidIdx inv.recipients e.paidRecipients)).map fun x =>
      x.whole - x.payout).sum = 0 := by
    refine List.sum_eq_zero (List.forall_mem_map.2 fun x hx => ?_)
    rw [hwhole x (List.mem_of_mem_take hx), sub_self]
  rw [hpayouts, Reserves.sum_whole hslots hratios hrules hunpaid, hnothing, add_zero]

/-! ## What a release sends out -/

/-- What a release hands out of the shares: all of them to a treasury, otherwise the shares of the
recipients it reaches and the platform fee on the others. -/
def handedOut (env : Env) (e : Entry) (inv : Invoice) (platformFee : ℤ) : ℤ :=
  if e.treasury.isSome = true then ((sharesOf e inv).map Prod.snd).sum
  else ((reachedOf env e inv (sharesOf e inv)).map Prod.snd).sum +
    (((sharesOf e inv).filter fun p => !Reached env e inv p.1).map fun p => feeOf env inv platformFee p.1 p.2).sum

/-- Every payout went through, each by a transfer of its own. -/
def AllDelivered (env : Env) (id : ℕ) (e : Entry) (inv : Invoice) (s u : Store) : Prop :=
  e.treasury.isSome = true ∨ DirectPayouts env inv ∧
    (netsOf id u.log).length = (netsOf id s.log).length + (reachedOf env e inv (sharesOf e inv)).length

section Release

theorem Charged.cuts_add_up (h : Charged env e inv) (hfee : 0 ≤ platformFee ∧ platformFee ≤ max inv.funded 0) :
    (recipientsAccount env e inv platformFee).net + (recipientsAccount env e inv platformFee).fees =
      ((reachedOf env e inv (sharesOf e inv)).map Prod.snd).sum +
        (((sharesOf e inv).filter fun p => !Reached env e inv p.1).map fun p =>
          feeOf env inv platformFee p.1 p.2).sum := by
  have hfees := sum_filter_add_rest (fun p => feeOf env inv platformFee p.1 p.2) (fun p => Reached env e inv p.1)
    (sharesOf e inv)
  have hparts : ((reachedOf env e inv (sharesOf e inv)).map fun p => (cutOf env inv platformFee p).1).sum +
      ((reachedOf env e inv (sharesOf e inv)).map fun p => (cutOf env inv platformFee p).2).sum +
      ((reachedOf env e inv (sharesOf e inv)).map fun p => feeOf env inv platformFee p.1 p.2).sum =
      ((reachedOf env e inv (sharesOf e inv)).map Prod.snd).sum := by
    rw [← List.sum_map_add, ← List.sum_map_add]
    exact congrArg List.sum (List.map_congr_left fun p hp => (h.cut hfee (List.mem_of_mem_filter hp)).2.2.2)
  unfold reachedOf at hparts ⊢
  simp only [recipientsAccount]
  linarith

/-- The fees and the payouts of the recipients' branch. -/
theorem payRecipients_sent {failed : Bool} (h : Charged env e inv)
    (hfee : 0 ≤ platformFee ∧ platformFee ≤ max inv.funded 0) (hadds : Adds env e inv platformFee plan)
    (hlock : (s.entries id).recipientLock = e.recipientLock)
    (hrun : payRecipients env id inv e.paidRecipients platformFee plan s = .ok (failed, t)) :
    (∀ p ∈ sharesOf e inv, Reached env e inv p.1 →
        netPayout env inv platformFee p.1 p.2 = .ok (cutOf env inv platformFee p)) ∧
      feesSent id t = feesSent id s + (recipientsAccount env e inv platformFee).fees ∧
      (DirectPayouts env inv →
        (netsOf id t.log).length = (netsOf id s.log).length + (reachedOf env e inv (sharesOf e inv)).length →
        netSent id t = netSent id s + (recipientsAccount env e inv platformFee).net) := by
  obtain ⟨pass, u₁, u₂, hturns, hplatform, hcreator⟩ := payRecipients_turns hlock hadds hrun
  have hfeeSum : 0 ≤ ((sharesOf e inv).map fun p => feeOf env inv platformFee p.1 p.2).sum :=
    List.sum_nonneg (List.forall_mem_map.2 fun p hp => (h.cut hfee hp).1)
  have hcutSum : 0 ≤ ((reachedOf env e inv (sharesOf e inv)).map fun p => (cutOf env inv platformFee p).2).sum :=
    List.sum_nonneg (List.forall_mem_map.2 fun p hp => (h.cut hfee (List.mem_of_mem_filter hp)).2.2.1)
  have hbound : ((sharesOf e inv).map fun p => feeOf env inv platformFee p.1 p.2).sum ≤ i128Max ∧
      ((reachedOf env e inv (sharesOf e inv)).map fun p => (cutOf env inv platformFee p).2).sum ≤ i128Max := by
    constructor
    · refine (List.sum_le_sum fun p hp => ?_).trans h.fits
      obtain ⟨-, hnet, hcut, hsum⟩ := h.cut hfee hp
      linarith
    · have hreached := sum_filter_add_rest Prod.snd (fun p => Reached env e inv p.1) (sharesOf e inv)
      have hothers : 0 ≤ (((sharesOf e inv).filter fun p => !Reached env e inv p.1).map Prod.snd).sum :=
        List.sum_nonneg (List.forall_mem_map.2 fun p hp => h.shares p (List.mem_of_mem_filter hp))
      have hle : ((reachedOf env e inv (sharesOf e inv)).map fun p => (cutOf env inv platformFee p).2).sum ≤
          ((reachedOf env e inv (sharesOf e inv)).map Prod.snd).sum := by
        refine List.sum_le_sum fun p hp => ?_
        obtain ⟨hfee₀, hnet, -, hsum⟩ := h.cut hfee (List.mem_of_mem_filter hp)
        linarith
      have hfits := h.fits
      unfold reachedOf at hle ⊢
      linarith
  have hpass : pass.creatorFee =
      ((reachedOf env e inv (sharesOf e inv)).map fun p => (cutOf env inv platformFee p).2).sum :=
    (turns_creatorFee hturns (fun p hp => (h.cut hfee hp).2.2.1) le_rfl
      (by rw [show ({} : Pass).creatorFee = 0 from rfl, zero_add]; exact hbound.2)).trans (zero_add _)
  rw [hadds.fee] at hplatform
  rw [hpass] at hcreator
  obtain ⟨fees, hlog₂, hsum₂, hfees⟩ := payPlatformFee_sent h.feeRecipients ⟨hfeeSum, hbound.1⟩ hplatform
  obtain ⟨cuts, hlog₃, hsum₃, hcuts⟩ := transferPositive_sent hcutSum hcreator
  refine ⟨hturns.cuts, ?_, fun hdirect hcount => ?_⟩
  · rw [feesSent_of_log hlog₃ fun m hm => by simp [isFee, (hcuts m hm).2.1],
      feesSent_of_log hlog₂ fun m hm => by simp [isFee, (hfees m hm).2.1], (turns_noFee hturns).sent, hsum₃, hsum₂,
      add_assoc]
    rfl
  · have h₂ : NoNet id u₁ u₂ := ⟨fees, hlog₂, fun m hm => by simp [(hfees m hm).2.1]⟩
    have h₃ : NoNet id u₂ t := ⟨cuts, hlog₃, fun m hm => by simp [(hcuts m hm).2.1]⟩
    obtain ⟨paid, hlog₁, -, hall⟩ := turns_nets hdirect hturns
    rw [h₃.nets, h₂.nets, hlog₁, List.length_append] at hcount
    rw [netSent, netSent, h₃.nets, h₂.nets, hlog₁, List.map_append, List.sum_append, hall (by omega), add_comm]
    rfl

/-- The fees and the payout of the treasury's branch. -/
theorem payTreasury_sent {treasury : Address} (h : Charged env e inv)
    (hfee : 0 ≤ platformFee ∧ platformFee ≤ max inv.funded 0) (hadds : Adds env e inv platformFee plan)
    (hrun : payTreasury env id inv plan treasury s = .ok (v, t)) :
    feesSent id t = feesSent id s + (treasuryAccount env e inv platformFee).fees ∧
      netSent id t = netSent id s + (treasuryAccount env e inv platformFee).net ∧
      (treasuryAccount env e inv platformFee).net + (treasuryAccount env e inv platformFee).fees =
        ((sharesOf e inv).map Prod.snd).sum := by
  have htax : plan.totalTax = 0 := by
    rw [hadds.tax]
    exact List.sum_eq_zero (List.forall_mem_map.2 fun p _ => taxOf_untaxed h.untaxed p.2)
  have hfeeSum : 0 ≤ ((sharesOf e inv).map fun p => feeOf env inv platformFee p.1 p.2).sum :=
    List.sum_nonneg (List.forall_mem_map.2 fun p hp => (h.cut hfee hp).1)
  have hle : ((sharesOf e inv).map fun p => feeOf env inv platformFee p.1 p.2).sum ≤
      ((sharesOf e inv).map Prod.snd).sum := by
    refine List.sum_le_sum fun p hp => ?_
    obtain ⟨-, hnet, hcut, hsum⟩ := h.cut hfee hp
    linarith
  have hparts : ((sharesOf e inv).map (afterFee env inv platformFee)).sum + _ + _ = _ :=
    sum_parts _ (fun p => taxOf inv p.2) fun p => feeOf env inv platformFee p.1 p.2
  rw [← hadds.tax, htax, add_zero] at hparts
  have hnet : plan.distributed - plan.totalTax - plan.totalFee =
      ((sharesOf e inv).map (afterFee env inv platformFee)).sum := by
    rw [hadds.distributed, htax, hadds.fee, sub_zero]
    linarith
  obtain ⟨_, u₁, htaxed, hrun⟩ := bind_ok.1 hrun
  obtain ⟨_, u₂, hplatform, hpay⟩ := bind_ok.1 hrun
  obtain rfl : s = u₁ := by
    rcases onlyIf_ok.1 htaxed with ⟨hpos, -⟩ | ⟨-, hsame⟩
    · rw [htax] at hpos
      exact absurd hpos (lt_irrefl 0)
    · exact hsame
  rw [hadds.fee] at hplatform
  rw [hnet] at hpay
  obtain ⟨fees, hlog₁, hsum₁, hfees⟩ := payPlatformFee_sent h.feeRecipients ⟨hfeeSum, hle.trans h.fits⟩ hplatform
  obtain ⟨nets, hlog₂, hsum₂, hnets⟩ := transferPositive_sent (by linarith) hpay
  have h₁ : NoNet id s u₂ := ⟨fees, hlog₁, fun m hm => by simp [(hfees m hm).2.1]⟩
  have h₂ : NoFee id u₂ t := ⟨nets, hlog₂, fun m hm => by simp [(hnets m hm).2.1]⟩
  have hall : netsOf id nets = nets := List.filter_eq_self.2 fun m hm => by simp [isNet, (hnets m hm).2.1]
  refine ⟨?_, ?_, hparts⟩
  · rw [h₂.sent, feesSent_of_log hlog₁ fun m hm => by simp [isFee, (hfees m hm).2.1], hsum₁]
    rfl
  · have hnets : netsOf id t.log = nets ++ netsOf id s.log := by
      rw [← h₁.nets, hlog₂, netsOf, List.filter_append]
      exact congrArg (· ++ _) hall
    rw [netSent, netSent, hnets, List.map_append, List.sum_append, hsum₂, add_comm]
    rfl

/-- Everyone who was not paid before is reached, or a treasury takes the shares. -/
def Reachable (env : Env) (e : Entry) (inv : Invoice) : Prop :=
  e.treasury.isSome = true ∨
    ∀ r ∈ inv.recipients, r ∉ e.paidRecipients → env.accountExists (fundingTokenFor inv) r = true

theorem Charged.handedOut_eq (h : Charged env e inv)
    (hplan : planPayouts env inv e.paidRecipients e.recipientLock platformFee = .ok plan)
    (hreachable : Reachable env e inv) : handedOut env e inv platformFee = ((sharesOf e inv).map Prod.snd).sum := by
  unfold handedOut
  split_ifs with htreasury
  · rfl
  · have hadds := planPayouts_adds hplan
    have hexists := hreachable.resolve_left htreasury
    -- who is not reached was paid before and has no share
    have hnothing : ∀ p ∈ (sharesOf e inv).filter (fun p => !Reached env e inv p.1), p.2 = 0 := by
      intro p hp
      obtain ⟨hin, hnot⟩ := List.mem_filter.1 hp
      have hrecipient : p.1 ∈ inv.recipients := hadds.recipients ▸ List.mem_map_of_mem hin
      refine hadds.paid p hin (by_contra fun hunpaid => ?_)
      have hreached : Reached env e inv p.1 := ⟨hunpaid, h.unlocked _ hrecipient, hexists _ hrecipient hunpaid⟩
      simp [hreached] at hnot
    have hshares : (((sharesOf e inv).filter fun p => !Reached env e inv p.1).map Prod.snd).sum = 0 :=
      List.sum_eq_zero (List.forall_mem_map.2 hnothing)
    have hfees : (((sharesOf e inv).filter fun p => !Reached env e inv p.1).map fun p =>
        feeOf env inv platformFee p.1 p.2).sum = 0 := by
      refine List.sum_eq_zero (List.forall_mem_map.2 fun p hp => ?_)
      rw [hnothing p hp, feeOf_zero]
    have hsplit := sum_filter_add_rest Prod.snd (fun p => Reached env e inv p.1) (sharesOf e inv)
    unfold reachedOf
    linarith

/-- The passes of a full release for the invoice itself send the protocol fee and what is handed out. -/
theorem payPasses_sent {actor : Address} {failed : Bool} (hempty : inv.tranches = [])
    (h : Charged env (s.entries id) inv) (hfee : totalPlatformFee env inv actor = .ok platformFee)
    (hplan : planPayouts env inv (s.entries id).paidRecipients (s.entries id).recipientLock platformFee = .ok plan)
    (hpasses : payPasses env id inv (s.entries id) platformFee plan s = .ok (failed, u)) :
    ∃ a, ReleasePays env id inv actor s u a ∧ feesSent id u = feesSent id s + protocolFeeOf env inv + a.fees ∧
      (AllDelivered env id (s.entries id) inv s u → netSent id u = netSent id s + a.net) ∧
      a.net + a.fees = handedOut env (s.entries id) inv platformFee := by
  have hadds := planPayouts_adds hplan
  have hbounds := totalPlatformFee_bounds h.fees h.credit hfee
  obtain ⟨u₁, u₂, u₃, hpark, hprotocol, hpay, hbonus⟩ := payPasses_ok.1 hpasses
  have hlog : u₁.log = s.log := log_modifyEntry hpark
  have hparked : feesSent id u₁ = feesSent id s := by rw [feesSent, hlog, feesSent]
  have hcharged := payProtocolFee_sent h.rate ⟨h.funded, h.word⟩ hprotocol
  have hnets₂ : NoNet id u₁ u₂ := framed_payProtocolFee.respects u₁ _ u₂ hprotocol
  have hfees₄ : NoFee id u₃ u := framed_payBonus.respects u₃ _ u hbonus
  have hnets₄ : NoNet id u₃ u := framed_payBonus.respects u₃ _ u hbonus
  have hnets : netsOf id u₂.log = netsOf id s.log := by rw [hnets₂.nets, hlog]
  have hlock₁ : Keeps Entry.recipientLock s u₁ := framed_parkShares.respects s _ u₁ hpark
  have hlock₂ : Keeps Entry.recipientLock u₁ u₂ := framed_payProtocolFee.respects u₁ _ u₂ hprotocol
  unfold payPlan at hpay
  cases htreasury : (s.entries id).treasury with
  | none =>
      simp only [htreasury] at hpay
      obtain ⟨hcut, hfees, hdelivered⟩ :=
        payRecipients_sent h hbounds hadds ((hlock₂ id).trans (hlock₁ id)) hpay
      refine ⟨_, .recipients hempty htreasury hfee hplan hpasses hcut, ?_, fun hall => ?_, ?_⟩
      · rw [hfees₄.sent, hfees, hcharged, hparked]
      · rcases hall with hsome | ⟨hdirect, hcount⟩
        · simp [htreasury] at hsome
        · rw [hnets₄.nets, ← hnets] at hcount
          rw [netSent, hnets₄.nets, ← netSent, hdelivered hdirect hcount, netSent, hnets]
          rfl
      · rw [handedOut, if_neg (by simp [htreasury])]
        exact h.cuts_add_up hbounds
  | some treasury =>
      simp only [htreasury] at hpay
      obtain ⟨_, u₄, hsend, hreturn⟩ := bind_ok.1 hpay
      obtain ⟨-, rfl⟩ := pure_ok.1 hreturn
      obtain ⟨hfees, hnet, hsum⟩ := payTreasury_sent h hbounds hadds hsend
      refine ⟨_, .treasury hempty htreasury hfee hplan hpasses, ?_, fun _ => ?_, ?_⟩
      · rw [hfees₄.sent, hfees, hcharged, hparked]
      · rw [netSent, hnets₄.nets, ← netSent, hnet, netSent, hnets]
        rfl
      · rw [handedOut, if_pos (by simp [htreasury])]
        exact hsum

/-- Protocol fee, platform fees, creator's fees and payouts stay within the funded amount exactly when the
protocol fee fits into what the shares leave of it. Unless rules of their own give the shares, nothing is
left, and the protocol fee has to be less than a unit. -/
theorem release_within_iff {depth : ℕ} {actor : Address} (hempty : inv.tranches = [])
    (hcharged : Charged env (s.entries id) inv)
    (hrun : releaseFull env (releaseWithin env depth) id inv actor s = .ok (v, t)) :
    ∃ u a platformFee, ReleasePays env id inv actor s u a ∧ totalPlatformFee env inv actor = .ok platformFee ∧
      (id ∉ forwardReach s id → ForwardsInto (forwardReach s id) inv →
        feesSent id t = feesSent id u ∧ netSent id t = netSent id u) ∧
      feesSent id u = feesSent id s + protocolFeeOf env inv + a.fees ∧
      (AllDelivered env id (s.entries id) inv s u → netSent id u = netSent id s + a.net) ∧
      (protocolFeeOf env inv + a.fees + a.net ≤ inv.funded ↔
        protocolFeeOf env inv ≤ inv.funded - handedOut env (s.entries id) inv platformFee) ∧
      (inv.ratios = [] → inv.splitRules = [] → (∃ r ∈ inv.recipients, r ∉ (s.entries id).paidRecipients) →
        Reachable env (s.entries id) inv →
        (protocolFeeOf env inv + a.fees + a.net ≤ inv.funded ↔ inv.funded * protocolRate env < 10000)) := by
  obtain ⟨platformFee, plan, failed, u, u₂, u₃, u₄, hfee, hplan, hpasses, hgroup, hinsurance, hforward,
    hfinish⟩ := releaseFull_passes hrun
  obtain ⟨a, hpays, hfees, hnets, hsum⟩ := payPasses_sent hempty hcharged hfee hplan hpasses
  refine ⟨u, a, platformFee, hpays, hfee, fun hacyclic hinto => ?_, hfees, hnets, ?_, ?_⟩
  · have hother : ∀ {m : ℕ} {p q : Purpose}, m ∈ others id → (⟨m, p⟩ : Memo) ≠ ⟨id, q⟩ :=
      fun hm h => hm (congrArg Memo.invoice h)
    have hcoversFee : Covers (others id) fun memo =>
        memo ≠ ⟨id, .protocolFee⟩ ∧ memo ≠ ⟨id, .platformFee⟩ ∧ memo ≠ ⟨id, .creatorFee⟩ :=
      ⟨fun _ hm _ => ⟨hother hm, hother hm, hother hm⟩⟩
    have hcoversNet : Covers (others id) fun memo =>
        memo ≠ ⟨id, .payout⟩ ∧ memo ≠ ⟨id, .stream⟩ ∧ memo ≠ ⟨id, .treasuryNet⟩ :=
      ⟨fun _ hm _ => ⟨hother hm, hother hm, hother hm⟩⟩
    have hnoFee : NoFee id u t := lastPasses_grows (by simp) (by simp) hacyclic hinto hpasses hgroup hinsurance
      hforward hfinish
    have hnoNet : NoNet id u t := lastPasses_grows (by simp) (by simp) hacyclic hinto hpasses hgroup hinsurance
      hforward hfinish
    exact ⟨hnoFee.sent, by rw [netSent, netSent, hnoNet.nets]⟩
  · constructor <;> intro h <;> linarith
  · intro hratios hrules hunpaid hreachable
    have hwhole := hcharged.handedOut_eq hplan hreachable
    rw [hcharged.sum_shares hplan hratios hrules hunpaid] at hwhole
    have hproduct : 0 ≤ inv.funded * protocolRate env := mul_nonneg hcharged.funded (Int.natCast_nonneg _)
    calc protocolFeeOf env inv + a.fees + a.net ≤ inv.funded
        ↔ protocolFeeOf env inv ≤ 0 := by constructor <;> intro h <;> linarith
      _ ↔ inv.funded * protocolRate env < 10000 := by
        unfold protocolFeeOf part
        omega

end Release

/-- A protocol fee that goes to address 8, next to a platform fee of 1%. -/
def protocolEnv (rate : ℕ) : Env := { sampleEnv 20 2000 with
  config := {
    platformFeeBps := 100
    treasury := some 7
    protocolFee := some ⟨rate, 8⟩ } }

/-- 1000 units for two recipients, of which the creator takes 2%. -/
def chargedInvoice : Invoice := { sampleInvoice with
  funded := 1000
  creatorFeeBps := 200 }

theorem chargedInvoice_charged (rate : ℕ) (hrate : rate ≤ 10000) :
    Charged (protocolEnv rate) ((sampleStore chargedInvoice []).entries 1) chargedInvoice where
  fees := by
    refine ⟨?_, ?_⟩
    · exact (by decide : 100 ≤ 10000)
    · rintro bs ⟨⟩
  tax := by decide
  funded := by decide
  word := by decide
  credit := by decide
  shares := by decide +kernel
  untaxed := rfl
  uncapped := fun _ => rfl
  unlocked := fun _ _ => rfl
  creatorFee := by decide
  rate := hrate
  feeRecipients := by rintro rs ⟨⟩
  fits := by decide +kernel

/-- At nine basis points the protocol fee on 1000 is less than a unit. -/
theorem release_within_sample :
    ∃ u a, ReleasePays (protocolEnv 9) 1 chargedInvoice 5 (sampleStore chargedInvoice []) u a ∧
      feesSent 1 u + a.net ≤ chargedInvoice.funded := by
  have hrun := ok_commit (x := releaseFull (protocolEnv 9) (releaseWithin (protocolEnv 9) 0) 1 chargedInvoice 5)
    (s := sampleStore chargedInvoice []) (a := ()) (by decide +kernel)
  obtain ⟨u, a, -, hpays, -, -, hfees, -, -, hwithin⟩ :=
    release_within_iff rfl (chargedInvoice_charged 9 (by norm_num)) hrun
  have hle := (hwithin rfl rfl ⟨10, by decide, by decide⟩ (.inr fun _ _ _ => rfl)).2 (by decide)
  have hstart : feesSent 1 (sampleStore chargedInvoice []) = 0 := rfl
  exact ⟨u, a, hpays, by linarith⟩

/-- At one percent 10 go to the protocol, and 1000 to the platform, the creator and the recipients. -/
theorem release_beyond_funded : ∃ t,
    releaseFull (protocolEnv 100) (releaseWithin (protocolEnv 100) 0) 1 chargedInvoice 5
      (sampleStore chargedInvoice []) = .ok ((), t) ∧
      t.log.map (fun m => (m.dst, m.amount)) = [(2, 18), (7, 10), (11, 486), (10, 486), (8, 10)] ∧
      feesSent 1 t + netSent 1 t = 1010 ∧ chargedInvoice.funded = 1000 := by
  refine ⟨_, ok_commit (x := releaseFull (protocolEnv 100) (releaseWithin (protocolEnv 100) 0) 1 chargedInvoice 5)
    (s := sampleStore chargedInvoice []) (a := ()) (by decide +kernel), ?_, ?_, rfl⟩
  · decide +kernel
  · decide +kernel

end StellarSplit.Split.ProtocolFees
