import Mathlib.Algebra.BigOperators.Ring.Finset
import StellarSplit.Lib.Proportion
import StellarSplit.Split.Outlays
import StellarSplit.Split.Records

/-!
# Plain full releases

A full release first plans the shares of the funded amount and adds up the platform fees
on them. A second pass works the fees out again, pays every recipient what they leave,
and sends the fees on. On an invoice without special rules the two passes agree, and
together they hand out the funded amount to the last unit.
-/

namespace StellarSplit.Split.PlainRelease

open Exec Function Machine Proportion

variable {env : Env} {s t u : Store} {v : Unit} {id : ℕ} {inv : Invoice} {e : Entry} {x : ℤ}

/-! ## Plain invoices -/

/-- An invoice without special rules under fee settings that the administrator's calls admit,
and what creation and payments promise of it. -/
structure PlainTerms (env : Env) (e : Entry) (inv : Invoice) : Prop where
  ratios : inv.ratios = []
  splitRules : inv.splitRules = []
  tax : inv.taxBps = 0
  protocolFee : ∀ cfg ∈ env.config.protocolFee, cfg.rateBps = 0
  caps : ∀ i, inv.recipientMaxPayouts.getD i none = none
  locks : ∀ r ∈ inv.recipients, e.recipientLock r = false
  unpaid : e.paidRecipients = []
  group : e.group = none
  treasury : e.treasury = none
  some_amount : inv.amounts ≠ []
  amounts : ∀ a ∈ inv.amounts, 0 < a
  length : inv.recipients.length = inv.amounts.length
  total : inv.total ≤ i128Max
  funded : 0 ≤ inv.funded
  word : inv.funded ≤ i128Max
  credit : 0 ≤ inv.earlyBirdFeeCredit
  fees : inv.creatorFeeBps + env.config.platformFeeBps ≤ 10000
  brackets : ∀ bs ∈ env.config.feeBrackets, ∀ b ∈ bs, b.rateBps ≤ 10000
  feeRecipients : ∀ rs ∈ env.config.feeRecipients, rs ≠ [] ∧ (rs.map FeeSplit.basisPoints).sum = 10000

/-- Payouts leave the contract as transfers of the funding token, to the recipients or to the
contract that streams to them. -/
structure DirectPayouts (env : Env) (inv : Invoice) : Prop where
  noSwap : ∀ i, inv.swapTokens.getD i none = none
  noRoute : inv.smartRoute = false
  stream : inv.convertToStream = true → env.config.streamContract.isSome = true

theorem PlainTerms.feesValid (h : PlainTerms env e inv) : FeesValid env :=
  ⟨by have := h.fees; omega, h.brackets⟩

theorem PlainTerms.creatorFee_le (h : PlainTerms env e inv) : inv.creatorFeeBps ≤ 10000 := by
  have := h.fees
  omega

/-- The platform fee is no more than the whole. -/
theorem PlainTerms.platformFee_bounds (h : PlainTerms env e inv) {actor : Address} {platformFee : ℤ}
    (hprice : totalPlatformFee env inv actor = .ok platformFee) : 0 ≤ platformFee ∧ platformFee ≤ inv.funded := by
  have hbounds := totalPlatformFee_bounds h.feesValid h.credit hprice
  have hfunded := h.funded
  omega

theorem PlainTerms.le_total (h : PlainTerms env e inv) {a : ℤ} (ha : a ∈ inv.amounts) : a ≤ inv.total :=
  List.single_le_sum (fun b hb => (h.amounts b hb).le) a ha

theorem PlainTerms.total_pos (h : PlainTerms env e inv) : 0 < inv.total := by
  obtain ⟨a, ha⟩ := List.exists_mem_of_ne_nil _ h.some_amount
  exact (h.amounts a ha).trans_le (h.le_total ha)

/-- Every share lies between nothing and the whole. -/
theorem PlainTerms.share_bounds (h : PlainTerms env e inv) :
    ∀ x ∈ partsWithRest inv.funded inv.total inv.amounts, 0 ≤ x ∧ x ≤ inv.funded := by
  have hnonneg := partsWithRest_nonneg h.total_pos rfl (fun a ha => (h.amounts a ha).le) h.funded
  intro x hx
  refine ⟨hnonneg x hx, ?_⟩
  rw [← sum_partsWithRest inv.funded inv.total inv.amounts]
  exact List.single_le_sum hnonneg x hx

/-! ## Fees on a share -/

/-- The platform fee on a share; a waived recipient pays none. -/
def shareFee (env : Env) (inv : Invoice) (platformFee : ℤ) (recipient : Address) (share : ℤ) : ℤ :=
  if env.config.recipientFeeWaivers.contains recipient then 0 else part platformFee inv.funded share

/-- The creator's fee on what the platform fee leaves of a share. -/
def shareCreatorFee (env : Env) (inv : Invoice) (platformFee : ℤ) (recipient : Address) (share : ℤ) : ℤ :=
  part (share - shareFee env inv platformFee recipient share) 10000 inv.creatorFeeBps

/-- What both fees leave of a share. -/
def netShare (env : Env) (inv : Invoice) (platformFee : ℤ) (recipient : Address) (share : ℤ) : ℤ :=
  share - shareFee env inv platformFee recipient share - shareCreatorFee env inv platformFee recipient share

section Fees

variable {platformFee share : ℤ} {recipient : Address}

theorem checkedProportion_ok {a b d : ℤ} :
    checkedProportion a b d = .ok x ↔ plainMulDiv (asU128 a) (asU128 b) (asU128 d) = .ok x := by
  unfold checkedProportion plainMulDiv
  cases checkedMulDiv (asU128 a) (asU128 b) (asU128 d) <;> simp

theorem checkedBpsOf_ok {a : ℤ} {bps d : ℕ} :
    checkedBpsOf a bps d = .ok x ↔ plainMulDiv (asU128 a) bps d = .ok x := by
  unfold checkedBpsOf plainMulDiv
  cases checkedMulDiv (asU128 a) bps d <;> simp

theorem checkedProportion_part {a b d : ℤ} (ha : 0 ≤ a ∧ a ≤ d) (hb : 0 ≤ b ∧ b ≤ i128Max) (hd : d ≤ i128Max)
    (h : checkedProportion a b d = .ok x) : x = part b d a :=
  plainMulDiv_eq_part hb ha.1 ha.2 hd ((plainMulDiv_comm _ _ _).trans (checkedProportion_ok.1 h))

theorem checkedProportion_iff {a b d : ℤ} (ha : 0 ≤ a ∧ a ≤ i128Max) (hb : 0 ≤ b ∧ b ≤ d) (hd : 0 < d ∧ d ≤ i128Max) :
    checkedProportion a b d = .ok x ↔ a * b ≤ u128Max ∧ x = part a d b := by
  obtain ⟨n, rfl⟩ := Int.eq_ofNat_of_zero_le ha.1
  obtain ⟨m, rfl⟩ := Int.eq_ofNat_of_zero_le hb.1
  obtain ⟨w, rfl⟩ := Int.eq_ofNat_of_zero_le hd.1.le
  have hm : (m : ℤ) ≤ i128Max := hb.2.trans hd.2
  have hpart : ∀ y, checkedProportion n m w = .ok y → y = part n w m := fun y h =>
    plainMulDiv_eq_part ha hb.1 hb.2 hd.2 (checkedProportion_ok.1 h)
  simp only [checkedProportion, asU128_natCast ha.2, asU128_natCast hm, asU128_natCast hd.2, checkedMulDiv,
    if_neg (by omega : w ≠ 0), checkedMulU128] at hpart ⊢
  by_cases hfits : n * m ≤ u128Max
  · rw [if_pos hfits] at hpart ⊢
    have hle : (n : ℤ) * m ≤ u128Max := by exact_mod_cast hfits
    refine ⟨fun h => ⟨hle, hpart x h⟩, fun h => ?_⟩
    obtain rfl := h.2
    exact congrArg Except.ok (hpart _ rfl)
  · rw [if_neg hfits]
    exact iff_of_false nofun fun h => hfits (by exact_mod_cast h.1)

theorem plainMulDiv_bps_part {a : ℤ} {bps : ℕ} (ha : 0 ≤ a ∧ a ≤ i128Max) (hbps : bps ≤ 10000)
    (h : plainMulDiv (asU128 a) bps 10000 = .ok x) : x = part a 10000 bps := by
  have hword : (10000 : ℤ) ≤ i128Max := by
    unfold i128Max
    norm_num
  have hrate : asU128 (bps : ℤ) = bps := asU128_natCast ((Int.ofNat_le.2 hbps).trans hword)
  refine plainMulDiv_eq_part ha (Int.natCast_nonneg bps) (Int.ofNat_le.2 hbps) hword ?_
  rw [hrate]
  exact h

theorem checkedBpsOf_zero {a : ℤ} (h : checkedBpsOf a 0 10000 = .ok x) : x = 0 := by
  obtain ⟨-, -, rfl⟩ := checkedMulDiv_eq (plainMulDiv_eq (checkedBpsOf_ok.1 h))
  rw [Nat.mul_zero, Nat.zero_div]
  rfl

theorem feeOnShare_plain (hshare : 0 ≤ share ∧ share ≤ inv.funded) (hword : inv.funded ≤ i128Max)
    (hfee : 0 ≤ platformFee ∧ platformFee ≤ inv.funded)
    (h : feeOnShare (env.config.recipientFeeWaivers.contains recipient) inv.funded platformFee share = .ok x) :
    x = shareFee env inv platformFee recipient share := by
  unfold feeOnShare at h
  unfold shareFee
  split_ifs at h with hnone
  · obtain rfl := Except.ok.inj h
    split_ifs with hwaived
    · rfl
    · rw [hnone.resolve_left hwaived, part, Int.ediv_zero]
  · rw [if_neg fun hwaived => hnone (.inl hwaived)]
    exact checkedProportion_part hshare ⟨hfee.1, hfee.2.trans hword⟩ hword h

theorem shareFee_bounds (env : Env) (recipient : Address) (hshare : 0 ≤ share ∧ share ≤ inv.funded)
    (hfee : 0 ≤ platformFee ∧ platformFee ≤ inv.funded) :
    0 ≤ shareFee env inv platformFee recipient share ∧
      shareFee env inv platformFee recipient share ≤ share := by
  have hfunded := hshare.1.trans hshare.2
  unfold shareFee
  split_ifs
  · exact ⟨le_rfl, hshare.1⟩
  · rw [part_comm]
    exact ⟨part_nonneg hshare.1 hfunded hfee.1, part_le hshare.1 hfunded hfee.2⟩

theorem shareCreatorFee_bounds (env : Env) (recipient : Address) (hshare : 0 ≤ share ∧ share ≤ inv.funded)
    (hfee : 0 ≤ platformFee ∧ platformFee ≤ inv.funded) (hcreator : inv.creatorFeeBps ≤ 10000) :
    0 ≤ shareCreatorFee env inv platformFee recipient share ∧
      0 ≤ netShare env inv platformFee recipient share := by
  have hleft := sub_nonneg.2 (shareFee_bounds env recipient hshare hfee).2
  exact ⟨part_nonneg hleft (by norm_num) (Int.natCast_nonneg _),
    sub_nonneg.2 (part_le hleft (by norm_num) (by exact_mod_cast hcreator))⟩

/-- The second pass takes the same fees off a share. -/
theorem netPayout_plain {net : ℤ × ℤ} (hplain : PlainTerms env e inv)
    (hshare : 0 ≤ share ∧ share ≤ inv.funded) (hfee : 0 ≤ platformFee ∧ platformFee ≤ inv.funded)
    (h : netPayout env inv platformFee recipient share = .ok net) :
    net = (netShare env inv platformFee recipient share, shareCreatorFee env inv platformFee recipient share) := by
  obtain ⟨tax, htaxed, h⟩ := except_bind_ok.1 h
  obtain ⟨fee, hfeed, h⟩ := except_bind_ok.1 h
  obtain ⟨creatorFee, hcut, h⟩ := except_bind_ok.1 h
  rw [hplain.tax] at htaxed
  obtain rfl := checkedBpsOf_zero htaxed
  rw [sub_zero] at h hfeed hcut
  have hword := hplain.word
  obtain rfl := feeOnShare_plain hshare hword hfee hfeed
  obtain ⟨hnonneg, hle⟩ := shareFee_bounds env recipient hshare hfee
  obtain rfl := plainMulDiv_bps_part ⟨by omega, by omega⟩ hplain.creatorFee_le (checkedBpsOf_ok.1 hcut)
  exact (Except.ok.inj h).symm

end Fees

/-! ## The planning pass -/

/-- The fees of all recipients on their shares. -/
def totalShareFee (env : Env) (inv : Invoice) (platformFee : ℤ) (pairs : List (Address × ℤ)) : ℤ :=
  (pairs.map fun p => shareFee env inv platformFee p.1 p.2).sum

theorem lastUnpaidIdx_unpaid (recipients : List Address) :
    lastUnpaidIdx recipients [] = recipients.length - 1 := by
  unfold lastUnpaidIdx
  rcases List.eq_nil_or_concat recipients with rfl | ⟨front, r, rfl⟩
  · rfl
  · rw [List.concat_eq_append, List.zipIdx_append, List.foldl_append, List.length_append]
    simp

section Planning

variable {platformFee amount : ℤ} {acc acc' plan : Plan} {r : Address} {i k : ℕ}

/-- One recipient of a plain plan. -/
theorem planStep_plain (hplain : PlainTerms env e inv) (hr : r ∈ inv.recipients)
    (hfee : 0 ≤ platformFee ∧ platformFee ≤ inv.funded) (hget : inv.amounts[i]? = some amount)
    (hx : x = if i + 1 = inv.recipients.length then inv.funded - acc.distributed
      else part inv.funded inv.total amount)
    (hbounds : 0 ≤ x ∧ x ≤ inv.funded)
    (hstep : planStep env inv [] e.recipientLock inv.total platformFee acc (r, i) = .ok acc') :
    acc' = { acc with
      payouts := acc.payouts ++ [x]
      distributed := acc.distributed + x
      totalFee := acc.totalFee + shareFee env inv platformFee r x } := by
  have hamount : amount ∈ inv.amounts := List.mem_of_getElem? hget
  obtain ⟨amount', hget', hstep⟩ := except_bind_ok.1 hstep
  obtain rfl : amount = amount' := Option.some.inj (hget.symm.trans (unwrap_ok.1 hget'))
  rw [if_neg List.not_mem_nil] at hstep
  obtain ⟨share, hshare, hstep⟩ := except_bind_ok.1 hstep
  have hlen : 0 < inv.recipients.length := List.length_pos_of_mem hr
  have heq : share = x := by
    unfold proportionalShare at hshare
    rw [if_neg (by simp [hplain.ratios]), if_neg (by simp [hplain.splitRules]), lastUnpaidIdx_unpaid] at hshare
    split_ifs at hshare hx with hlast hlast' hlast'
    · rw [hx]
      exact (Except.ok.inj hshare).symm
    · omega
    · omega
    · rw [hx]
      exact checkedProportion_part ⟨(hplain.amounts amount hamount).le, hplain.le_total hamount⟩
        ⟨hplain.funded, hplain.word⟩ hplain.total hshare
  subst heq
  have hcap : cappedShare inv i share = share := by
    unfold cappedShare
    rw [hplain.caps i]
  simp only [hcap, hplain.locks r hr, Bool.false_eq_true, if_false] at hstep
  obtain ⟨tax, htaxed, hstep⟩ := except_bind_ok.1 hstep
  obtain ⟨fee, hfeed, hstep⟩ := except_bind_ok.1 hstep
  rw [hplain.tax] at htaxed
  obtain rfl := checkedBpsOf_zero htaxed
  rw [sub_zero] at hfeed
  obtain rfl := feeOnShare_plain hbounds hplain.word hfee hfeed
  rw [← Except.ok.inj hstep, sub_self, add_zero, add_zero]

/-- The rest of the planning pass takes the remaining shares one after another. -/
theorem planFold_plain (hplain : PlainTerms env e inv) (hfee : 0 ≤ platformFee ∧ platformFee ≤ inv.funded)
    {rs : List Address} {as : List ℤ} (hrs : ∀ r ∈ rs, r ∈ inv.recipients) (hdrop : inv.amounts.drop k = as)
    (hlen : rs.length = as.length) (hend : k + rs.length = inv.recipients.length)
    (hbounds : ∀ x ∈ takeParts inv.funded inv.total (inv.funded - acc.distributed) as, 0 ≤ x ∧ x ≤ inv.funded)
    (h : (rs.zipIdx k).foldlM (planStep env inv [] e.recipientLock inv.total platformFee) acc = .ok plan) :
    plan = { acc with
      payouts := acc.payouts ++ takeParts inv.funded inv.total (inv.funded - acc.distributed) as
      distributed := acc.distributed + (takeParts inv.funded inv.total (inv.funded - acc.distributed) as).sum
      totalFee := acc.totalFee + totalShareFee env inv platformFee
        (rs.zip (takeParts inv.funded inv.total (inv.funded - acc.distributed) as)) } := by
  induction rs generalizing as k acc with
  | nil =>
      obtain rfl := Except.ok.inj h
      obtain rfl := List.length_eq_zero_iff.1 hlen.symm
      simp [takeParts, totalShareFee]
  | cons r rs ih =>
      cases as with
      | nil => cases hlen
      | cons a as =>
          have hget : inv.amounts[k]? = some a := by
            rw [← List.head?_drop, hdrop]
            rfl
          have hrest : inv.amounts.drop (k + 1) = as := by
            rw [← List.tail_drop, hdrop]
            rfl
          rw [List.zipIdx_cons, List.foldlM_cons] at h
          obtain ⟨mid, hfirst, hlater⟩ := except_bind_ok.1 h
          rw [takeParts_cons] at hbounds ⊢
          have hlast : as = [] ↔ k + 1 = inv.recipients.length := by
            rw [← List.length_eq_zero_iff]
            simp only [List.length_cons] at hlen hend
            omega
          simp only [hlast] at hbounds ⊢
          obtain rfl := planStep_plain hplain (hrs r (by simp)) hfee hget rfl (hbounds _ (by simp)) hfirst
          simp only [sub_sub] at hbounds ⊢
          have hshares := ih (fun q hq => hrs q (List.mem_cons_of_mem r hq)) hrest (Nat.succ.inj hlen)
            (by simpa [Nat.add_assoc, Nat.add_comm 1] using hend)
            (fun y hy => hbounds y (List.mem_cons_of_mem _ hy)) hlater
          rw [hshares]
          simp [totalShareFee, add_assoc]

/-- A plain plan divides the whole funded amount, and keeps nothing back. -/
theorem planPayouts_plain (hplain : PlainTerms env e inv)
    (hfee : 0 ≤ platformFee ∧ platformFee ≤ inv.funded)
    (h : planPayouts env inv e.paidRecipients e.recipientLock platformFee = .ok plan) :
    plan = {
      payouts := partsWithRest inv.funded inv.total inv.amounts
      distributed := inv.funded
      totalFee := totalShareFee env inv platformFee
        (inv.recipients.zip (partsWithRest inv.funded inv.total inv.amounts)) } := by
  rw [hplain.unpaid] at h
  obtain ⟨effective, heffective, h⟩ := except_bind_ok.1 h
  obtain rfl := Except.ok.inj heffective
  have hparts : takeParts inv.funded inv.total (inv.funded - ({} : Plan).distributed) inv.amounts =
      partsWithRest inv.funded inv.total inv.amounts := by
    rw [sub_zero, takeParts_self hplain.some_amount]
  have hplan := planFold_plain hplain hfee (fun r hr => hr) List.drop_zero hplain.length (Nat.zero_add _)
    (by rw [hparts]; exact hplain.share_bounds) h
  rw [hplan, hparts, sum_partsWithRest]
  simp

end Planning

/-! ## The transfer pass -/

/-- The transfer of a payout to the recipient, or to the contract that streams to it. -/
def payoutMovement (env : Env) (id : ℕ) (inv : Invoice) (recipient : Address) (amount : ℤ) : Transfer Memo :=
  match if inv.convertToStream then env.config.streamContract else none with
  | some stream => ⟨fundingTokenFor inv, currentContract, stream, amount, ⟨id, .stream⟩⟩
  | none => ⟨fundingTokenFor inv, currentContract, recipient, amount, ⟨id, .payout⟩⟩

def isPayout (id : ℕ) (m : Transfer Memo) : Bool := m.memo = ⟨id, .payout⟩ ∨ m.memo = ⟨id, .stream⟩

/-- The payouts of an invoice in a list of movements. -/
def payoutsOf (id : ℕ) (moved : List (Transfer Memo)) : List (Transfer Memo) := moved.filter (isPayout id)

/-- The payout of what both fees leave of a share. -/
def netPayoutMovement (env : Env) (id : ℕ) (inv : Invoice) (platformFee : ℤ) (p : Address × ℤ) : Transfer Memo :=
  payoutMovement env id inv p.1 (netShare env inv platformFee p.1 p.2)

/-- The creator's fees on the shares of all recipients. -/
def totalCreatorFee (env : Env) (inv : Invoice) (platformFee : ℤ) (pairs : List (Address × ℤ)) : ℤ :=
  (pairs.map fun p => shareCreatorFee env inv platformFee p.1 p.2).sum

/-- The movements between two storages of one history, the oldest first. -/
def movedBetween (s t : Store) : List (Transfer Memo) := (t.log.take (t.log.length - s.log.length)).reverse

theorem movedBetween_eq {new : List (Transfer Memo)} (h : t.log = new ++ s.log) :
    movedBetween s t = new.reverse := by
  unfold movedBetween
  rw [h, List.length_append, Nat.add_sub_cancel, List.take_left']
  rfl

theorem payoutsOf_append (l₁ l₂ : List (Transfer Memo)) :
    payoutsOf id (l₁ ++ l₂) = payoutsOf id l₁ ++ payoutsOf id l₂ := List.filter_append l₁ l₂

theorem payoutsOf_reverse (l : List (Transfer Memo)) : payoutsOf id l.reverse = (payoutsOf id l).reverse :=
  List.filter_reverse

theorem payoutsOf_none {l : List (Transfer Memo)} (h : ∀ m ∈ l, isPayout id m = false) : payoutsOf id l = [] :=
  List.filter_eq_nil_iff.2 fun m hm => by simp [h m hm]

theorem isPayout_payoutMovement {r : Address} : isPayout id (payoutMovement env id inv r x) = true := by
  unfold payoutMovement isPayout
  split <;> simp

/-- A direct payout is one transfer, or none when the token refuses it. -/
theorem deliverPayout_direct {i : ℕ} {r : Address} {success : Bool} (hdirect : DirectPayouts env inv)
    (hrun : deliverPayout env id inv i r x s = .ok (success, t)) :
    t.log = payoutMovement env id inv r x :: s.log ∨ t.log = s.log := by
  have htried : ∀ {token dst : Address} {memo : Memo} {sent : Bool} {w : Store},
      tryTransfer env token dst x memo s = .ok (sent, w) →
        w.log = ⟨token, currentContract, dst, x, memo⟩ :: s.log ∨ w.log = s.log := by
    intro token dst memo sent w htry
    obtain ⟨-, rfl⟩ := tryTransfer_ok.1 htry
    cases sent
    · exact .inr rfl
    · exact .inl rfl
  unfold deliverPayout at hrun
  unfold payoutMovement
  rw [hdirect.noSwap i] at hrun
  simp only [hdirect.noRoute, Bool.false_eq_true, if_false] at hrun
  by_cases hstream : inv.convertToStream = true
  · obtain ⟨stream, hcontract⟩ := Option.isSome_iff_exists.1 (hdirect.stream hstream)
    rw [if_pos hstream, hcontract] at hrun ⊢
    obtain ⟨sent, w, htry, hrun⟩ := bind_ok.1 hrun
    obtain ⟨-, rfl⟩ := pure_ok.1 hrun
    exact htried htry
  · rw [if_neg hstream] at hrun ⊢
    obtain ⟨routed, w, hrouted, hrun⟩ := bind_ok.1 hrun
    obtain ⟨rfl, rfl⟩ := executeSmartRoute_off hdirect.noRoute hrouted
    exact htried hrun

section Paying

variable {platformFee share : ℤ} {plan : Plan} {acc acc' : Pass} {r : Address} {i k : ℕ}

/-- What the transfer pass moves for some recipients with their shares: their payouts, and taxes
of nothing. As long as no payout is missing, these are the net shares, and the rest of the shares
is put by for the creator or was counted as platform fee. -/
structure Paid (env : Env) (id : ℕ) (inv : Invoice) (platformFee : ℤ) (pairs : List (Address × ℤ))
    (acc acc' : Pass) (new : List (Transfer Memo)) : Prop where
  kinds : ∀ m ∈ new, isPayout id m = true ∨ m.memo = ⟨id, .tax⟩ ∧ m.amount = 0
  count : (payoutsOf id new).length ≤ pairs.length
  bounds : acc.creatorFee ≤ acc'.creatorFee ∧
    acc'.creatorFee ≤ acc.creatorFee + totalCreatorFee env inv platformFee pairs
  exact : (payoutsOf id new).length = pairs.length →
    payoutsOf id new.reverse = pairs.map (netPayoutMovement env id inv platformFee) ∧
      acc'.creatorFee = acc.creatorFee + totalCreatorFee env inv platformFee pairs

/-- Nothing went out for a recipient. -/
theorem Paid.missing {new : List (Transfer Memo)}
    (hkinds : ∀ m ∈ new, m.memo = ⟨id, .tax⟩ ∧ m.amount = 0)
    (hbounds : acc.creatorFee ≤ acc'.creatorFee ∧
      acc'.creatorFee ≤ acc.creatorFee + shareCreatorFee env inv platformFee r share) :
    Paid env id inv platformFee [(r, share)] acc acc' new := by
  have hnone : payoutsOf id new = [] := payoutsOf_none fun m hm => by simp [isPayout, (hkinds m hm).1]
  refine ⟨fun m hm => .inr (hkinds m hm), by simp [hnone], by simpa [totalCreatorFee] using hbounds,
    fun hcount => ?_⟩
  rw [hnone] at hcount
  cases hcount

theorem totalCreatorFee_append (env : Env) (inv : Invoice) (platformFee : ℤ) (ps qs : List (Address × ℤ)) :
    totalCreatorFee env inv platformFee (ps ++ qs) =
      totalCreatorFee env inv platformFee ps + totalCreatorFee env inv platformFee qs := by
  simp [totalCreatorFee]

/-- Two stretches of the pass make one. -/
theorem Paid.trans {ps qs : List (Address × ℤ)} {mid : Pass} {new₁ new₂ : List (Transfer Memo)}
    (h₁ : Paid env id inv platformFee ps acc mid new₁) (h₂ : Paid env id inv platformFee qs mid acc' new₂) :
    Paid env id inv platformFee (ps ++ qs) acc acc' (new₂ ++ new₁) := by
  have hsplit : (payoutsOf id (new₂ ++ new₁)).length = (payoutsOf id new₂).length + (payoutsOf id new₁).length := by
    rw [payoutsOf_append, List.length_append]
  have hle₁ := h₁.count
  have hle₂ := h₂.count
  have hsum := totalCreatorFee_append env inv platformFee ps qs
  refine ⟨fun m hm => ?_, ?_, ?_, fun hcount => ?_⟩
  · exact (List.mem_append.1 hm).elim (h₂.kinds m) (h₁.kinds m)
  · rw [hsplit, List.length_append]
    omega
  · have hb₁ := h₁.bounds
    have hb₂ := h₂.bounds
    omega
  · -- all payouts are there only if they are in both stretches
    rw [hsplit, List.length_append] at hcount
    obtain ⟨hpaid₁, hfee₁⟩ := h₁.exact (by omega)
    obtain ⟨hpaid₂, hfee₂⟩ := h₂.exact (by omega)
    rw [List.reverse_append, payoutsOf_append, hpaid₁, hpaid₂, List.map_append]
    exact ⟨rfl, by omega⟩

theorem transferIfSet_zero {token : Address} {dst : Option Address}
    (hrun : transferIfSet env token dst 0 ⟨id, .tax⟩ s = .ok (v, t)) :
    ∃ new, t.log = new ++ s.log ∧ ∀ m ∈ new, m.memo = ⟨id, .tax⟩ ∧ m.amount = 0 := by
  cases dst with
  | none =>
      obtain ⟨-, rfl⟩ := pure_ok.1 hrun
      exact ⟨[], rfl, by simp⟩
  | some a =>
      obtain ⟨-, rfl⟩ := transfer_ok.1 hrun
      exact ⟨[_], rfl, by simp⟩

/-- One recipient of the transfer pass. -/
theorem payRecipient_plain (hplain : PlainTerms env e inv) (hdirect : DirectPayouts env inv)
    (hfee : 0 ≤ platformFee ∧ platformFee ≤ inv.funded) (hshare : 0 ≤ share ∧ share ≤ inv.funded)
    (hget : plan.payouts[i]? = some share) (htotal : plan.totalTax = 0)
    (hlock : (s.entries id).recipientLock r = false)
    (hacc : 0 ≤ acc.creatorFee ∧
      acc.creatorFee + shareCreatorFee env inv platformFee r share ≤ i128Max)
    (hrun : payRecipient env id inv [] platformFee plan acc (r, i) s = .ok (acc', t)) :
    ∃ new, t.log = new ++ s.log ∧ Paid env id inv platformFee [(r, share)] acc acc' new := by
  unfold payRecipient at hrun
  rw [hget, htotal] at hrun
  obtain ⟨share', hshare', hrun⟩ := ofResult_bind.1 hrun
  obtain rfl := Option.some.inj (unwrap_ok.1 hshare')
  rw [getEntry_bind, if_neg (by simp [hlock])] at hrun
  have hcut := (shareCreatorFee_bounds env r hshare hfee hplain.creatorFee_le).1
  split_ifs at hrun with hmissing
  · obtain ⟨_, w, hmark, hrun⟩ := bind_ok.1 hrun
    obtain ⟨rfl, rfl⟩ := pure_ok.1 hrun
    exact ⟨[], log_modifyEntry hmark, .missing (by simp) ⟨le_rfl, by omega⟩⟩
  · obtain ⟨net, hnet, hrun⟩ := ofResult_bind.1 hrun
    obtain ⟨success, u₁, hdeliver, hrun⟩ := bind_ok.1 hrun
    obtain ⟨_, u₂, hfailure, hrun⟩ := bind_ok.1 hrun
    obtain ⟨_, u₃, htaxed, hrun⟩ := bind_ok.1 hrun
    obtain ⟨rfl, rfl⟩ := pure_ok.1 hrun
    obtain rfl := netPayout_plain hplain hshare hfee hnet
    obtain ⟨taxes, hlog, htaxes⟩ := transferIfSet_zero htaxed
    have hadded : satAddI128 acc.creatorFee (shareCreatorFee env inv platformFee r share) =
        acc.creatorFee + shareCreatorFee env inv platformFee r share :=
      satAddI128_of_word (add_nonneg hacc.1 hcut) hacc.2
    have hput : acc.creatorFee ≤ satAddI128 acc.creatorFee (shareCreatorFee env inv platformFee r share) := by
      omega
    have hsame : u₂.log = u₁.log := by
      rcases onlyIf_ok.1 hfailure with ⟨-, hrecord⟩ | ⟨-, rfl⟩
      · exact log_recordFailure hrecord
      · rfl
    rcases deliverPayout_direct hdirect hdeliver with hpaid | hunpaid
    · refine ⟨taxes ++ [netPayoutMovement env id inv platformFee (r, share)],
        by rw [hlog, hsame, hpaid, List.append_assoc]; rfl, ?_⟩
      have hkind : isPayout id (netPayoutMovement env id inv platformFee (r, share)) = true :=
        isPayout_payoutMovement
      have hone : payoutsOf id (taxes ++ [netPayoutMovement env id inv platformFee (r, share)]) =
          [netPayoutMovement env id inv platformFee (r, share)] := by
        rw [payoutsOf_append, payoutsOf_none fun m hm => by simp [isPayout, (htaxes m hm).1], payoutsOf,
          List.filter_cons_of_pos hkind]
        rfl
      have htotal : totalCreatorFee env inv platformFee [(r, share)] =
          shareCreatorFee env inv platformFee r share := by
        rw [totalCreatorFee, List.map_singleton, List.sum_singleton]
      refine ⟨fun m hm => ?_, by rw [hone]; exact le_rfl, ?_, fun _ => ⟨?_, ?_⟩⟩
      · rcases List.mem_append.1 hm with hm | hm
        · exact .inr (htaxes m hm)
        · rw [List.mem_singleton.1 hm]
          exact .inl hkind
      · rw [htotal]
        exact ⟨hput, hadded.le⟩
      · rw [payoutsOf_reverse, hone]
        rfl
      · rw [htotal]
        exact hadded
    · exact ⟨taxes, by rw [hlog, hsame, hunpaid], .missing htaxes ⟨hput, hadded.le⟩⟩

/-- The rest of the transfer pass pays the remaining shares. -/
theorem payEach_plain (hplain : PlainTerms env e inv) (hdirect : DirectPayouts env inv)
    (hfee : 0 ≤ platformFee ∧ platformFee ≤ inv.funded) (htotal : plan.totalTax = 0)
    {rs : List Address} {shares : List ℤ} (hshares : ∀ x ∈ shares, 0 ≤ x ∧ x ≤ inv.funded)
    (hdrop : plan.payouts.drop k = shares) (hlen : rs.length = shares.length)
    (hlocks : ∀ r ∈ rs, (s.entries id).recipientLock r = false)
    (hacc : 0 ≤ acc.creatorFee ∧
      acc.creatorFee + totalCreatorFee env inv platformFee (rs.zip shares) ≤ i128Max)
    (hrun : (rs.zipIdx k).foldlM (payRecipient env id inv [] platformFee plan) acc s = .ok (acc', t)) :
    ∃ new, t.log = new ++ s.log ∧ Paid env id inv platformFee (rs.zip shares) acc acc' new := by
  induction rs generalizing shares k acc s with
  | nil =>
      obtain ⟨rfl, rfl⟩ := pure_ok.1 hrun
      refine ⟨[], rfl, by simp, Nat.zero_le _, ?_, fun _ => ⟨rfl, ?_⟩⟩
      · simp [totalCreatorFee]
      · simp [totalCreatorFee]
  | cons r rs ih =>
      cases shares with
      | nil => cases hlen
      | cons share shares =>
          have hget : plan.payouts[k]? = some share := by
            rw [← List.head?_drop, hdrop]
            rfl
          have hrest : plan.payouts.drop (k + 1) = shares := by
            rw [← List.tail_drop, hdrop]
            rfl
          rw [List.zipIdx_cons, List.foldlM_cons] at hrun
          obtain ⟨mid, u, hfirst, hlater⟩ := bind_ok.1 hrun
          rw [List.zip_cons_cons] at hacc ⊢
          have hsplit := totalCreatorFee_append env inv platformFee [(r, share)] (rs.zip shares)
          have hcuts : 0 ≤ totalCreatorFee env inv platformFee (rs.zip shares) := by
            refine List.sum_nonneg fun y hy => ?_
            obtain ⟨p, hp, rfl⟩ := List.mem_map.1 hy
            have hp' := hshares p.2 (List.mem_cons_of_mem _ (List.of_mem_zip hp).2)
            exact (shareCreatorFee_bounds env p.1 hp' hfee hplain.creatorFee_le).1
          have hcut : totalCreatorFee env inv platformFee [(r, share)] =
              shareCreatorFee env inv platformFee r share := by
            rw [totalCreatorFee, List.map_singleton, List.sum_singleton]
          rw [List.singleton_append] at hsplit
          obtain ⟨new₁, hlog₁, hpaid₁⟩ := payRecipient_plain hplain hdirect hfee
            (hshares share (by simp)) hget htotal (hlocks r (by simp)) ⟨hacc.1, by omega⟩ hfirst
          have hplanned : Keeps Entry.planned s u := framed_payRecipient.respects s _ u hfirst
          have hlock : (u.entries id).recipientLock = (s.entries id).recipientLock :=
            congrArg (fun q => q.2.2) (hplanned id)
          have hbounds := hpaid₁.bounds
          obtain ⟨new₂, hlog₂, hpaid₂⟩ := ih (fun y hy => hshares y (List.mem_cons_of_mem _ hy)) hrest
            (Nat.succ.inj hlen) (fun q hq => by rw [hlock]; exact hlocks q (List.mem_cons_of_mem r hq))
            ⟨by omega, by omega⟩ hlater
          exact ⟨new₂ ++ new₁, by rw [hlog₂, hlog₁, List.append_assoc], hpaid₁.trans hpaid₂⟩

end Paying

/-! ## The fees sent on -/

/-- A transfer out of the contract, in the funding token of the invoice. -/
def SentOut (inv : Invoice) (m : Transfer Memo) : Prop :=
  m.token = fundingTokenFor inv ∧ m.src = currentContract ∧ 0 ≤ m.amount

/-- The addresses that share the platform fee. -/
def feeAddresses (env : Env) : List Address :=
  (env.config.feeRecipients.map fun rs => rs.map FeeSplit.address).getD env.config.treasury.toList

section SendingFees

variable {totalFee amount : ℤ} {dst : Address} {memo : Memo}

/-- An amount that is not negative leaves in one transfer, or in none when it is zero. -/
theorem transferPositive_sent (hamount : 0 ≤ amount)
    (hrun : transferPositive env (fundingTokenFor inv) dst amount memo s = .ok (v, t)) :
    ∃ new, t.log = new ++ s.log ∧ (new.map Transfer.amount).sum = amount ∧
      ∀ m ∈ new, SentOut inv m ∧ m.memo = memo ∧ m.dst = dst := by
  rcases transferPositive_ok.1 hrun with ⟨-, -, rfl⟩ | ⟨hnot, rfl⟩
  · exact ⟨[_], rfl, by simp, by simpa [SentOut] using hamount⟩
  · exact ⟨[], rfl, by simp only [List.map_nil, List.sum_nil]; omega, by simp⟩

theorem transferEach_sent {shares : List (Address × ℤ)} (hshares : ∀ p ∈ shares, 0 ≤ p.2)
    (hrun : forM shares (fun p => transferPositive env (fundingTokenFor inv) p.1 p.2 memo) s = .ok (v, t)) :
    ∃ new, t.log = new ++ s.log ∧ (new.map Transfer.amount).sum = (shares.map Prod.snd).sum ∧
      ∀ m ∈ new, SentOut inv m ∧ m.memo = memo ∧ m.dst ∈ shares.map Prod.fst := by
  induction shares generalizing s with
  | nil =>
      obtain ⟨-, rfl⟩ := pure_ok.1 hrun
      exact ⟨[], rfl, rfl, by simp⟩
  | cons p shares ih =>
      rw [List.forM_cons] at hrun
      obtain ⟨_, u, hfirst, hrest⟩ := bind_ok.1 hrun
      obtain ⟨new₁, hlog₁, hsum₁, hsent₁⟩ := transferPositive_sent (hshares p (by simp)) hfirst
      obtain ⟨new₂, hlog₂, hsum₂, hsent₂⟩ := ih (fun q hq => hshares q (List.mem_cons_of_mem p hq)) hrest
      refine ⟨new₂ ++ new₁, by rw [hlog₂, hlog₁, List.append_assoc], ?_, fun m hm => ?_⟩
      · rw [List.map_append, List.sum_append, hsum₁, hsum₂, List.map_cons, List.sum_cons, add_comm]
      · rcases List.mem_append.1 hm with hm | hm
        · obtain ⟨hsent, hmemo, hdst⟩ := hsent₂ m hm
          exact ⟨hsent, hmemo, List.mem_cons_of_mem _ hdst⟩
        · obtain ⟨hsent, hmemo, hdst⟩ := hsent₁ m hm
          exact ⟨hsent, hmemo, by rw [hdst]; simp⟩

/-- The fee recipients take their parts of the fee one after another. -/
theorem feeShares_parts {rs : List FeeSplit} {distributed : ℤ} {shares : List (Address × ℤ)}
    (hfee : 0 ≤ totalFee ∧ totalFee ≤ i128Max) (hrates : ∀ r ∈ rs, r.basisPoints ≤ 10000)
    (h : feeShares totalFee rs distributed = .ok shares) :
    shares = (rs.map FeeSplit.address).zip
      (takeParts totalFee 10000 (totalFee - distributed) (rs.map fun r => (r.basisPoints : ℤ))) := by
  induction rs generalizing distributed shares with
  | nil => exact (Except.ok.inj h).symm
  | cons r rs ih =>
      cases rs with
      | nil => exact (Except.ok.inj h).symm
      | cons q rs =>
          obtain ⟨share, hshare, h⟩ := except_bind_ok.1 h
          obtain ⟨rest, hrest, h⟩ := except_bind_ok.1 h
          obtain rfl := plainMulDiv_bps_part hfee (hrates r (by simp)) hshare
          change shares = (r.address :: (q :: rs).map FeeSplit.address).zip (takeParts totalFee 10000
            (totalFee - distributed) ((r.basisPoints : ℤ) :: (q :: rs).map fun r => (r.basisPoints : ℤ)))
          rw [← Except.ok.inj h, ih (fun q hq => hrates q (List.mem_cons_of_mem r hq)) hrest, takeParts_cons,
            if_neg (by simp), List.zip_cons_cons, sub_sub]

/-- Rates that make up the whole divide the fee exactly. -/
theorem feeShares_whole {rs : List FeeSplit} {shares : List (Address × ℤ)}
    (hfee : 0 ≤ totalFee ∧ totalFee ≤ i128Max) (hne : rs ≠ []) (hsum : (rs.map FeeSplit.basisPoints).sum = 10000)
    (h : feeShares totalFee rs 0 = .ok shares) :
    (shares.map Prod.snd).sum = totalFee ∧ (∀ p ∈ shares, 0 ≤ p.2) ∧
      shares.map Prod.fst = rs.map FeeSplit.address := by
  have hrates : ∀ r ∈ rs, r.basisPoints ≤ 10000 := by
    intro r hr
    rw [← hsum]
    exact List.single_le_sum (fun _ _ => Nat.zero_le _) _ (List.mem_map_of_mem hr)
  have hweights : (rs.map fun r => (r.basisPoints : ℤ)).sum = 10000 := by
    have hcast : ((rs.map FeeSplit.basisPoints).sum : ℤ) = 10000 := by exact_mod_cast hsum
    rw [← hcast, Nat.cast_list_sum, List.map_map]
    rfl
  have hne' : (rs.map fun r => (r.basisPoints : ℤ)) ≠ [] := by simpa using hne
  have hparts := feeShares_parts hfee hrates h
  rw [sub_zero, takeParts_self hne'] at hparts
  have hlen : (rs.map FeeSplit.address).length =
      (partsWithRest totalFee 10000 (rs.map fun r => (r.basisPoints : ℤ))).length := by
    rw [length_partsWithRest hne', List.length_map, List.length_map]
  have hsnd : shares.map Prod.snd = partsWithRest totalFee 10000 (rs.map fun r => (r.basisPoints : ℤ)) := by
    rw [hparts, List.map_snd_zip hlen.ge]
  refine ⟨by rw [hsnd, sum_partsWithRest], fun p hp => ?_, by rw [hparts, List.map_fst_zip hlen.le]⟩
  refine partsWithRest_nonneg (by norm_num) hweights (fun w hw => ?_) hfee.1 p.2 ?_
  · obtain ⟨r, -, rfl⟩ := List.mem_map.1 hw
    exact Int.natCast_nonneg _
  · rw [← hsnd]
    exact List.mem_map_of_mem hp

/-- The platform fee goes to its recipients to the last unit. -/
theorem payPlatformFee_sent
    (hfeeRecipients : ∀ rs ∈ env.config.feeRecipients, rs ≠ [] ∧ (rs.map FeeSplit.basisPoints).sum = 10000)
    (hfee : 0 ≤ totalFee ∧ totalFee ≤ i128Max)
    (hrun : payPlatformFee env id totalFee (fundingTokenFor inv) s = .ok (v, t)) :
    ∃ new, t.log = new ++ s.log ∧ (new.map Transfer.amount).sum = totalFee ∧
      ∀ m ∈ new, SentOut inv m ∧ m.memo = ⟨id, .platformFee⟩ ∧ m.dst ∈ feeAddresses env := by
  rcases onlyIf_ok.1 hrun with ⟨hpos, hrun⟩ | ⟨hnot, rfl⟩
  · obtain ⟨treasury, htreasury, hrun⟩ := orPanic_bind.1 hrun
    unfold distributeFee at hrun
    rcases onlyIf_ok.1 hrun with ⟨-, hrun⟩ | ⟨hnot, -⟩
    · obtain ⟨shares, hshares, hrun⟩ := ofResult_bind.1 hrun
      have hsplits : env.config.feeRecipients.getD [⟨treasury, 10000⟩] ≠ [] ∧
          ((env.config.feeRecipients.getD [⟨treasury, 10000⟩]).map FeeSplit.basisPoints).sum = 10000 := by
        cases hset : env.config.feeRecipients with
        | none => simp
        | some rs => exact hfeeRecipients rs hset
      obtain ⟨hsum, hnonneg, haddresses⟩ := feeShares_whole hfee hsplits.1 hsplits.2 hshares
      obtain ⟨new, hlog, hsent, hnew⟩ := transferEach_sent hnonneg hrun
      refine ⟨new, hlog, hsent.trans hsum, fun m hm => ?_⟩
      obtain ⟨hout, hmemo, hdst⟩ := hnew m hm
      refine ⟨hout, hmemo, ?_⟩
      rw [haddresses] at hdst
      unfold feeAddresses
      rw [htreasury]
      cases hset : env.config.feeRecipients with
      | none => simpa [hset] using hdst
      | some rs => simpa [hset] using hdst
    · exact absurd hpos hnot
  · exact ⟨[], rfl, by simp only [List.map_nil, List.sum_nil]; omega, by simp⟩

end SendingFees

/-! ## The whole release -/

/-- What a release sends on of the funded amount: payouts, the platform fee and the creator's. -/
def sentOn (id : ℕ) (m : Transfer Memo) : Bool :=
  isPayout id m || (m.memo = ⟨id, .platformFee⟩ ∨ m.memo = ⟨id, .creatorFee⟩)

/-- The movements of a release hand out the funded amount: what it sends on goes out in the
funding token to the recipients, the fee recipients and the creator, and sums to the funded
amount; a recipient gets what the fees leave of the share in the plan. -/
structure Conserved (env : Env) (id : ℕ) (inv : Invoice) (e : Entry) (actor : Address)
    (moved : List (Transfer Memo)) : Prop where
  whole : tally (sentOn id) moved = inv.funded
  sent : ∀ m ∈ moved, sentOn id m = true → SentOut inv m
  platformFee : ∀ m ∈ moved, m.memo = ⟨id, .platformFee⟩ → m.dst ∈ feeAddresses env
  creatorFee : ∀ m ∈ moved, m.memo = ⟨id, .creatorFee⟩ → m.dst = inv.creator
  others : ∀ m ∈ moved, sentOn id m = true ∨ (m.memo = ⟨id, .tax⟩ ∧ m.amount = 0) ∨
    m.memo = ⟨id, .bonus⟩ ∨ m.memo = ⟨id, .insurance⟩
  payouts : ∃ platformFee plan, totalPlatformFee env inv actor = .ok platformFee ∧
    planPayouts env inv e.paidRecipients e.recipientLock platformFee = .ok plan ∧
    plan.payouts = partsWithRest inv.funded inv.total inv.amounts ∧
    payoutsOf id moved = (inv.recipients.zip plan.payouts).map (netPayoutMovement env id inv platformFee)

section Release

variable {platformFee : ℤ} {plan : Plan} {actor : Address} {next : ℕ → Invoice → Address → SplitM Unit}

/-- What the fees take off the shares and what they leave make up the shares. -/
theorem sum_shares (env : Env) (inv : Invoice) (platformFee : ℤ) (pairs : List (Address × ℤ)) :
    (pairs.map fun p => netShare env inv platformFee p.1 p.2).sum + totalShareFee env inv platformFee pairs +
      totalCreatorFee env inv platformFee pairs = (pairs.map Prod.snd).sum := by
  induction pairs with
  | nil => rfl
  | cons p pairs ih =>
      simp only [totalShareFee, totalCreatorFee, List.map_cons, List.sum_cons] at ih ⊢
      have hsplit : netShare env inv platformFee p.1 p.2 =
        p.2 - shareFee env inv platformFee p.1 p.2 - shareCreatorFee env inv platformFee p.1 p.2 := rfl
      omega

theorem payoutMovement_amount (r : Address) (x : ℤ) : (payoutMovement env id inv r x).amount = x := by
  unfold payoutMovement
  split <;> rfl

theorem payoutMovement_sentOut {r : Address} (hx : 0 ≤ x) : SentOut inv (payoutMovement env id inv r x) := by
  unfold payoutMovement SentOut
  split <;> exact ⟨rfl, rfl, hx⟩

/-- The protocol takes nothing of a plain release. -/
theorem payProtocolFee_plain (hplain : PlainTerms env e inv)
    (hrun : payProtocolFee env id inv s = .ok (v, t)) : s = t := by
  unfold payProtocolFee at hrun
  cases hset : env.config.protocolFee with
  | none =>
      rw [hset] at hrun
      exact (pure_ok.1 hrun).2
  | some cfg =>
      rw [hset] at hrun
      rcases onlyIf_ok.1 hrun with ⟨hrate, -⟩ | ⟨-, rfl⟩
      · rw [hplain.protocolFee cfg hset] at hrate
        exact absurd hrate (lt_irrefl 0)
      · rfl

theorem planLeftover_plain (hfunded : 0 ≤ inv.funded) (hword : inv.funded ≤ i128Max)
    (hdistributed : plan.distributed = inv.funded) (hsurplus : plan.surplus = 0) : planLeftover inv plan = 0 := by
  unfold planLeftover
  rw [hdistributed, hsurplus, satAddI128_of_word (by omega) (by omega), add_zero, checkedSubI128, sub_self]
  split_ifs <;> rfl

/-- No fee and no payout on the shares is negative. -/
theorem shares_nonneg (env : Env) {pairs : List (Address × ℤ)} (hshares : ∀ p ∈ pairs, 0 ≤ p.2 ∧ p.2 ≤ inv.funded)
    (hfee : 0 ≤ platformFee ∧ platformFee ≤ inv.funded) (hcreator : inv.creatorFeeBps ≤ 10000) :
    0 ≤ (pairs.map fun p => netShare env inv platformFee p.1 p.2).sum ∧
      0 ≤ totalShareFee env inv platformFee pairs ∧ 0 ≤ totalCreatorFee env inv platformFee pairs := by
  refine ⟨List.sum_nonneg fun y hy => ?_, List.sum_nonneg fun y hy => ?_, List.sum_nonneg fun y hy => ?_⟩
  · obtain ⟨p, hp, rfl⟩ := List.mem_map.1 hy
    exact (shareCreatorFee_bounds env p.1 (hshares p hp) hfee hcreator).2
  · obtain ⟨p, hp, rfl⟩ := List.mem_map.1 hy
    exact (shareFee_bounds env p.1 (hshares p hp) hfee).1
  · obtain ⟨p, hp, rfl⟩ := List.mem_map.1 hy
    exact (shareCreatorFee_bounds env p.1 (hshares p hp) hfee hcreator).1

theorem isPayout_eq_false {m : Transfer Memo} {p : Purpose} (hmemo : m.memo = ⟨id, p⟩) (hpayout : p ≠ .payout)
    (hstream : p ≠ .stream) : isPayout id m = false := by
  simp [isPayout, hmemo, hpayout, hstream]

/-- The payouts of the transfer pass sum to what the fees leave of the shares. -/
theorem Paid.tally_sentOn {pairs : List (Address × ℤ)} {acc acc' : Pass} {new : List (Transfer Memo)}
    (h : Paid env id inv platformFee pairs acc acc' new) (hcount : (payoutsOf id new).length = pairs.length) :
    tally (sentOn id) new = (pairs.map fun p => netShare env inv platformFee p.1 p.2).sum := by
  have hkind : ∀ m ∈ new, sentOn id m = isPayout id m := by
    intro m hm
    rcases h.kinds m hm with hpayout | ⟨hmemo, -⟩
    · rw [sentOn, hpayout, Bool.true_or]
    · simp [sentOn, isPayout, hmemo]
  have hamounts : (pairs.map fun p => netShare env inv platformFee p.1 p.2) =
      (payoutsOf id new.reverse).map Transfer.amount := by
    rw [(h.exact hcount).1, List.map_map]
    exact List.map_congr_left fun p _ => (payoutMovement_amount p.1 _).symm
  rw [tally_eq_sum_filter, List.filter_congr hkind, hamounts, payoutsOf_reverse, List.map_reverse,
    List.sum_reverse]
  rfl

/-- The payouts and the two fees together hand out the funded amount. -/
theorem conserved_of_paid {pass : Pass} {paid fees cuts : List (Transfer Memo)}
    (hprice : totalPlatformFee env inv actor = .ok platformFee)
    (hplan : planPayouts env inv e.paidRecipients e.recipientLock platformFee = .ok plan)
    (hshares : plan.payouts = partsWithRest inv.funded inv.total inv.amounts)
    (hlen : inv.recipients.length = plan.payouts.length)
    (hnets : ∀ p ∈ inv.recipients.zip plan.payouts, 0 ≤ netShare env inv platformFee p.1 p.2)
    (hpaid : Paid env id inv platformFee (inv.recipients.zip plan.payouts) {} pass paid)
    (hcount : (payoutsOf id paid).length = inv.recipients.length)
    (hfees : (fees.map Transfer.amount).sum = totalShareFee env inv platformFee (inv.recipients.zip plan.payouts))
    (hfeeSent : ∀ m ∈ fees, SentOut inv m ∧ m.memo = ⟨id, .platformFee⟩ ∧ m.dst ∈ feeAddresses env)
    (hcuts : (cuts.map Transfer.amount).sum = pass.creatorFee)
    (hcutSent : ∀ m ∈ cuts, SentOut inv m ∧ m.memo = ⟨id, .creatorFee⟩ ∧ m.dst = inv.creator) :
    Conserved env id inv e actor (cuts ++ fees ++ paid).reverse := by
  have hall : (payoutsOf id paid).length = (inv.recipients.zip plan.payouts).length := by
    rw [hcount, List.length_zip, ← hlen, min_self]
  obtain ⟨hmoved, hcreatorFee⟩ := hpaid.exact hall
  have hmem : ∀ {m}, m ∈ (cuts ++ fees ++ paid).reverse → m ∈ cuts ∨ m ∈ fees ∨ m ∈ paid := by
    intro m hm
    rw [List.mem_reverse] at hm
    simpa [or_assoc] using hm
  have hpayout : ∀ m ∈ paid, isPayout id m = true → SentOut inv m := by
    intro m hm hkind
    have hin : m ∈ payoutsOf id paid.reverse := List.mem_filter.2 ⟨List.mem_reverse.2 hm, hkind⟩
    rw [hmoved] at hin
    obtain ⟨p, hp, rfl⟩ := List.mem_map.1 hin
    exact payoutMovement_sentOut (hnets p hp)
  have hother : ∀ m ∈ paid, ∀ p : Purpose, p ≠ .payout → p ≠ .stream → p ≠ .tax → m.memo ≠ ⟨id, p⟩ := by
    intro m hm p hp hp' hp'' hmemo
    rcases hpaid.kinds m hm with hkind | ⟨htax, -⟩
    · rw [isPayout_eq_false hmemo hp hp'] at hkind
      cases hkind
    · rw [hmemo] at htax
      exact hp'' (congrArg Memo.purpose htax)
  have hfeeKind : ∀ m ∈ fees, sentOn id m = true := fun m hm => by simp [sentOn, (hfeeSent m hm).2.1]
  have hcutKind : ∀ m ∈ cuts, sentOn id m = true := fun m hm => by simp [sentOn, (hcutSent m hm).2.1]
  refine ⟨?_, fun m hm hkind => ?_, fun m hm hmemo => ?_, fun m hm hmemo => ?_, fun m hm => ?_,
    platformFee, plan, hprice, hplan, hshares, ?_⟩
  · rw [tally_reverse, tally_append, tally_append, tally_all hcutKind, tally_all hfeeKind,
      hpaid.tally_sentOn hall, hcuts, hfees, hcreatorFee]
    have hsum := sum_shares env inv platformFee (inv.recipients.zip plan.payouts)
    rw [List.map_snd_zip hlen.ge, hshares, sum_partsWithRest, ← hshares] at hsum
    change 0 + _ + _ + _ = _
    omega
  · rcases hmem hm with hm | hm | hm
    · exact (hcutSent m hm).1
    · exact (hfeeSent m hm).1
    · rcases hpaid.kinds m hm with hpay | ⟨hmemo, -⟩
      · exact hpayout m hm hpay
      · simp [sentOn, isPayout, hmemo] at hkind
  · rcases hmem hm with hm | hm | hm
    · rw [(hcutSent m hm).2.1] at hmemo
      cases hmemo
    · exact (hfeeSent m hm).2.2
    · exact absurd hmemo (hother m hm _ (by simp) (by simp) (by simp))
  · rcases hmem hm with hm | hm | hm
    · exact (hcutSent m hm).2.2
    · rw [(hfeeSent m hm).2.1] at hmemo
      cases hmemo
    · exact absurd hmemo (hother m hm _ (by simp) (by simp) (by simp))
  · rcases hmem hm with hm | hm | hm
    · exact .inl (hcutKind m hm)
    · exact .inl (hfeeKind m hm)
    · rcases hpaid.kinds m hm with hpay | htax
      · exact .inl (by rw [sentOn, hpay, Bool.true_or])
      · exact .inr (.inl htax)
  · have hrest : payoutsOf id (cuts ++ fees).reverse = [] := by
      refine payoutsOf_none fun m hm => ?_
      rcases List.mem_append.1 (List.mem_reverse.1 hm) with hm | hm
      · exact isPayout_eq_false (hcutSent m hm).2.1 (by simp) (by simp)
      · exact isPayout_eq_false (hfeeSent m hm).2.1 (by simp) (by simp)
    rw [← hmoved, List.reverse_append, payoutsOf_append, hrest, List.append_nil]

/-- The transfer pass and the fees after it hand out the funded amount, if no payout is missing. -/
theorem payRecipients_plain {failed : Bool} (hplain : PlainTerms env e inv) (hdirect : DirectPayouts env inv)
    (hprice : totalPlatformFee env inv actor = .ok platformFee)
    (hplan : planPayouts env inv e.paidRecipients e.recipientLock platformFee = .ok plan)
    (hlock : (s.entries id).recipientLock = e.recipientLock)
    (hrun : payRecipients env id inv e.paidRecipients platformFee plan s = .ok (failed, t)) :
    ∃ new, t.log = new ++ s.log ∧ ((payoutsOf id new).length = inv.recipients.length →
      Conserved env id inv e actor new.reverse) := by
  have hfee := hplain.platformFee_bounds hprice
  have hcreator := hplain.creatorFee_le
  have hshares := hplain.share_bounds
  have hplanned := planPayouts_plain hplain hfee hplan
  have hpayouts : plan.payouts = partsWithRest inv.funded inv.total inv.amounts := by rw [hplanned]
  have hlen : inv.recipients.length = plan.payouts.length := by
    rw [hpayouts, length_partsWithRest hplain.some_amount, hplain.length]
  have htotal : plan.totalFee = totalShareFee env inv platformFee (inv.recipients.zip plan.payouts) := by
    rw [hpayouts, hplanned]
  rw [← hpayouts] at hshares
  have hpairs : ∀ p ∈ inv.recipients.zip plan.payouts, 0 ≤ p.2 ∧ p.2 ≤ inv.funded :=
    fun p hp => hshares p.2 (List.of_mem_zip hp).2
  obtain ⟨hnet, hfees, hcuts⟩ := shares_nonneg env hpairs hfee hcreator
  have hsum : ((inv.recipients.zip plan.payouts).map fun p => netShare env inv platformFee p.1 p.2).sum +
      totalShareFee env inv platformFee (inv.recipients.zip plan.payouts) +
      totalCreatorFee env inv platformFee (inv.recipients.zip plan.payouts) = inv.funded := by
    rw [sum_shares, List.map_snd_zip hlen.ge, hpayouts, sum_partsWithRest]
  have hword := hplain.word
  rw [hplain.unpaid] at hrun
  obtain ⟨pass, u₁, hloop, hrun⟩ := bind_ok.1 hrun
  obtain ⟨_, u₂, hplatform, hrun⟩ := bind_ok.1 hrun
  obtain ⟨_, u₃, hcreated, hrun⟩ := bind_ok.1 hrun
  obtain ⟨-, rfl⟩ := pure_ok.1 hrun
  obtain ⟨paid, hlog₁, hpaid⟩ := payEach_plain hplain hdirect hfee (by rw [hplanned])
    hshares List.drop_zero hlen (fun r hr => by rw [hlock]; exact hplain.locks r hr)
    ⟨le_rfl, by change 0 + _ ≤ _; omega⟩ hloop
  rw [htotal] at hplatform
  obtain ⟨fees, hlog₂, hfeeSum, hfeeSent⟩ := payPlatformFee_sent hplain.feeRecipients ⟨hfees, by omega⟩ hplatform
  obtain ⟨cuts, hlog₃, hcutSum, hcutSent⟩ := transferPositive_sent hpaid.bounds.1 hcreated
  refine ⟨cuts ++ fees ++ paid, by rw [hlog₃, hlog₂, hlog₁]; simp, fun hcount => ?_⟩
  have hnoFee : payoutsOf id fees = [] :=
    payoutsOf_none fun m hm => isPayout_eq_false (hfeeSent m hm).2.1 (by simp) (by simp)
  have hnoCut : payoutsOf id cuts = [] :=
    payoutsOf_none fun m hm => isPayout_eq_false (hcutSent m hm).2.1 (by simp) (by simp)
  have honly : payoutsOf id (cuts ++ fees ++ paid) = payoutsOf id paid := by
    rw [payoutsOf_append, payoutsOf_append, hnoFee, hnoCut]
    rfl
  rw [honly] at hcount
  exact conserved_of_paid hprice hplan hpayouts hlen
    (fun p hp => (shareCreatorFee_bounds env p.1 (hpairs p hp) hfee hcreator).2) hpaid hcount hfeeSum hfeeSent hcutSum
    hcutSent

/-- Movements for other purposes change nothing about what the release hands out. -/
theorem Conserved.append {moved rest : List (Transfer Memo)} (h : Conserved env id inv e actor moved)
    (hrest : ∀ m ∈ rest, m.memo = ⟨id, .bonus⟩ ∨ m.memo = ⟨id, .insurance⟩) :
    Conserved env id inv e actor (moved ++ rest) := by
  have hnone : ∀ m ∈ rest, sentOn id m = false := by
    intro m hm
    rcases hrest m hm with hmemo | hmemo <;> simp [sentOn, isPayout, hmemo]
  obtain ⟨platformFee, plan, hprice, hplan, hshares, hpayouts⟩ := h.payouts
  refine ⟨?_, fun m hm hkind => ?_, fun m hm hmemo => ?_, fun m hm hmemo => ?_, fun m hm => ?_,
    platformFee, plan, hprice, hplan, hshares, ?_⟩
  · rw [tally_append, tally_eq_zero hnone, add_zero, h.whole]
  · rcases List.mem_append.1 hm with hm | hm
    · exact h.sent m hm hkind
    · rw [hnone m hm] at hkind
      cases hkind
  · rcases List.mem_append.1 hm with hm | hm
    · exact h.platformFee m hm hmemo
    · have hother := hrest m hm
      simp [hmemo] at hother
  · rcases List.mem_append.1 hm with hm | hm
    · exact h.creatorFee m hm hmemo
    · have hother := hrest m hm
      simp [hmemo] at hother
  · rcases List.mem_append.1 hm with hm | hm
    · exact h.others m hm
    · exact .inr (.inr (hrest m hm))
  · rw [payoutsOf_append, hpayouts, payoutsOf_none fun m hm => ?_, List.append_nil]
    rcases hrest m hm with hmemo | hmemo <;> exact isPayout_eq_false hmemo (by simp) (by simp)

/-- A plain release whose payouts all went through hands out the funded amount. -/
theorem plain_release_conserves (hplain : PlainTerms env (s.entries id) inv) (hdirect : DirectPayouts env inv)
    (hrun : releaseFull env next id inv actor s = .ok (v, t))
    (hsent : (payoutsOf id (movedBetween s t)).length = inv.recipients.length) :
    Conserved env id inv (s.entries id) actor (movedBetween s t) := by
  obtain ⟨platformFee, plan, failed, w, u₂, u₃, u₄, hprice, hplan, hpasses, hgroup, hinsurance, hforward,
    hfinish⟩ := releaseFull_passes hrun
  obtain ⟨w₁, w₂, w₃, hpark, hprotocol, hpay, hbonus⟩ := payPasses_ok.1 hpasses
  obtain rfl := payProtocolFee_plain hplain hprotocol
  have hfee := hplain.platformFee_bounds hprice
  have hplanned := planPayouts_plain hplain hfee hplan
  -- the transfer pass
  have hparked : Keeps Entry.planned s w₁ := framed_parkShares.respects s _ w₁ hpark
  have hlock : (w₁.entries id).recipientLock = (s.entries id).recipientLock :=
    congrArg (fun q => q.2.2) (hparked id)
  rw [payPlan, hplain.treasury] at hpay
  obtain ⟨paid, hlog₁, hpaid⟩ := payRecipients_plain hplain hdirect hprice hplan hlock hpay
  -- the bonus, and no group
  have hlogs : Logs ∅ (· = (⟨id, .bonus⟩ : Memo)) ⟨id, .bonus⟩ := ⟨rfl⟩
  have hlogs' : Logs ∅ (· = (⟨id, .insurance⟩ : Memo)) ⟨id, .insurance⟩ := ⟨rfl⟩
  have hpasses' : Change Set.univ anyMemo s w := change_of_framed inferInstance hpasses
  obtain ⟨bonus, hlog₂, hbonuses⟩ :=
    (change_of_framed inferInstance hbonus : Change ∅ (· = (⟨id, .bonus⟩ : Memo)) w₃ w).log
  obtain rfl := releaseGroup_alone ((hpasses'.group id).trans hplain.group) hgroup
  -- the insurance, and no leftover
  obtain ⟨insurance, hlog₃, hinsured⟩ :=
    (change_of_framed inferInstance hinsurance : Change ∅ (· = (⟨id, .insurance⟩ : Memo)) u₂ u₃).log
  rw [planLeftover_plain hplain.funded hplain.word (by rw [hplanned]) (by rw [hplanned])] at hforward
  obtain ⟨-, rfl⟩ := pure_ok.1 hforward
  have hlog : t.log = insurance ++ bonus ++ paid ++ s.log := by
    rw [(finishRelease_ok hfinish).1, hlog₃, hlog₂, hlog₁, log_modifyEntry hpark]
    simp
  rw [movedBetween_eq hlog] at hsent ⊢
  have hrest : ∀ m ∈ (insurance ++ bonus).reverse, m.memo = ⟨id, .bonus⟩ ∨ m.memo = ⟨id, .insurance⟩ := by
    intro m hm
    rcases List.mem_append.1 (List.mem_reverse.1 hm) with hm | hm
    · exact .inr (hinsured m hm)
    · exact .inl (hbonuses m hm)
  have hnone : payoutsOf id (insurance ++ bonus).reverse = [] := by
    refine payoutsOf_none fun m hm => ?_
    rcases hrest m hm with hmemo | hmemo <;> exact isPayout_eq_false hmemo (by simp) (by simp)
  rw [List.reverse_append] at hsent ⊢
  refine (hpaid ?_).append hrest
  rw [payoutsOf_append, hnone, List.append_nil, payoutsOf_reverse, List.length_reverse] at hsent
  exact hsent

end Release

/-! ## Two releases -/

/-- A platform fee of 1% that goes to two addresses, from which recipient 11 is exempt. -/
def feeEnv : Env := { sampleEnv 0 2000 with
  config := {
    platformFeeBps := 100
    treasury := some 7
    feeRecipients := some [⟨7, 3333⟩, ⟨8, 6667⟩]
    recipientFeeWaivers := [11] } }

/-- 1001 units for two recipients; the creator takes 2%, and 3 units of the fee are waived. -/
def feeInvoice : Invoice := { sampleInvoice with
  funded := 1001
  creatorFeeBps := 200
  earlyBirdFeeCredit := 3 }

theorem feeInvoice_plain : PlainTerms feeEnv ((sampleStore feeInvoice []).entries 1) feeInvoice where
  ratios := rfl
  splitRules := rfl
  tax := rfl
  protocolFee := by simp [feeEnv]
  caps i := by simp [feeInvoice, sampleInvoice]
  locks _ _ := rfl
  unpaid := rfl
  group := rfl
  treasury := rfl
  some_amount := by decide
  amounts := by decide
  length := rfl
  total := by decide
  funded := by decide
  word := by decide
  credit := by decide
  fees := by decide
  brackets := by simp [feeEnv]
  feeRecipients := by
    intro rs hrs
    obtain rfl := Option.some.inj hrs
    decide

theorem plain_release_sample : ∃ t,
    releaseFull feeEnv (releaseWithin feeEnv 0) 1 feeInvoice 5 (sampleStore feeInvoice []) = .ok ((), t) ∧
      Conserved feeEnv 1 feeInvoice ((sampleStore feeInvoice []).entries 1) 5
        (movedBetween (sampleStore feeInvoice []) t) := by
  have hrun := ok_commit (x := releaseFull feeEnv (releaseWithin feeEnv 0) 1 feeInvoice 5)
    (s := sampleStore feeInvoice []) (a := ()) (by decide +kernel)
  refine ⟨_, hrun, plain_release_conserves feeInvoice_plain ⟨?_, rfl, ?_⟩ hrun (by decide +kernel)⟩
  · simp [feeInvoice, sampleInvoice]
  · simp [feeInvoice, sampleInvoice]

/-- A recipient who asks for another token is paid by a swap, and no transfer leaves the contract. -/
def swapInvoice : Invoice := { sampleInvoice with
  funded := 100
  swapTokens := [some 5, some 5] }

theorem swapInvoice_plain : PlainTerms (sampleEnv 0 2000) ((sampleStore swapInvoice []).entries 1) swapInvoice where
  ratios := rfl
  splitRules := rfl
  tax := rfl
  protocolFee := by simp [sampleEnv]
  caps i := by simp [swapInvoice, sampleInvoice]
  locks _ _ := rfl
  unpaid := rfl
  group := rfl
  treasury := rfl
  some_amount := by decide
  amounts := by decide
  length := rfl
  total := by decide
  funded := by decide
  word := by decide
  credit := by decide
  fees := by decide
  brackets := by simp [sampleEnv]
  feeRecipients := by simp [sampleEnv]

theorem plain_release_fails : ∃ t,
    PlainTerms (sampleEnv 0 2000) ((sampleStore swapInvoice []).entries 1) swapInvoice ∧
      releaseFull (sampleEnv 0 2000) (releaseWithin (sampleEnv 0 2000) 0) 1 swapInvoice 5
        (sampleStore swapInvoice []) = .ok ((), t) ∧
      (t.entries 1).failedPayouts = [] ∧ swapInvoice.funded = 100 ∧
      tally (sentOn 1) (movedBetween (sampleStore swapInvoice []) t) = 0 := by
  have hrun := ok_commit (x := releaseFull (sampleEnv 0 2000) (releaseWithin (sampleEnv 0 2000) 0) 1 swapInvoice 5)
    (s := sampleStore swapInvoice []) (a := ()) (by decide +kernel)
  exact ⟨_, swapInvoice_plain, hrun, by decide +kernel, rfl, by decide +kernel⟩

end StellarSplit.Split.PlainRelease
