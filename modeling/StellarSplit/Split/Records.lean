import StellarSplit.Lib.Proportion
import StellarSplit.Split.Milestones
import StellarSplit.Split.Succession

/-!
# Recorded payments and what is sent for them

The sums of the payments on record, payer by payer, and the loops that send
them back or pay a part of the funding out to the recipients: what each of
them moves in all and to each payer.
-/

namespace StellarSplit.Split

open Exec Function Machine

variable {env : Env} {s t u : Store} {v : Unit} {id : ℕ} {inv : Invoice} {p : Address}

/-! ## Records -/

/-- The payments on record are not negative. -/
def Recorded (payments : List Payment) : Prop := ∀ q ∈ payments, 0 ≤ q.amount

theorem Recorded.filter {payments : List Payment} (h : Recorded payments) (f : Payment → Bool) :
    Recorded (payments.filter f) := fun q hq => h q (List.mem_of_mem_filter hq)

theorem paidBy_cons (q : Payment) (payments : List Payment) (p : Address) :
    paidBy (q :: payments) p = (if q.payer = p then q.amount else 0) + paidBy payments p := by
  unfold paidBy
  by_cases hq : q.payer = p
  · rw [List.filter_cons_of_pos (by simpa using hq), List.map_cons, List.sum_cons, if_pos hq]
  · rw [List.filter_cons_of_neg (by simpa using hq), if_neg hq, zero_add]

theorem paidBy_append (xs ys : List Payment) (p : Address) :
    paidBy (xs ++ ys) p = paidBy xs p + paidBy ys p := by
  unfold paidBy
  rw [List.filter_append, List.map_append, List.sum_append]

theorem paidBy_nonneg {payments : List Payment} (h : Recorded payments) (p : Address) :
    0 ≤ paidBy payments p := by
  apply List.sum_nonneg
  intro x hx
  obtain ⟨q, hq, rfl⟩ := List.mem_map.1 hx
  exact h q (List.mem_of_mem_filter hq)

theorem paidBy_filter_le {payments : List Payment} (h : Recorded payments) (f : Payment → Bool)
    (p : Address) : paidBy (payments.filter f) p ≤ paidBy payments p := by
  induction payments with
  | nil => simp [paidBy]
  | cons q payments ih =>
      have hrest := ih fun q' hq' => h q' (List.mem_cons_of_mem q hq')
      have hq : 0 ≤ q.amount := h q (by simp)
      by_cases hf : f q = true
      · rw [List.filter_cons_of_pos hf, paidBy_cons, paidBy_cons]
        linarith
      · rw [List.filter_cons_of_neg hf, paidBy_cons]
        split_ifs <;> linarith

/-- What a list of amounts holds for a payer. -/
def sumTo (xs : List (Address × ℤ)) (p : Address) : ℤ :=
  (xs.map fun x => if x.1 = p then x.2 else 0).sum

theorem sumTo_cons (x : Address × ℤ) (xs : List (Address × ℤ)) (p : Address) :
    sumTo (x :: xs) p = (if x.1 = p then x.2 else 0) + sumTo xs p := by
  unfold sumTo
  rw [List.map_cons, List.sum_cons]

theorem paidBy_of_not_mem {payments : List Payment} (h : p ∉ payersOf payments) :
    paidBy payments p = 0 := by
  have hnone : payments.filter (fun q => q.payer = p) = [] := by
    rw [List.filter_eq_nil_iff]
    intro q hq hpayer
    refine h ?_
    rw [payersOf, List.mem_insertionSort, List.mem_dedup]
    exact List.mem_map.2 ⟨q, hq, by simpa using hpayer⟩
  simp [paidBy, hnone]

theorem sumTo_map {payers : List Address} (f : Address → ℤ) (hnodup : payers.Nodup) :
    sumTo (payers.map fun a => (a, f a)) p = if p ∈ payers then f p else 0 := by
  induction payers with
  | nil => simp [sumTo]
  | cons a payers ih =>
      obtain ⟨hfresh, hrest⟩ := List.nodup_cons.1 hnodup
      rw [List.map_cons, sumTo_cons, ih hrest]
      by_cases ha : a = p
      · subst ha
        simp [hfresh]
      · simp [ha, Ne.symm ha]

theorem sumTo_totalsOf (payments : List Payment) (p : Address) :
    sumTo (totalsOf payments) p = paidBy payments p := by
  unfold totalsOf
  rw [sumTo_map _ (payersOf_nodup payments)]
  split_ifs with hp
  · rfl
  · exact (paidBy_of_not_mem hp).symm

theorem totalsOf_nonneg {payments : List Payment} (h : Recorded payments) :
    ∀ x ∈ totalsOf payments, 0 ≤ x.2 := by
  intro x hx
  obtain ⟨a, -, rfl⟩ := List.mem_map.1 hx
  exact paidBy_nonneg h a

theorem sum_paidBy {payers : List Address} (hnodup : payers.Nodup) {payments : List Payment}
    (hall : ∀ q ∈ payments, q.payer ∈ payers) :
    (payers.map (paidBy payments)).sum = (payments.map Payment.amount).sum := by
  induction payments with
  | nil =>
      have hzero : payers.map (paidBy []) = payers.map fun _ => (0 : ℤ) := rfl
      rw [hzero]
      simp
  | cons q payments ih =>
      have hrest := ih fun q' hq' => hall q' (List.mem_cons_of_mem q hq')
      have hone : (payers.map fun a => if q.payer = a then q.amount else 0).sum = q.amount := by
        have hsum := sumTo_map (p := q.payer) (fun _ => q.amount) hnodup
        rw [if_pos (hall q (by simp)), sumTo, List.map_map] at hsum
        refine Eq.trans (congrArg List.sum ?_) hsum
        apply List.map_congr_left
        intro a _
        simp [eq_comm]
      have hsplit : payers.map (paidBy (q :: payments)) =
          payers.map fun a => (if q.payer = a then q.amount else 0) + paidBy payments a := by
        apply List.map_congr_left
        intro a _
        exact paidBy_cons q payments a
      rw [hsplit, List.sum_map_add, hone, hrest, List.map_cons, List.sum_cons]

/-- The totals of the payers add up to the payments. -/
theorem sumOf_totalsOf (payments : List Payment) :
    sumOf (totalsOf payments) = (payments.map Payment.amount).sum := by
  unfold sumOf totalsOf
  rw [List.map_map]
  refine sum_paidBy (payersOf_nodup payments) fun q hq => ?_
  rw [payersOf, List.mem_insertionSort, List.mem_dedup]
  exact List.mem_map_of_mem hq

theorem sum_kept_donated (payments : List Payment) :
    ((keptPayments payments).map Payment.amount).sum +
      ((donatedPayments payments).map Payment.amount).sum = (payments.map Payment.amount).sum := by
  induction payments with
  | nil => rfl
  | cons q payments ih =>
      unfold keptPayments donatedPayments at ih ⊢
      cases hq : q.donateOnFailure
      · rw [List.filter_cons_of_pos (by simp [hq]), List.filter_cons_of_neg (by simp [hq]),
          List.map_cons, List.sum_cons, List.map_cons, List.sum_cons, add_assoc, ih]
      · rw [List.filter_cons_of_neg (by simp [hq]), List.filter_cons_of_pos (by simp [hq]),
          List.map_cons, List.sum_cons, List.map_cons, List.sum_cons, add_left_comm, ih]

theorem partialAmount_bounds {q : Payment} {bps : ℕ} (hq : 0 ≤ q.amount) (hbps : bps ≤ 10000) :
    0 ≤ partialAmount bps q ∧ partialAmount bps q ≤ q.amount := by
  have hprod : 0 ≤ q.amount * bps := mul_nonneg hq (Int.natCast_nonneg bps)
  have hword : (bps : ℤ) ≤ 10000 := by exact_mod_cast hbps
  have hle : q.amount * bps ≤ q.amount * 10000 := mul_le_mul_of_nonneg_left hword hq
  unfold partialAmount
  rw [Int.tdiv_eq_ediv_of_nonneg hprod]
  omega

/-! ## Movements -/

/-- What the contract has given back to a payer of an invoice. -/
def refundedTo (id : ℕ) (p : Address) (s : Store) : ℤ :=
  tally (fun m => m.memo = ⟨id, .refund⟩ ∧ m.src = currentContract ∧ m.dst = p) s.log

/-- Only the log has changed, by refunds of `back` to each payer and `out` in all. -/
structure Sent (id : ℕ) (back : Address → ℤ) (out : ℤ) (s t : Store) : Prop where
  entries : t.entries = s.entries
  refunds : ∀ p, refundedTo id p t = refundedTo id p s + back p
  out : sentFor id t = sentFor id s + out

theorem Sent.trans {back₁ back₂ : Address → ℤ} {out₁ out₂ : ℤ} (h₁ : Sent id back₁ out₁ s t)
    (h₂ : Sent id back₂ out₂ t u) :
    Sent id (fun p => back₁ p + back₂ p) (out₁ + out₂) s u := by
  refine ⟨h₂.entries.trans h₁.entries, fun p => ?_, ?_⟩
  · rw [h₂.refunds, h₁.refunds, add_assoc]
  · rw [h₂.out, h₁.out, add_assoc]

theorem Sent.refl (id : ℕ) (s : Store) : Sent id (fun _ => 0) 0 s s :=
  ⟨rfl, fun _ => (add_zero _).symm, (add_zero _).symm⟩

theorem Sent.congr {back back' : Address → ℤ} {out out' : ℤ} (h : Sent id back out s t)
    (hback : ∀ p, back p = back' p) (hout : out = out') : Sent id back' out' s t := by
  obtain rfl : back = back' := funext hback
  exact hout ▸ h

theorem sent_refund {token dst : Address} {amount : ℤ}
    (hrun : transfer env token dst amount ⟨id, .refund⟩ s = .ok (v, t)) :
    Sent id (fun p => if dst = p then amount else 0) amount s t := by
  obtain ⟨-, rfl⟩ := transfer_ok.1 hrun
  refine ⟨rfl, fun p => ?_, ?_⟩
  · simp [refundedTo, add_comm]
  · simp [sentFor, add_comm]

theorem sent_other {token dst : Address} {amount : ℤ} {purpose : Purpose} (hpurpose : purpose ≠ .refund)
    (hrun : transfer env token dst amount ⟨id, purpose⟩ s = .ok (v, t)) :
    Sent id (fun _ => 0) amount s t := by
  obtain ⟨-, rfl⟩ := transfer_ok.1 hrun
  refine ⟨rfl, fun p => ?_, ?_⟩
  · simp [refundedTo, hpurpose]
  · simp [sentFor, add_comm]

theorem sent_positive {token dst : Address} {amount : ℤ} {purpose : Purpose} (hamount : 0 ≤ amount)
    (hpurpose : purpose ≠ .refund)
    (hrun : transferPositive env token dst amount ⟨id, purpose⟩ s = .ok (v, t)) :
    Sent id (fun _ => 0) amount s t := by
  rcases onlyIf_ok.1 hrun with ⟨-, hrun⟩ | ⟨hzero, rfl⟩
  · exact sent_other hpurpose hrun
  · obtain rfl : amount = 0 := le_antisymm (not_lt.1 hzero) hamount
    exact .refl id s

/-- A loop of transfers to payers, whatever decides which of them are made. -/
theorem sent_forM {xs : List (Address × ℤ)} {f : Address × ℤ → SplitM Unit}
    (hf : ∀ x ∈ xs, ∀ s v t, f x s = .ok (v, t) →
      Sent id (fun p => if x.1 = p then x.2 else 0) x.2 s t)
    (hrun : forM xs f s = .ok (v, t)) : Sent id (sumTo xs) (sumOf xs) s t := by
  induction xs generalizing s with
  | nil =>
      obtain ⟨-, rfl⟩ := pure_ok.1 hrun
      exact .refl id s
  | cons x xs ih =>
      rw [List.forM_cons] at hrun
      obtain ⟨_, u, hfirst, hrest⟩ := bind_ok.1 hrun
      have hx := hf x (by simp) s _ u hfirst
      have hxs := ih (fun y hy => hf y (List.mem_cons_of_mem x hy)) hrest
      refine (hx.trans hxs).congr (fun p => ?_) ?_
      · rw [sumTo_cons]
      · simp [sumOf]

theorem refundTotals_sent {token : Address} {xs : List (Address × ℤ)}
    (hrun : refundTotals env id token xs s = .ok (v, t)) : Sent id (sumTo xs) (sumOf xs) s t :=
  sent_forM (fun _ _ _ _ _ h => sent_refund h) hrun

theorem refundPositive_sent {token : Address} {xs : List (Address × ℤ)} (hxs : ∀ x ∈ xs, 0 ≤ x.2)
    (hrun : refundPositive env id token xs s = .ok (v, t)) : Sent id (sumTo xs) (sumOf xs) s t := by
  refine sent_forM (fun x hx s v t h => ?_) hrun
  rcases onlyIf_ok.1 h with ⟨-, h⟩ | ⟨hzero, rfl⟩
  · exact sent_refund h
  · have hx₀ : x.2 = 0 := le_antisymm (not_lt.1 hzero) (hxs x hx)
    rw [hx₀]
    refine (Sent.refl id s).congr (fun p => ?_) rfl
    split_ifs <;> rfl

theorem positiveSum_eq {xs : List (Address × ℤ)} (hxs : ∀ x ∈ xs, 0 ≤ x.2) :
    positiveSum xs = sumOf xs := by
  induction xs with
  | nil => rfl
  | cons x xs ih =>
      have hrest := ih fun y hy => hxs y (List.mem_cons_of_mem x hy)
      have hx : 0 ≤ x.2 := hxs x (by simp)
      unfold positiveSum sumOf at hrest ⊢
      by_cases hpos : 0 < x.2
      · rw [List.filter_cons_of_pos (by simpa using hpos), List.map_cons, List.sum_cons, hrest,
          List.map_cons, List.sum_cons]
      · have hzero : x.2 = 0 := le_antisymm (not_lt.1 hpos) hx
        rw [List.filter_cons_of_neg (by simpa using hpos), hrest, List.map_cons, List.sum_cons, hzero,
          zero_add]

/-! ## Partial releases -/

/-- A payout in a partial release moves money to recipients only. -/
theorem payByPriority_sent {token : Address} {remaining rest : ℤ} {i : ℕ}
    (hrun : payByPriority env id inv token remaining i s = .ok (rest, t)) :
    Sent id (fun _ => 0) (remaining - rest) s t ∧ (0 ≤ remaining → 0 ≤ rest) := by
  simp only [payByPriority, ofResult_bind] at hrun
  obtain ⟨recipient, -, amount, -, hrun⟩ := hrun
  obtain ⟨_, u, hpay, hrun⟩ := bind_ok.1 hrun
  obtain ⟨rfl, rfl⟩ := pure_ok.1 hrun
  rcases onlyIf_ok.1 hpay with ⟨hcovers, hpay⟩ | ⟨hshort, rfl⟩
  · rw [if_pos hcovers]
    refine ⟨?_, fun _ => by linarith⟩
    exact (sent_other (by simp) hpay).congr (fun _ => rfl) (by ring)
  · rw [if_neg hshort]
    refine ⟨?_, fun h => h⟩
    exact (Sent.refl _ s).congr (fun _ => rfl) (by ring)

theorem payPriorities_sent {token : Address} {order : List ℕ} {remaining rest : ℤ}
    (hrun : order.foldlM (payByPriority env id inv token) remaining s = .ok (rest, t)) :
    Sent id (fun _ => 0) (remaining - rest) s t ∧ (0 ≤ remaining → 0 ≤ rest) := by
  induction order generalizing s remaining with
  | nil =>
      obtain ⟨rfl, rfl⟩ := pure_ok.1 hrun
      refine ⟨?_, fun h => h⟩
      exact (Sent.refl _ s).congr (fun _ => rfl) (by ring)
  | cons i order ih =>
      rw [List.foldlM_cons] at hrun
      obtain ⟨next, u, hfirst, hrun⟩ := bind_ok.1 hrun
      obtain ⟨hsent, hnonneg⟩ := payByPriority_sent hfirst
      obtain ⟨hsent', hnonneg'⟩ := ih hrun
      refine ⟨?_, fun h => hnonneg' (hnonneg h)⟩
      exact (hsent.trans hsent').congr (fun _ => by simp) (by ring)

/-- The amounts of an invoice as the contract keeps them. -/
structure WordAmounts (inv : Invoice) : Prop where
  nonneg : ∀ a ∈ inv.amounts, 0 ≤ a
  total : inv.total ≤ i128Max

theorem asU128_natCast {n : ℕ} (h : (n : ℤ) ≤ i128Max) : asU128 n = n := by
  have hlt : (n : ℤ) < 2 ^ 128 := by
    unfold i128Max at h
    omega
  rw [asU128_of_nonneg (Int.natCast_nonneg n) hlt, Int.toNat_natCast]

/-- A part of a pot in proportion, rounded down. -/
theorem plainMulDiv_part {pot amount total : ℕ} {share : ℤ} (hpot : (pot : ℤ) ≤ i128Max)
    (hamount : amount ≤ total) (htotal : (total : ℤ) ≤ i128Max)
    (h : plainMulDiv (asU128 pot) (asU128 amount) (asU128 total) = .ok share) :
    0 < total ∧ share = (pot * amount / total : ℕ) := by
  have hword : (amount : ℤ) ≤ i128Max := le_trans (by exact_mod_cast hamount) htotal
  rw [asU128_natCast hpot, asU128_natCast hword, asU128_natCast htotal] at h
  obtain ⟨hzero, -, rfl⟩ := checkedMulDiv_eq (plainMulDiv_eq h)
  have hpos : 0 < total := Nat.pos_of_ne_zero hzero
  have hquot : pot * amount / total ≤ pot := by
    apply Nat.div_le_of_le_mul
    rw [Nat.mul_comm]
    exact Nat.mul_le_mul_right _ hamount
  refine ⟨hpos, asI128_of_lt ?_⟩
  unfold i128Max at hpot
  omega

theorem plainMulDiv_comm (a b d : ℕ) : plainMulDiv a b d = plainMulDiv b a d := by
  unfold plainMulDiv checkedMulDiv checkedMulU128
  rw [Nat.mul_comm]

/-- The part of a pot that belongs to a weight. -/
theorem plainMulDiv_eq_part {pot weight whole x : ℤ} (hpot : 0 ≤ pot ∧ pot ≤ i128Max) (hweight : 0 ≤ weight)
    (hle : weight ≤ whole) (hwhole : whole ≤ i128Max)
    (h : plainMulDiv (asU128 pot) (asU128 weight) (asU128 whole) = .ok x) :
    x = Proportion.part pot whole weight := by
  obtain ⟨n, rfl⟩ := Int.eq_ofNat_of_zero_le hpot.1
  obtain ⟨w, rfl⟩ := Int.eq_ofNat_of_zero_le hweight
  obtain ⟨W, rfl⟩ := Int.eq_ofNat_of_zero_le (hweight.trans hle)
  obtain ⟨-, rfl⟩ := plainMulDiv_part hpot.2 (by exact_mod_cast hle) hwhole h
  rw [Proportion.part]
  push_cast
  rfl

/-- The share of a recipient before the last one. -/
theorem splitShare_part {pot distributed share : ℤ} {i : ℕ} (hwords : WordAmounts inv)
    (hpot : 0 ≤ pot ∧ pot ≤ i128Max) (hlast : i + 1 ≠ inv.recipients.length)
    (hshare : splitShare inv pot distributed i = .ok share) :
    0 ≤ share ∧ 0 < inv.total ∧
      ∃ amount, inv.amounts[i]? = some amount ∧ share * inv.total ≤ pot * amount := by
  unfold splitShare at hshare
  obtain ⟨amount, hget, hshare⟩ := except_bind_ok.1 hshare
  rw [if_neg hlast] at hshare
  have hsome : inv.amounts[i]? = some amount := unwrap_ok.1 hget
  have hmem : amount ∈ inv.amounts := List.mem_of_getElem? hsome
  have hamount : amount ≤ inv.total := List.single_le_sum hwords.nonneg amount hmem
  obtain ⟨a, rfl⟩ := Int.eq_ofNat_of_zero_le (hwords.nonneg amount hmem)
  obtain ⟨x, rfl⟩ := Int.eq_ofNat_of_zero_le hpot.1
  obtain ⟨T, hT⟩ := Int.eq_ofNat_of_zero_le (total_nonneg hwords.nonneg)
  have htotal := hwords.total
  rw [hT] at hshare hamount htotal ⊢
  obtain ⟨hpos, rfl⟩ := plainMulDiv_part hpot.2 (by exact_mod_cast hamount) htotal hshare
  refine ⟨Int.natCast_nonneg _, by exact_mod_cast hpos, a, hsome, ?_⟩
  exact_mod_cast Nat.div_mul_le_self (x * a) T

theorem payProportional_sent {token : Address} {pot distributed next : ℤ} {ri : Address × ℕ}
    (hrun : payProportional env id inv token pot distributed ri s = .ok (next, t)) :
    ∃ share, splitShare inv pot distributed ri.2 = .ok share ∧ next = distributed + share ∧
      (0 ≤ share → Sent id (fun _ => 0) share s t) := by
  obtain ⟨share, hshare, hrun⟩ := ofResult_bind.1 hrun
  obtain ⟨_, u, hpay, hrun⟩ := bind_ok.1 hrun
  obtain ⟨rfl, rfl⟩ := pure_ok.1 hrun
  exact ⟨share, hshare, rfl, fun h => sent_positive h (by simp) hpay⟩

/-- The parts of a pot: those before the last are rounded down, and the last is the rest. -/
theorem payShares_sent {token : Address} {pot distributed done : ℤ} {rs : List Address} {k : ℕ}
    (hwords : WordAmounts inv) (hpot : 0 ≤ pot ∧ pot ≤ i128Max)
    (hk : k + rs.length = inv.recipients.length) (hwithin : distributed ≤ pot)
    (hparts : distributed * inv.total ≤ pot * (inv.amounts.take k).sum)
    (hrun : (rs.zipIdx k).foldlM (payProportional env id inv token pot) distributed s =
      .ok (done, t)) :
    ∃ out, Sent id (fun _ => 0) out s t ∧ distributed + out ≤ pot := by
  induction rs generalizing s k distributed with
  | nil =>
      obtain ⟨rfl, rfl⟩ := pure_ok.1 hrun
      exact ⟨0, .refl id s, by linarith⟩
  | cons r rs ih =>
      rw [List.zipIdx_cons, List.foldlM_cons] at hrun
      obtain ⟨next, u, hfirst, hrun⟩ := bind_ok.1 hrun
      obtain ⟨share, hshare, rfl, hsent⟩ := payProportional_sent hfirst
      by_cases hlast : k + 1 = inv.recipients.length
      · obtain rfl : rs = [] := List.length_eq_zero_iff.1 (by simp at hk; omega)
        obtain ⟨rfl, rfl⟩ := pure_ok.1 hrun
        have hrest : share = pot - distributed := by
          unfold splitShare at hshare
          obtain ⟨amount, -, hshare⟩ := except_bind_ok.1 hshare
          rw [if_pos hlast] at hshare
          exact (Except.ok.inj hshare).symm
        exact ⟨share, hsent (by linarith), by linarith⟩
      · obtain ⟨hnonneg, hpos, amount, hamount, hpart⟩ := splitShare_part hwords hpot hlast hshare
        have htaken : (inv.amounts.take (k + 1)).sum = (inv.amounts.take k).sum + amount := by
          rw [List.take_add_one, hamount]
          simp
        have hsum : (inv.amounts.take (k + 1)).sum ≤ inv.total := by
          have hsplit := List.sum_take_add_sum_drop inv.amounts (k + 1)
          have hdrop : 0 ≤ (inv.amounts.drop (k + 1)).sum :=
            List.sum_nonneg fun a ha => hwords.nonneg a (List.mem_of_mem_drop ha)
          unfold Invoice.total
          linarith
        have hparts' : (distributed + share) * inv.total ≤ pot * (inv.amounts.take (k + 1)).sum := by
          rw [htaken]
          linarith
        have hwithin' : distributed + share ≤ pot := by
          have hle : pot * (inv.amounts.take (k + 1)).sum ≤ pot * inv.total :=
            mul_le_mul_of_nonneg_left hsum hpot.1
          exact le_of_mul_le_mul_right (hparts'.trans hle) hpos
        obtain ⟨out, hrest, hout⟩ := ih (by simp at hk; omega) hwithin' hparts' hrun
        refine ⟨share + out, ?_, by linarith⟩
        exact ((hsent hnonneg).trans hrest).congr (fun _ => by simp) rfl

/-- A partial release pays recipients at most its amount. -/
theorem payPartialRelease_sent {token : Address} {amount : ℤ} (hwords : WordAmounts inv)
    (hamount : 0 ≤ amount ∧ amount ≤ i128Max)
    (hrun : payPartialRelease env id inv token amount s = .ok (v, t)) :
    ∃ out, Sent id (fun _ => 0) out s t ∧ out ≤ amount := by
  unfold payPartialRelease at hrun
  split at hrun
  · obtain ⟨order, -, hrun⟩ := ofResult_bind.1 hrun
    obtain ⟨rest, hrun⟩ := ignore_ok.1 hrun
    obtain ⟨hsent, hnonneg⟩ := payPriorities_sent hrun
    exact ⟨_, hsent, by linarith [hnonneg hamount.1]⟩
  · obtain ⟨done, hrun⟩ := ignore_ok.1 hrun
    obtain ⟨out, hsent, hout⟩ := payShares_sent hwords hamount (by simp) hamount.1 (by simp) hrun
    exact ⟨out, hsent, by linarith⟩

end StellarSplit.Split
