import StellarSplit.Split.Backing
import StellarSplit.Split.Disputes
import StellarSplit.Split.Milestones
import StellarSplit.Split.PartialRelease
import StellarSplit.Split.PlainRelease

/-!
# What a payment takes and where it goes

A payment charges its amount and the premium, passes on what the invoice is not
credited with, and takes the penalty of a late payment to the recipients. A payment
below the minimum is put by instead: it is counted, and no token moves.
-/

namespace StellarSplit.Split.Charges

open Exec Function Machine PartialRelease PlainRelease

variable {env : Env} {s t u : Store} {v : Unit} {id : ℕ} {inv : Invoice} {payer : Address}
  {amount remaining target credited premium : ℤ}

/-! ## The parts of a payment -/

/-- The penalty on a payment at this time. -/
def lateFee (env : Env) (inv : Invoice) (amount : ℤ) : ℤ :=
  if inv.penaltyDeadline < env.now then bpsPart amount (penaltyRate env inv) else 0

/-- What is not credited goes back to the payer, or to the treasury when it is to be donated. -/
def PassedOn (env : Env) (id : ℕ) (inv : Invoice) (payer : Address) (m : Transfer Memo) : Prop :=
  m.token = fundingTokenFor inv ∧ m.src = currentContract ∧ inv.overfundingPolicy ≠ .acceptAll ∧
    (m.memo = ⟨id, .surplus⟩ ∧ m.dst = payer ∨
      m.memo = ⟨id, .donation⟩ ∧ inv.overflowBehavior = .donate ∧ env.config.treasury = some m.dst)

/-- The movements of a payment. -/
structure Taken (env : Env) (id : ℕ) (inv : Invoice) (payer : Address) (amount credited premium : ℤ)
    (charge : Transfer Memo) (passed penalties : List (Transfer Memo)) : Prop where
  charges : charge = ⟨fundingTokenFor inv, payer, currentContract, amount + premium, ⟨id, .payment⟩⟩
  passes : ∀ m ∈ passed, PassedOn env id inv payer m
  whole : credited + (passed.map Transfer.amount).sum = amount
  divides : Divides inv (lateFee env inv amount) (fundingTokenFor inv) payer ⟨id, .penalty⟩ penalties

/-- What leaves the payer is what is credited, the premium, what is passed on and the penalty. -/
theorem Taken.leaving {charge : Transfer Memo} {passed penalties : List (Transfer Memo)}
    (h : Taken env id inv payer amount credited premium charge passed penalties) (hne : inv.recipients ≠ []) :
    ((charge :: penalties).map Transfer.amount).sum =
      credited + premium + (passed.map Transfer.amount).sum + lateFee env inv amount := by
  rw [List.map_cons, List.sum_cons, h.divides.sum hne, h.charges]
  dsimp only
  linarith [h.whole]

/-- A quotient by at least two fits the signed word. -/
theorem plainMulDiv_le {a b d : ℕ} {r : ℤ} (h : plainMulDiv a b d = .ok r) (hd : 2 ≤ d) : r ≤ i128Max := by
  obtain ⟨-, hword, rfl⟩ := checkedMulDiv_eq (plainMulDiv_eq h)
  have hquot : a * b / d ≤ u128Max / 2 := (Nat.div_le_div_right hword).trans (Nat.div_le_div_left hd (by norm_num))
  have hcast := Int.ofNat_le.2 hquot
  refine (asI128_le _).trans (hcast.trans ?_)
  norm_num [u128Max, i128Max]

theorem creditedAmount_all (h : creditedAmount inv amount remaining = .ok credited)
    (hpolicy : inv.overfundingPolicy = .acceptAll ∨
      inv.overfundingPolicy = .cap ∧ inv.overflowBehavior = .reject) : credited = amount := by
  unfold creditedAmount at h
  rcases hpolicy with hall | ⟨hcap, hreject⟩
  · rw [hall] at h
    exact (Except.ok.inj h).symm
  · rw [hcap, hreject] at h
    dsimp only at h
    split_ifs at h
    exact (Except.ok.inj h).symm

/-- Unless all of it is accepted, what is credited fits what remains or is nothing. -/
theorem creditedAmount_fits (h : creditedAmount inv amount remaining = .ok credited)
    (hpolicy : inv.overfundingPolicy ≠ .acceptAll) : credited ≤ max remaining 0 := by
  unfold creditedAmount at h
  cases hp : inv.overfundingPolicy with
  | acceptAll => exact absurd hp hpolicy
  | returnSurplus =>
      rw [hp] at h
      obtain rfl := Except.ok.inj h
      exact min_le_right _ _
  | cap =>
      rw [hp] at h
      refine le_max_of_le_left ?_
      cases hb : inv.overflowBehavior <;> rw [hb] at h <;> dsimp only at h
      · split_ifs at h with hle
        obtain rfl := Except.ok.inj h
        exact hle
      all_goals
        obtain rfl := Except.ok.inj h
        split_ifs with hle
        · exact hle
        · exact le_rfl

theorem passOnExcess_passes (hcredited : creditedAmount inv amount remaining = .ok credited)
    (hrun : passOnExcess env id inv payer (amount - credited) s = .ok (v, t)) :
    ∃ passed, t.log = passed ++ s.log ∧ (∀ m ∈ passed, PassedOn env id inv payer m) ∧
      credited + (passed.map Transfer.amount).sum = amount := by
  have hle : credited ≤ amount := creditedAmount_le hcredited
  unfold passOnExcess at hrun
  rcases onlyIf_ok.1 hrun with ⟨hpos, hrun⟩ | ⟨hnot, rfl⟩
  · have hsome : ¬(inv.overfundingPolicy = .acceptAll ∨
        inv.overfundingPolicy = .cap ∧ inv.overflowBehavior = .reject) := fun h => by
      rw [creditedAmount_all hcredited h, sub_self] at hpos
      exact lt_irrefl _ hpos
    obtain ⟨hpolicy, hreject⟩ := not_or.1 hsome
    split_ifs at hrun with hback
    · obtain ⟨-, rfl⟩ := transfer_ok.1 hrun
      refine ⟨[_], rfl, List.forall_mem_singleton.2 ⟨rfl, rfl, hpolicy, .inl ⟨rfl, rfl⟩⟩, ?_⟩
      simp
    · obtain ⟨hreturn, hrefund⟩ := not_or.1 hback
      have hcap : inv.overfundingPolicy = .cap := by
        cases hp : inv.overfundingPolicy <;> simp_all
      have hdonate : inv.overflowBehavior = .donate := by
        cases hb : inv.overflowBehavior <;> simp_all
      rcases onlyIf_ok.1 hrun with ⟨-, hrun⟩ | ⟨hno, -⟩
      · obtain ⟨treasury, htreasury, hrun⟩ := orPanic_bind.1 hrun
        obtain ⟨-, rfl⟩ := transfer_ok.1 hrun
        refine ⟨[_], rfl, List.forall_mem_singleton.2 ⟨rfl, rfl, hpolicy, .inr ⟨rfl, hdonate, htreasury⟩⟩, ?_⟩
        simp
      · exact absurd hdonate hno
  · exact ⟨[], rfl, by simp, by simp; omega⟩

theorem payPenaltyShare_pays {penalty : ℤ} :
    PaysShare inv penalty (fundingTokenFor inv) payer ⟨id, .penalty⟩
      (payPenaltyShare env id inv payer penalty) := by
  intro d ri s next t hrun
  simp only [payPenaltyShare, ofResult_bind] at hrun
  obtain ⟨share, hshare, hrun⟩ := hrun
  obtain ⟨_, u, hmove, hrun⟩ := bind_ok.1 hrun
  obtain ⟨rfl, rfl⟩ := pure_ok.1 hrun
  refine ⟨share, hshare, rfl, ?_⟩
  rcases onlyIf_ok.1 hmove with ⟨hpos, hmove⟩ | ⟨hnot, rfl⟩
  · obtain ⟨-, rfl⟩ := move_ok.1 hmove
    exact ⟨rfl, by simp [shareTransfers, hpos]⟩
  · exact ⟨rfl, by simp [shareTransfers, hnot]⟩

theorem divides_nothing {token src : Address} {memo : Memo} : Divides inv 0 token src memo [] :=
  ⟨by simp, fun _ => rfl⟩

/-- The shares of the penalty make up the penalty. -/
theorem payPenalty_divides (hwords : WordAmounts inv) (hamount : 0 ≤ amount ∧ amount ≤ i128Max)
    (hrun : payPenalty env id inv payer amount s = .ok (v, t)) :
    ∃ penalties, t.log = penalties.reverse ++ s.log ∧
      Divides inv (lateFee env inv amount) (fundingTokenFor inv) payer ⟨id, .penalty⟩ penalties := by
  unfold payPenalty at hrun
  rcases onlyIf_ok.1 hrun with ⟨⟨hlate, -⟩, hrun⟩ | ⟨hno, rfl⟩
  · obtain ⟨penalty, hpenalty, hrun⟩ := ofResult_bind.1 hrun
    have hfee : penalty = lateFee env inv amount := by
      rw [lateFee, if_pos hlate]
      exact checkedBpsOf_eq hamount.1 hamount.2 (checkedBpsOf_ok.2 hpenalty)
    have hnonneg : 0 ≤ penalty := plainMulDiv_nonneg hpenalty (by norm_num)
    have hword : penalty ≤ i128Max := plainMulDiv_le hpenalty (by norm_num)
    rw [← hfee]
    rcases onlyIf_ok.1 hrun with ⟨-, hrun⟩ | ⟨hzero, rfl⟩
    · obtain ⟨done, hrun⟩ := ignore_ok.1 hrun
      obtain ⟨moved, hdivides, -, hlog⟩ := payShares_divides payPenaltyShare_pays hwords ⟨hnonneg, hword⟩ hrun
      exact ⟨moved, hlog, hdivides⟩
    · obtain rfl : penalty = 0 := le_antisymm (not_lt.1 hzero) hnonneg
      exact ⟨[], rfl, divides_nothing⟩
  · refine ⟨[], rfl, ?_⟩
    have hfee : lateFee env inv amount = 0 := by
      unfold lateFee
      split_ifs with hlate
      · have hrate : penaltyRate env inv = 0 := Nat.eq_zero_of_not_pos fun h => hno ⟨hlate, h⟩
        simp [hrate, bpsPart]
      · rfl
    rw [hfee]
    exact divides_nothing

theorem takePayment_taken (hwords : WordAmounts inv) (hamount : 0 ≤ amount ∧ amount ≤ i128Max)
    (hcredited : creditedAmount inv amount remaining = .ok credited)
    (hrun : takePayment env payer id inv amount credited premium s = .ok (v, t)) :
    ∃ charge passed penalties, t.log = penalties.reverse ++ (passed ++ charge :: s.log) ∧
      Taken env id inv payer amount credited premium charge passed penalties := by
  obtain ⟨u₁, u₂, hcollect, hexcess, hpenalty⟩ := takePayment_ok.1 hrun
  obtain ⟨-, rfl⟩ := collect_ok.1 hcollect
  obtain ⟨passed, hpassed, hon, hsum⟩ := passOnExcess_passes hcredited hexcess
  obtain ⟨penalties, hpenalties, hdivides⟩ := payPenalty_divides hwords hamount hpenalty
  refine ⟨_, passed, penalties, by rw [hpenalties, hpassed]; rfl, ?_, hon, hsum, hdivides⟩
  congr 1
  ring

/-! ## The whole payment -/

/-- What a payment is split into, and what a release that it brings about pays out. -/
structure Parts where
  target : ℤ
  credited : ℤ
  premium : ℤ
  charge : Transfer Memo
  passed : List (Transfer Memo)
  penalties : List (Transfer Memo)
  released : List (Transfer Memo)

structure SplitsInto (env : Env) (id : ℕ) (inv : Invoice) (payer : Address) (amount : ℤ) (s t : Store)
    (p : Parts) (inv' : Invoice) : Prop where
  target : paymentTarget env inv = .ok p.target
  credited : creditedAmount inv amount (p.target - inv.funded) = .ok p.credited
  premium : plainMulDiv (asU128 p.credited) inv.insurancePremiumBps 10000 = .ok p.premium
  taken : Taken env id inv payer amount p.credited p.premium p.charge p.passed p.penalties
  log : t.log = p.released ++ (p.penalties.reverse ++ (p.passed ++ p.charge :: s.log))
  released : ∀ m ∈ p.released, m.memo.purpose.ofRelease = true
  stored : (t.entries id).load = some inv'
  funded : inv'.funded = inv.funded + p.credited
  within : inv.overfundingPolicy ≠ .acceptAll → inv'.funded ≤ max p.target inv.funded

theorem settlePayment_stored {paid : Invoice} (hrun : settlePayment env id paid target payer s = .ok (v, t)) :
    ∃ inv', (t.entries id).load = some inv' ∧ inv'.funded = paid.funded := by
  have hhold : (startHold env paid).funded = paid.funded := startHold_field Invoice.funded (fun _ => rfl) env
  obtain ⟨-, u, -, ⟨-, hsave⟩ | ⟨-, hrelease⟩⟩ | ⟨-, hsave⟩ := settlePayment_cases hrun
  · exact ⟨_, saveInvoice_load hsave, hhold⟩
  · obtain ⟨stored, hstored, hcloses⟩ := releaseAs_closes hrelease
    refine ⟨stored.withPayments (t.entries id).payments, ?_, hcloses.funded.trans hhold⟩
    rw [Entry.load, hstored]
    rfl
  · exact ⟨_, saveInvoice_load hsave, rfl⟩

theorem creditPayment_splits {donate : Bool} (hwords : WordAmounts inv) (hamount : 0 ≤ amount ∧ amount ≤ i128Max)
    (htarget : paymentTarget env inv = .ok target)
    (hrun : creditPayment env payer id inv amount target donate s = .ok (v, t)) :
    ∃ p inv', SplitsInto env id inv payer amount s t p inv' := by
  obtain ⟨credited, premium, credit, paid, u₁, u₂, u₃, u₄, u₅, u₆, hcredited, hpremium, htake, -, hrecord,
    hcount, hnotify, hmilestones, hreceipt, hsettle⟩ := creditPayment_passes hrun
  obtain ⟨charge, passed, penalties, hlog, htaken⟩ := takePayment_taken hwords hamount hcredited htake
  -- what follows moves tokens for a release only
  have hmoves : ∀ id, ReleaseMoves (Grows fun memo => memo.purpose.ofRelease = true) id :=
    fun _ => ⟨fun _ hp => moves_grows hp⟩
  have h₂ : Grows (fun memo => memo.purpose.ofRelease = true) u₁ u₂ := framed_recordPayment.respects u₁ _ u₂ hrecord
  have h₃ : Grows (fun memo => memo.purpose.ofRelease = true) u₂ u₃ := framed_countPayment.respects u₂ _ u₃ hcount
  have h₄ : Grows (fun memo => memo.purpose.ofRelease = true) u₃ u₄ := framed_notifyInvoice.respects u₃ _ u₄ hnotify
  have h₅ : Grows (fun memo => memo.purpose.ofRelease = true) u₄ u₅ :=
    framed_maybeReleaseMilestones.respects u₄ _ u₅ hmilestones
  have h₆ : Grows (fun memo => memo.purpose.ofRelease = true) u₅ u₆ := framed_invokeIfSet.respects u₅ _ u₆ hreceipt
  have h₇ : Grows (fun memo => memo.purpose.ofRelease = true) u₆ t :=
    framed_settlePayment_open.respects u₆ _ t hsettle
  obtain ⟨released, hreleased, hpurpose⟩ := trans_of (Grows _) h₂ <| trans_of (Grows _) h₃ <|
    trans_of (Grows _) h₄ <| trans_of (Grows _) h₅ <| trans_of (Grows _) h₆ h₇
  have hpaid : paid.funded = inv.funded + credited :=
    maybeReleaseMilestones_field Invoice.funded (fun _ => rfl) (fun _ => rfl) hmilestones
  obtain ⟨inv', hstored, hfunded⟩ := settlePayment_stored hsettle
  refine ⟨⟨target, credited, premium, charge, passed, penalties, released⟩, inv', htarget, hcredited, hpremium,
    htaken, by rw [hreleased, hlog], hpurpose, hstored, hfunded.trans hpaid, fun hpolicy => ?_⟩
  have hfits := creditedAmount_fits hcredited hpolicy
  rw [hfunded, hpaid]
  calc inv.funded + credited ≤ inv.funded + max (target - inv.funded) 0 := by linarith
    _ = max target inv.funded := by rw [← max_add_add_left]; simp

/-- Lifting the freeze changes nothing that a payment is split by. -/
theorem SplitsInto.of_resumed {p : Parts} {inv' : Invoice}
    (h : SplitsInto env id inv.resumed payer amount s t p inv') : SplitsInto env id inv payer amount s t p inv' :=
  ⟨h.target, h.credited, h.premium, ⟨h.taken.charges, h.taken.passes, h.taken.whole,
    ⟨h.taken.divides.each, h.taken.divides.sum⟩⟩, h.log, h.released, h.stored, h.funded, h.within⟩

theorem checkPayment_positive (hrun : checkPayment env payer id amount s = .ok (inv, t)) : 0 < amount := by
  simp only [checkPayment, loadInvoice_bind, require_bind] at hrun
  obtain ⟨-, -, -, -, -, -, hpositive, -⟩ := hrun
  exact hpositive

theorem checkPayment_accumulator (hrun : checkPayment env payer id amount s = .ok (inv, t)) :
    Keeps Entry.accumulator s t := by
  obtain ⟨stored, -, -, ⟨-, rfl⟩ | ⟨-, hsave⟩⟩ := checkPayment_ok hrun
  · exact refl_of (Keeps _) t
  · obtain ⟨-, rfl⟩ := saveInvoice_ok.1 hsave
    exact keeps_setEntry rfl

theorem accumulate_puts_by {remaining : ℤ}
    (hrun : accumulate id inv payer amount remaining s = .ok (false, t)) :
    PutBy (s.entries id) inv payer amount ∧
      (t.entries id).accumulator payer = (s.entries id).accumulator payer + amount := by
  unfold accumulate at hrun
  split_ifs at hrun with hmin
  · rw [getEntry_bind] at hrun
    split_ifs at hrun with hless
    · obtain ⟨_, u, hset, hrun⟩ := bind_ok.1 hrun
      obtain ⟨-, rfl⟩ := pure_ok.1 hrun
      obtain rfl := modifyEntry_ok.1 hset
      exact ⟨⟨hmin, hless⟩, by simp⟩
    · obtain ⟨-, hrun⟩ := require_bind.1 hrun
      obtain ⟨_, u, -, hrun⟩ := bind_ok.1 hrun
      cases (pure_ok.1 hrun).1
  · cases (pure_ok.1 hrun).1

/-- The checks before a payment is credited move nothing and keep the funding. -/
theorem still_load (h : Still id s t) (hload : (s.entries id).load = some inv) :
    ∃ inv', (t.entries id).load = some inv' ∧ inv'.funded = inv.funded := by
  obtain ⟨before, hbefore, hpurse⟩ := purse_load hload
  have hmap := h.purse
  rw [hbefore, Option.map_some] at hmap
  obtain ⟨stored, hstored, hsame⟩ := Option.map_eq_some_iff.1 hmap
  refine ⟨stored.withPayments (t.entries id).payments, by rw [Entry.load, hstored]; rfl, ?_⟩
  exact congrArg Purse.funded (hsame.trans hpurse.symm)

/-- A payment is put by, which moves no token and leaves the funding, or it is split. -/
theorem payInner_splits {nonce : ℕ} {donate : Bool} (hwords : WordAmounts inv)
    (hamount : amount ≤ i128Max) (hload : (s.entries id).load = some inv)
    (hrun : payInner env payer id amount nonce donate s = .ok (v, t)) :
    (PutBy (s.entries id) inv payer amount ∧ t.log = s.log ∧
        (t.entries id).accumulator payer = (s.entries id).accumulator payer + amount ∧
        ∃ inv', (t.entries id).load = some inv' ∧ inv'.funded = inv.funded) ∨
      (¬PutBy (s.entries id) inv payer amount ∧ ∃ p inv', SplitsInto env id inv payer amount s t p inv') := by
  obtain ⟨now, target, credits, u₁, u₂, u₃, hcheck, htarget, hkyc, haccumulate, hpaid⟩ := payInner_passes hrun
  obtain rfl := eq_of_framed hkyc
  have hpositive : 0 ≤ amount := (checkPayment_positive hcheck).le
  obtain ⟨stored, hload', -, hnow, hstill₁⟩ := checkPayment_still hcheck
  obtain rfl := Option.some.inj (hload.symm.trans hload')
  have hkept : Keeps Entry.accumulator s u₁ := checkPayment_accumulator hcheck
  have hput : PutBy (u₁.entries id) now payer amount ↔ PutBy (s.entries id) inv payer amount := by
    unfold PutBy
    rw [hkept id]
    rcases hnow with rfl | rfl <;> rfl
  have hstill₃ : Still id u₁ u₃ := framed_accumulate_still.respects u₁ _ u₃ haccumulate
  have hlog₁ : Grows (fun _ => False) s u₁ := framed_checkPayment.respects s _ u₁ hcheck
  have hlog₃ : Grows (fun _ => False) u₁ u₃ := framed_accumulate.respects u₁ _ u₃ haccumulate
  have hquiet : ∀ {x y : Store}, Grows (fun _ => False) x y → y.log = x.log := by
    rintro x y ⟨new, hnew, hnone⟩
    rw [hnew, List.eq_nil_iff_forall_not_mem.2 hnone, List.nil_append]
  rcases hpaid with ⟨rfl, u₄, hlimits, hcredit⟩ | ⟨rfl, rfl⟩
  · refine .inr ⟨fun h => accumulate_puts haccumulate (hput.2 h), ?_⟩
    have hlog₄ : Grows (fun _ => False) u₃ u₄ := framed_checkLimits.respects u₃ _ u₄ hlimits
    have hlog : u₄.log = s.log := (hquiet hlog₄).trans ((hquiet hlog₃).trans (hquiet hlog₁))
    have hwords' : WordAmounts now := by
      rcases hnow with rfl | rfl
      · exact hwords
      · exact ⟨hwords.nonneg, hwords.total⟩
    obtain ⟨p, inv', hsplit⟩ := creditPayment_splits hwords' ⟨hpositive, hamount⟩ htarget hcredit
    have hsame : SplitsInto env id now payer amount s t p inv' := { hsplit with log := by rw [hsplit.log, hlog] }
    refine ⟨p, inv', ?_⟩
    rcases hnow with rfl | rfl
    · exact hsame
    · exact hsame.of_resumed
  · obtain ⟨hput₁, hadded⟩ := accumulate_puts_by haccumulate
    rw [hkept id] at hadded
    exact .inl ⟨hput.1 hput₁, (hquiet hlog₃).trans (hquiet hlog₁), hadded,
      still_load (hstill₁.trans hstill₃) hload⟩

theorem payment_splits {nonce : ℕ} {donate : Bool} (hwords : WordAmounts inv) (hne : inv.recipients ≠ [])
    (hamount : amount ≤ i128Max) (hload : (s.entries id).load = some inv)
    (hrun : payInner env payer id amount nonce donate s = .ok (v, t)) :
    (PutBy (s.entries id) inv payer amount → t.log = s.log ∧
        ∃ inv', (t.entries id).load = some inv' ∧ inv'.funded = inv.funded) ∧
      (¬PutBy (s.entries id) inv payer amount → ∃ p inv', SplitsInto env id inv payer amount s t p inv' ∧
        ((p.charge :: p.penalties).map Transfer.amount).sum =
          p.credited + p.premium + (p.passed.map Transfer.amount).sum + lateFee env inv amount) := by
  rcases payInner_splits hwords hamount hload hrun with ⟨hput, hlog, -, hfunded⟩ | ⟨hnot, p, inv', hsplit⟩
  · exact ⟨fun _ => ⟨hlog, hfunded⟩, fun h => absurd hput h⟩
  · exact ⟨fun h => absurd h hnot, fun _ => ⟨p, inv', hsplit, hsplit.taken.leaving hne⟩⟩

/-- 30 units on an invoice that lacks 10, after the penalty deadline and with a premium. -/
def lateInvoice : Invoice := { sampleInvoice with
  funded := 90
  overflowBehavior := .refund
  insurancePremiumBps := 1000
  penaltyBps := 1000 }

theorem payment_splits_sample :
    (PutBy ((sampleStore lateInvoice []).entries 1) lateInvoice 20 30 →
      (commit (payInner (sampleEnv 5 60) 20 1 30 0 false) (sampleStore lateInvoice [])).log =
          (sampleStore lateInvoice []).log ∧
        ∃ inv', ((commit (payInner (sampleEnv 5 60) 20 1 30 0 false)
            (sampleStore lateInvoice [])).entries 1).load = some inv' ∧ inv'.funded = lateInvoice.funded) ∧
      (¬PutBy ((sampleStore lateInvoice []).entries 1) lateInvoice 20 30 →
        ∃ p inv', SplitsInto (sampleEnv 5 60) 1 lateInvoice 20 30 (sampleStore lateInvoice [])
            (commit (payInner (sampleEnv 5 60) 20 1 30 0 false) (sampleStore lateInvoice [])) p inv' ∧
          ((p.charge :: p.penalties).map Transfer.amount).sum =
            p.credited + p.premium + (p.passed.map Transfer.amount).sum +
              lateFee (sampleEnv 5 60) lateInvoice 30) :=
  payment_splits (v := ()) ⟨by decide, by decide⟩ (by decide) (by decide) rfl
    (ok_commit (s := sampleStore lateInvoice []) (a := ()) (by decide +kernel))

def thresholdInvoice : Invoice := { sampleInvoice with minPayment := 100 }

/-- A payment of 30 where at least 100 are asked for goes through, and no token moves. -/
theorem payment_put_by :
    ∃ t, payInner (sampleEnv 5 60) 20 1 30 0 false (sampleStore thresholdInvoice []) = .ok ((), t) ∧
      ¬∃ p inv', SplitsInto (sampleEnv 5 60) 1 thresholdInvoice 20 30 (sampleStore thresholdInvoice []) t p inv' := by
  refine ⟨_, ok_commit (s := sampleStore thresholdInvoice []) (a := ()) (by decide +kernel), ?_⟩
  rintro ⟨p, inv', h⟩
  have hlog : (commit (payInner (sampleEnv 5 60) 20 1 30 0 false) (sampleStore thresholdInvoice [])).log = [] := by
    decide +kernel
  have hnone := hlog.symm.trans h.log
  simp at hnone

end StellarSplit.Split.Charges
