import StellarSplit.Split.FullRelease

/-!
# Payouts of release calls

What a run of `release`, `release_invoice` and `trigger_scheduled_release`
calls sends to one recipient. One full release sends a recipient at most the
planned share; a second one sends it again, which happens as soon as a payout
of the first one failed. Tranches are counted in basis points, so a tranche
is never paid twice.
-/

namespace StellarSplit.Split

open Exec Function Machine

variable {s t u : Store} {env : Env} {id : ℕ} {inv : Invoice}

/-! ## A tranche release -/

/-- The part of a recipient with `amount` that `bps` of the funded amount stand for. -/
def bpsShare (inv : Invoice) (bps i : ℕ) : ℤ :=
  inv.amounts.getD i 0 * bps * inv.funded / (10000 * inv.total)

theorem total_nonneg (h : ∀ a ∈ inv.amounts, 0 ≤ a) : 0 ≤ inv.total := List.sum_nonneg h

theorem trancheShare_bounds {amount funded total raw : ℤ} {bps : ℕ} (hamount : 0 ≤ amount)
    (hfunded : 0 ≤ funded) (htotal : 0 ≤ total) (hword : total ≤ i128Max)
    (h : trancheShare amount funded total bps = .ok raw) :
    raw ≤ i128Max ∧ raw ≤ amount * bps * funded / (10000 * total) := by
  unfold trancheShare at h
  split at h
  · cases h
  · rename_i d hd
    unfold checkedMulU128 at hd
    split_ifs at hd with hfits
    obtain rfl := Option.some.inj hd
    split_ifs at h with hzero
    obtain rfl := Except.ok.inj h
    have hexact : asU128 total = total.toNat := asU128_of_nonneg htotal (by
      unfold i128Max at hword
      omega)
    have hprod : satMulU128 (satMulU128 (asU128 amount) bps) (asU128 funded) ≤
        asU128 amount * bps * asU128 funded :=
      (min_le_left _ _).trans (Nat.mul_le_mul_right _ (min_le_left _ _))
    have hsmall : satMulU128 (satMulU128 (asU128 amount) bps) (asU128 funded) /
        (10000 * asU128 total) < 2 ^ 127 := by
      have hmax : satMulU128 (satMulU128 (asU128 amount) bps) (asU128 funded) ≤ u128Max :=
        min_le_right _ _
      have hle : satMulU128 (satMulU128 (asU128 amount) bps) (asU128 funded) /
          (10000 * asU128 total) ≤ u128Max / 10000 := Nat.div_le_div hmax (by omega) (by norm_num)
      have hlt : u128Max / 10000 < 2 ^ 127 := by norm_num [u128Max]
      omega
    rw [asI128_of_lt hsmall]
    refine ⟨by unfold i128Max; omega, ?_⟩
    rw [hexact, Int.natCast_div]
    have hdivisor : ((10000 * total.toNat : ℕ) : ℤ) = 10000 * total := by
      push_cast
      rw [Int.toNat_of_nonneg htotal]
    rw [hdivisor]
    apply Int.ediv_le_ediv (by omega)
    calc ((satMulU128 (satMulU128 (asU128 amount) bps) (asU128 funded) : ℕ) : ℤ)
        ≤ ((asU128 amount * bps * asU128 funded : ℕ) : ℤ) := by exact_mod_cast hprod
      _ = (asU128 amount : ℤ) * bps * asU128 funded := by push_cast; ring
      _ ≤ amount * bps * funded := by
          apply mul_le_mul _ (asU128_le hfunded) (Int.natCast_nonneg _)
          · positivity
          · exact mul_le_mul_of_nonneg_right (asU128_le hamount) (Int.natCast_nonneg _)

theorem tranchePart_bounds (funded : ℤ) (bps : ℕ) :
    0 ≤ tranchePart funded bps ∧ tranchePart funded bps ≤ i128Max := by
  have hsmall : satMulU128 (asU128 funded) bps / 10000 < 2 ^ 127 := by
    have hmax : satMulU128 (asU128 funded) bps ≤ u128Max := min_le_right _ _
    have hlt : u128Max / 10000 < 2 ^ 127 := by norm_num [u128Max]
    omega
  unfold tranchePart
  rw [asI128_of_lt hsmall]
  unfold i128Max
  omega

theorem trancheFeeOf_bounds {amount fee : ℤ} (hfees : FeesValid env)
    (h : trancheFeeOf env inv amount = .ok fee) : 0 ≤ fee ∧ fee ≤ max amount 0 := by
  unfold trancheFeeOf at h
  split_ifs at h with hwaived
  · obtain rfl := Except.ok.inj h
    omega
  · exact computeFee_bounds hfees h

/-- Fees and taxes take something off a tranche share. -/
theorem trancheNet_le {recipient : Address} {raw amountReleased trancheFee : ℤ} {net : ℤ × ℤ × ℤ}
    (hraw : 0 < raw) (hword : raw ≤ i128Max) (hpart₀ : 0 ≤ amountReleased)
    (hpart₁ : amountReleased ≤ i128Max) (hfee₀ : 0 ≤ trancheFee)
    (hfee₁ : trancheFee ≤ max amountReleased 0)
    (h : trancheNet env inv recipient raw amountReleased trancheFee = .ok net) : net.1 ≤ raw := by
  obtain ⟨fee, hfee, h⟩ := except_bind_ok.1 h
  obtain ⟨tax, htax, h⟩ := except_bind_ok.1 h
  obtain rfl := Except.ok.inj h
  have htax₀ : 0 ≤ tax := plainMulDiv_nonneg htax (by norm_num)
  have hnet : raw - fee ≤ max raw 0 := by
    unfold trancheFeeOn at hfee
    split_ifs at hfee with hwaived
    · obtain rfl := Except.ok.inj hfee
      omega
    · have hpos : amountReleased ≠ 0 := fun h0 => hwaived (.inr h0)
      exact mulDiv_takes (by omega) hpart₁ hfee₀ hfee₁ hword (plainMulDiv_eq hfee)
  change raw - fee - tax ≤ raw
  omega

theorem deliverTranche_paidOut {r dst : Address} {amount : ℤ} {success : Bool}
    (hrun : deliverTranche env id inv dst amount s = .ok (success, t)) :
    t.entries = s.entries ∧ paidOut id (fundingTokenFor inv) r t ≤
      paidOut id (fundingTokenFor inv) r s + if dst = r then max amount 0 else 0 := by
  unfold deliverTranche at hrun
  obtain ⟨routed, u, hroute, hrun⟩ := bind_ok.1 hrun
  obtain rfl := eq_of_framed hroute
  cases routed with
  | true =>
      obtain ⟨-, rfl⟩ := pure_ok.1 hrun
      refine ⟨rfl, ?_⟩
      split_ifs <;> omega
  | false =>
      rw [if_neg (by simp)] at hrun
      refine ⟨?_, paidOut_tryTransfer hrun⟩
      obtain ⟨-, rfl⟩ := tryTransfer_ok.1 hrun
      split <;> rfl

/-- What the tranche pass knows of the amounts it divides. -/
structure TranchePriced (inv : Invoice) (amountReleased trancheFee : ℤ) : Prop where
  amounts : ∀ a ∈ inv.amounts, 0 ≤ a
  funded : 0 ≤ inv.funded
  total : inv.total ≤ i128Max
  part_nonneg : 0 ≤ amountReleased
  part_le : amountReleased ≤ i128Max
  fee_nonneg : 0 ≤ trancheFee
  fee_le : trancheFee ≤ max amountReleased 0

theorem amount_nonneg (hamounts : ∀ a ∈ inv.amounts, 0 ≤ a) (i : ℕ) : 0 ≤ inv.amounts.getD i 0 := by
  rw [List.getD_eq_getElem?_getD]
  cases hget : inv.amounts[i]? with
  | none => exact le_rfl
  | some a => exact hamounts a (List.mem_of_getElem? hget)

theorem bpsShare_nonneg (hamounts : ∀ a ∈ inv.amounts, 0 ≤ a) (hfunded : 0 ≤ inv.funded)
    (bps i : ℕ) : 0 ≤ bpsShare inv bps i := by
  have hamount : 0 ≤ inv.amounts.getD i 0 := amount_nonneg hamounts i
  have htotal : 0 ≤ inv.total := total_nonneg hamounts
  unfold bpsShare
  positivity

/-- One step of the tranche pass. -/
theorem payTranche_paidOut {r : Address} {bps : ℕ} {amountReleased trancheFee : ℤ}
    {acc acc' : TranchePass} {ri : Address × ℕ} (hpriced : TranchePriced inv amountReleased trancheFee)
    (hrun : payTranche env id inv bps amountReleased trancheFee acc ri s = .ok (acc', t)) :
    SameTerms id s t ∧
      paidOut id (fundingTokenFor inv) r t ≤ paidOut id (fundingTokenFor inv) r s +
        if ri.1 = r then bpsShare inv bps ri.2 else 0 := by
  have hweight : 0 ≤ bpsShare inv bps ri.2 := bpsShare_nonneg hpriced.amounts hpriced.funded bps ri.2
  unfold payTranche at hrun
  obtain ⟨amount, _, hread, hrun⟩ := bind_ok.1 hrun
  obtain ⟨hamount, rfl⟩ := ofResult_ok.1 hread
  rw [unwrap_ok] at hamount
  obtain ⟨raw, _, hshare, hrun⟩ := bind_ok.1 hrun
  obtain ⟨hraw, rfl⟩ := ofResult_ok.1 hshare
  have hbounds : raw ≤ i128Max ∧ raw ≤ bpsShare inv bps ri.2 := by
    have hget : inv.amounts.getD ri.2 0 = amount := by
      rw [List.getD_eq_getElem?_getD, hamount]
      rfl
    have h := trancheShare_bounds (hpriced.amounts _ (List.mem_of_getElem? hamount)) hpriced.funded
      (total_nonneg hpriced.amounts) hpriced.total hraw
    unfold bpsShare
    rwa [hget]
  split_ifs at hrun with hpos
  · obtain ⟨net, _, hprice, hrun⟩ := bind_ok.1 hrun
    obtain ⟨hnet, rfl⟩ := ofResult_ok.1 hprice
    obtain ⟨success, u₁, hdeliver, hrun⟩ := bind_ok.1 hrun
    obtain ⟨_, u₂, hfailure, hrun⟩ := bind_ok.1 hrun
    obtain ⟨-, rfl⟩ := pure_ok.1 hrun
    have hle : net.1 ≤ raw := trancheNet_le hpos hbounds.1 hpriced.part_nonneg hpriced.part_le
      hpriced.fee_nonneg hpriced.fee_le hnet
    obtain ⟨hentries, hsent⟩ := deliverTranche_paidOut (r := r) hdeliver
    have hfailure : SameTerms id u₁ u₂ ∧ u₂.log = u₁.log := by
      rcases onlyIf_ok.1 hfailure with ⟨-, hrecord⟩ | ⟨-, rfl⟩
      · exact ⟨framed_recordFailure.respects _ _ _ hrecord, log_recordFailure hrecord⟩
      · exact ⟨refl_of (SameTerms id) _, rfl⟩
    have hfirst : SameTerms id s u₁ := .of_entries (congrFun hentries id)
    refine ⟨hfirst.trans hfailure.1, ?_⟩
    rw [paidOut_log hfailure.2]
    split_ifs at hsent ⊢ <;> omega
  · obtain ⟨-, rfl⟩ := pure_ok.1 hrun
    refine ⟨refl_of (SameTerms id) s, ?_⟩
    split_ifs <;> omega

/-- The fields of an invoice that decide about its shares. -/
structure SameShares (inv inv' : Invoice) : Prop where
  recipients : inv'.recipients = inv.recipients
  amounts : inv'.amounts = inv.amounts
  funded : inv'.funded = inv.funded
  tranches : inv'.tranches = inv.tranches
  fundingToken : inv'.fundingToken = inv.fundingToken

theorem SameShares.refl (inv : Invoice) : SameShares inv inv := ⟨rfl, rfl, rfl, rfl, rfl⟩

theorem SameShares.trans {inv' inv'' : Invoice} (h₁ : SameShares inv inv') (h₂ : SameShares inv' inv'') :
    SameShares inv inv'' :=
  ⟨h₂.recipients.trans h₁.recipients, h₂.amounts.trans h₁.amounts, h₂.funded.trans h₁.funded,
    h₂.tranches.trans h₁.tranches, h₂.fundingToken.trans h₁.fundingToken⟩

section Updates

variable {inv' : Invoice}

theorem SameShares.withPayments (h : SameShares inv inv') (payments : List Payment) :
    SameShares inv (inv'.withPayments payments) := h.trans ⟨rfl, rfl, rfl, rfl, rfl⟩

theorem SameShares.completed (h : SameShares inv inv') (status : InvoiceStatus) (now : ℕ) :
    SameShares inv (inv'.completed status now) := h.trans ⟨rfl, rfl, rfl, rfl, rfl⟩

theorem SameShares.withStatus (h : SameShares inv inv') (status : InvoiceStatus) :
    SameShares inv (inv'.withStatus status) := h.trans ⟨rfl, rfl, rfl, rfl, rfl⟩

theorem SameShares.withReleasedBps (h : SameShares inv inv') (bps : ℕ) :
    SameShares inv (inv'.withReleasedBps bps) := h.trans ⟨rfl, rfl, rfl, rfl, rfl⟩

theorem SameShares.insurancePaid (h : SameShares inv inv') : SameShares inv inv'.insurancePaid :=
  h.trans ⟨rfl, rfl, rfl, rfl, rfl⟩

end Updates

/-- What a tranche release leaves. -/
structure TrancheReleased (id : ℕ) (inv : Invoice) (bps : ℕ) (s t : Store) : Prop where
  paid : ∀ r, paidOut id (fundingTokenFor inv) r t ≤
    paidOut id (fundingTokenFor inv) r s + sumAt inv.recipients r (bpsShare inv bps)
  stored : ∃ inv', (t.entries id).invoice = some inv' ∧ SameShares inv inv' ∧
    inv'.releasedBps = inv.releasedBps + bps

/-- The end of a tranche release books the basis points and pays nothing out. -/
theorem finishTranches_ok {bps : ℕ} {failed : Bool} {amount : ℤ} {v : Unit}
    (hrun : finishTranches env id inv bps failed amount s = .ok (v, t)) :
    (∀ r, paidOut id (fundingTokenFor inv) r t = paidOut id (fundingTokenFor inv) r s) ∧
      ∃ inv', (t.entries id).invoice = some inv' ∧ SameShares inv inv' ∧ inv'.releasedBps = bps := by
  unfold finishTranches at hrun
  split_ifs at hrun with hlast
  · obtain ⟨_, u, hclose, hsave⟩ := bind_ok.1 hrun
    have hlogs : Logs ∅ (notPayout id) ⟨id, .insurance⟩ := logs_notPayout (by simp)
    have hframe : Framed (Frame Set.univ ∅ (notPayout id)) (closeTranches env id inv amount) :=
      inferInstance
    have hchange : Change ∅ (notPayout id) s u := change_of_framed hframe hclose
    refine ⟨fun r => ?_, _, saveInvoice_stored hsave, ?_, rfl⟩
    · obtain ⟨-, rfl⟩ := saveInvoice_ok.1 hsave
      rw [← paidOut_change hchange]
      rfl
    · exact (((SameShares.refl inv).insurancePaid.withReleasedBps _).completed _ _).withPayments _
  · refine ⟨fun r => ?_, _, saveInvoice_stored hrun, ?_, rfl⟩
    · obtain ⟨-, rfl⟩ := saveInvoice_ok.1 hrun
      rfl
    · exact (((SameShares.refl inv).withReleasedBps _).withStatus _).withPayments _

theorem releaseTranches_ok {v : Unit} (hfees : FeesValid env) (hamounts : ∀ a ∈ inv.amounts, 0 ≤ a)
    (hfunded : 0 ≤ inv.funded) (htotal : inv.total ≤ i128Max)
    (hrun : releaseTranches env id inv s = .ok (v, t)) :
    0 < newlyUnlocked env inv ∧ TrancheReleased id inv (newlyUnlocked env inv) s t := by
  unfold releaseTranches at hrun
  obtain ⟨_, _, hrequire, hrun⟩ := bind_ok.1 hrun
  obtain ⟨hnew, rfl⟩ := require_ok.1 hrequire
  obtain ⟨trancheFee, _, hprice, hrun⟩ := bind_ok.1 hrun
  obtain ⟨hfee, rfl⟩ := ofResult_ok.1 hprice
  obtain ⟨pass, u₁, hloop, hrun⟩ := bind_ok.1 hrun
  obtain ⟨_, u₂, hpassFees, hrun⟩ := bind_ok.1 hrun
  obtain ⟨_, u₃, hrebate, hrun⟩ := bind_ok.1 hrun
  obtain ⟨_, u₄, hcount, hfinish⟩ := bind_ok.1 hrun
  have hpart := tranchePart_bounds inv.funded (newlyUnlocked env inv)
  have hfeeBounds := trancheFeeOf_bounds hfees hfee
  have hpriced : TranchePriced inv (tranchePart inv.funded (newlyUnlocked env inv)) trancheFee :=
    ⟨hamounts, hfunded, htotal, hpart.1, hpart.2, hfeeBounds.1, hfeeBounds.2⟩
  have hfeesPaid : Change ∅ (notPayout id) u₁ u₂ := by
    have htax : Logs ∅ (notPayout id) ⟨id, .tax⟩ := logs_notPayout (by simp)
    have hplatform : Logs ∅ (notPayout id) ⟨id, .platformFee⟩ := logs_notPayout (by simp)
    have hframe : Framed (Frame Set.univ ∅ (notPayout id)) (payTrancheFees env id inv pass) := by
      unfold payTrancheFees
      infer_instance
    exact change_of_framed hframe hpassFees
  have hrebated : Change ∅ (notPayout id) u₂ u₃ := change_of_framed inferInstance hrebate
  have hcounted : Change ∅ (notPayout id) u₃ u₄ := change_of_framed inferInstance hcount
  obtain ⟨hpaid, hstored⟩ := finishTranches_ok hfinish
  refine ⟨hnew, fun r => ?_, hstored⟩
  have hloopPaid : paidOut id (fundingTokenFor inv) r u₁ ≤ paidOut id (fundingTokenFor inv) r s +
      sumAt inv.recipients r (bpsShare inv (newlyUnlocked env inv)) := by
    obtain ⟨-, hle⟩ := foldlM_bound (P := SameTerms id s)
      (μ := paidOut id (fundingTokenFor inv) r)
      (w := fun ri => if ri.1 = r then bpsShare inv (newlyUnlocked env inv) ri.2 else 0)
      (fun acc ri u acc' u' _ hu hstep => by
        obtain ⟨hkept, hle⟩ := payTranche_paidOut hpriced hstep
        exact ⟨hu.trans hkept, hle⟩)
      (refl_of (SameTerms id) s) hloop
    exact hle
  calc paidOut id (fundingTokenFor inv) r t
      = paidOut id (fundingTokenFor inv) r u₁ := by
        rw [hpaid r, paidOut_change hcounted, paidOut_change hrebated, paidOut_change hfeesPaid]
    _ ≤ _ := hloopPaid

/-! ## Runs of release calls -/

inductive ReleaseCall where
  | release
  | releaseInvoice (preimage : Option (List ℕ))
  | triggerScheduledRelease
deriving DecidableEq

/-- A release call with its environment, which decides what transfers fail. -/
structure ReleaseStep where
  env : Env
  call : ReleaseCall

def ReleaseStep.run (id : ℕ) (step : ReleaseStep) : SplitM Unit :=
  match step.call with
  | .release => Split.release step.env id
  | .releaseInvoice preimage => Split.releaseInvoice step.env id preimage
  | .triggerScheduledRelease => Split.triggerScheduledRelease step.env id

/-- A release that gets through its gates passes the loaded invoice on. -/
theorem releaseInvoiceInner_ok {preimage : Option (List ℕ)} {v : Unit}
    (hrun : releaseInvoiceInner env id preimage s = .ok (v, t)) :
    ∃ inv, (s.entries id).load = some inv ∧
      (inv.status = .pending ∨ inv.status = .partiallyReleased) ∧
      releaseAs env id inv currentContract s = .ok (v, t) := by
  simp only [releaseInvoiceInner, requireFnNotPaused_bind, requireNotFrozen_bind, loadInvoice_bind] at hrun
  obtain ⟨-, -, inv, hload, hrun⟩ := hrun
  obtain ⟨_, u₁, hpreimage, hrun⟩ := bind_ok.1 hrun
  obtain rfl := eq_of_framed hpreimage
  simp only [require_bind] at hrun
  obtain ⟨-, -, -, hstatus, -, hrun⟩ := hrun
  obtain ⟨_, u₂, hdispute, hrun⟩ := bind_ok.1 hrun
  obtain rfl := eq_of_framed hdispute
  simp only [ofResult_bind, getEntry_bind, require_bind] at hrun
  obtain ⟨_, -, _, -, -, hrun⟩ := hrun
  obtain ⟨_, u₃, hdelay, hrun⟩ := bind_ok.1 hrun
  obtain rfl := eq_of_framed hdelay
  obtain ⟨_, u₄, happroval, hrun⟩ := bind_ok.1 hrun
  obtain rfl := eq_of_framed happroval
  obtain ⟨_, u₅, hprereq, hrun⟩ := bind_ok.1 hrun
  obtain rfl := eq_of_framed hprereq
  obtain ⟨_, u₆, hgroup, hrun⟩ := bind_ok.1 hrun
  obtain rfl := eq_of_framed hgroup
  obtain ⟨_, u₇, hcosigners, hrun⟩ := bind_ok.1 hrun
  obtain rfl := eq_of_framed hcosigners
  exact ⟨inv, hload, hstatus, hrun⟩

theorem triggerScheduledRelease_ok {v : Unit}
    (hrun : triggerScheduledRelease env id s = .ok (v, t)) :
    ∃ inv, (s.entries id).load = some inv ∧
      (inv.status = .pending ∨ inv.status = .partiallyReleased) ∧
      releaseAs env id inv currentContract s = .ok (v, t) := by
  simp only [triggerScheduledRelease, requireNotPaused_bind, loadInvoice_bind, require_bind,
    orPanic_bind, ofResult_bind] at hrun
  obtain ⟨-, inv, hload, -, -, hstatus, _, -, -, _, -, -, hrun⟩ := hrun
  obtain ⟨_, u₁, happroval, hrun⟩ := bind_ok.1 hrun
  obtain rfl := eq_of_framed happroval
  obtain ⟨_, u₂, hprereq, hrun⟩ := bind_ok.1 hrun
  obtain rfl := eq_of_framed hprereq
  obtain ⟨_, u₃, hcosigners, hrun⟩ := bind_ok.1 hrun
  obtain rfl := eq_of_framed hcosigners
  exact ⟨inv, hload, .inl hstatus, hrun⟩

/-- A release call that returns has run `_release` on a pending or partly released invoice,
between two states that differ from its own in the lock only. -/
theorem ReleaseStep.inner {step : ReleaseStep} {v : Unit} (hrun : step.run id s = .ok (v, t)) :
    ∃ inv b b' t', (s.entries id).load = some inv ∧
      (inv.status = .pending ∨ inv.status = .partiallyReleased) ∧
      releaseAs step.env id inv currentContract (s.withLock b) = .ok (v, t') ∧
      t = t'.withLock b' := by
  have hlocked : ∀ preimage, releaseInvoice step.env id preimage s = .ok (v, t) →
      ∃ inv b b' t', (s.entries id).load = some inv ∧
        (inv.status = .pending ∨ inv.status = .partiallyReleased) ∧
        releaseAs step.env id inv currentContract (s.withLock b) = .ok (v, t') ∧
        t = t'.withLock b' := by
    intro preimage hrun
    simp only [releaseInvoice, bind_ok, acquireLock_ok, removeLock_ok] at hrun
    obtain ⟨_, _, ⟨-, rfl⟩, _, t', hinner, rfl⟩ := hrun
    obtain ⟨inv, hload, hstatus, hrelease⟩ := releaseInvoiceInner_ok hinner
    exact ⟨inv, true, false, t', hload, hstatus, hrelease, rfl⟩
  obtain ⟨env, call⟩ := step
  cases call with
  | release => exact hlocked none hrun
  | releaseInvoice preimage => exact hlocked preimage hrun
  | triggerScheduledRelease =>
      obtain ⟨inv, hload, hstatus, hrelease⟩ := triggerScheduledRelease_ok hrun
      exact ⟨inv, s.reLock, t.reLock, t, hload, hstatus, hrelease, rfl⟩

theorem releaseWithin_ok {depth : ℕ} {actor : Address} {v : Unit}
    (hrun : releaseWithin env depth id inv actor s = .ok (v, t)) :
    (inv.tranches = [] ∧ ∃ next, releaseFull env (releaseWithin env next) id inv actor s = .ok (v, t)) ∨
      (inv.tranches ≠ [] ∧ releaseTranches env id inv s = .ok (v, t)) := by
  cases depth with
  | zero => exact (throw_ok.1 hrun).elim
  | succ depth =>
      obtain ⟨-, -, ⟨hempty, hfull⟩ | hinTranches⟩ := releaseWithin_succ_ok.1 hrun
      · exact .inl ⟨hempty, depth, hfull⟩
      · exact .inr hinTranches

theorem releaseAs_ok {actor : Address} {v : Unit} (hrun : releaseAs env id inv actor s = .ok (v, t)) :
    (inv.tranches = [] ∧ ∃ depth, releaseFull env (releaseWithin env depth) id inv actor s = .ok (v, t)) ∨
      (inv.tranches ≠ [] ∧ releaseTranches env id inv s = .ok (v, t)) := releaseWithin_ok hrun

/-- A release call may start: it pays in tranches, or no payout of it is on record as failed,
its routing pays no token twice, and no chain of forwards leads back to it. -/
def ReleaseSafe (id : ℕ) (s : Store) : Prop :=
  ∀ inv ∈ (s.entries id).invoice, inv.tranches = [] →
    (s.entries id).failedPayouts = [] ∧ (∀ i, RouteSafe inv i) ∧ id ∉ forwardReach s id

/-! ### Full releases -/

/-- After the first full release that returned: at most the shares have gone out, and a further
release cannot start safely. -/
structure ReleaseDone (id : ℕ) (inv : Invoice) (s t : Store) : Prop where
  paid : ∀ r, paidOut id inv.fundingToken r t ≤
    paidOut id inv.fundingToken r s + recipientShare (s.entries id) inv r
  stored : ∃ inv', (t.entries id).invoice = some inv' ∧ inv'.tranches = [] ∧
    (inv'.status = .released ∨ (t.entries id).failedPayouts ≠ [])

theorem ReleaseStep.full {step : ReleaseStep} {v : Unit} (hfees : FeesValid step.env)
    (hload : (s.entries id).load = some inv) (hwf : WellFormed (s.entries id) inv)
    (htranches : inv.tranches = []) (hsafe : ReleaseSafe id s)
    (hrun : step.run id s = .ok (v, t)) : ReleaseDone id inv s t := by
  obtain ⟨inv', b, b', t', hload', hstatus, hrelease, rfl⟩ := ReleaseStep.inner hrun
  obtain rfl : inv = inv' := Option.some.inj (hload.symm.trans hload')
  obtain ⟨stored, hstored, hinv⟩ := Option.map_eq_some_iff.1 hload
  have hfields : stored.tranches = [] ∧ ∀ i, RouteSafe stored i ↔ RouteSafe inv i := by
    subst hinv
    exact ⟨htranches, fun _ => Iff.rfl⟩
  obtain ⟨-, hroute, hacyclic⟩ := hsafe stored hstored hfields.1
  rcases releaseAs_ok hrelease with ⟨-, depth, hfull⟩ | ⟨hsome, -⟩
  · have h : FullyReleased id inv (s.withLock b) t' :=
      releaseFull_ok hfees hwf htranches (fun i => (hfields.2 i).1 (hroute i)) hacyclic
        (forwardReach_into hload) hfull
    exact ⟨h.paid, h.stored⟩
  · exact absurd htranches hsome

theorem sumAt_le {recipients : List Address} {r : Address} {f g : ℕ → ℤ} (h : ∀ i, f i ≤ g i) :
    sumAt recipients r f ≤ sumAt recipients r g := by
  apply List.sum_le_sum
  intro ri _
  split_ifs
  · exact h ri.2
  · exact le_rfl

theorem sumAt_add {recipients : List Address} {r : Address} (f g : ℕ → ℤ) :
    sumAt recipients r f + sumAt recipients r g = sumAt recipients r fun i => f i + g i := by
  unfold sumAt
  rw [← List.sum_map_add]
  congr 2
  funext ri
  split_ifs <;> simp

/-- Rounding down twice takes at least as much off as rounding down once. -/
theorem bpsShare_add (hamounts : ∀ a ∈ inv.amounts, 0 ≤ a) (m n i : ℕ) :
    bpsShare inv m i + bpsShare inv n i ≤ bpsShare inv (m + n) i := by
  unfold bpsShare
  have htotal : 0 ≤ inv.total := total_nonneg hamounts
  rcases htotal.eq_or_lt with hzero | hpos
  · simp [← hzero]
  · have hsum : inv.amounts.getD i 0 * (m + n : ℕ) * inv.funded =
        inv.amounts.getD i 0 * m * inv.funded + inv.amounts.getD i 0 * n * inv.funded := by
      push_cast
      ring
    rw [hsum]
    exact Int.ediv_add_ediv_le_add_ediv (by omega)

theorem bpsShare_congr {inv' : Invoice} (h : SameShares inv inv') (bps : ℕ) :
    bpsShare inv' bps = bpsShare inv bps := by
  funext i
  unfold bpsShare Invoice.total
  rw [h.amounts, h.funded]

/-- The part of the tranches that a run has paid so far. -/
def TrancheProgress (id : ℕ) (inv : Invoice) (s t : Store) : Prop :=
  ∃ inv', (t.entries id).invoice = some inv' ∧ SameShares inv inv' ∧
    ∃ bps, inv'.releasedBps = inv.releasedBps + bps ∧ bps ≤ 10000 ∧
      ∀ r, paidOut id inv.fundingToken r t ≤
        paidOut id inv.fundingToken r s + sumAt inv.recipients r (bpsShare inv bps)

theorem unlockedBps_le (tranches : List Tranche) (now : ℕ) :
    unlockedBps tranches now ≤ (tranches.map Tranche.basisPoints).sum := by
  unfold unlockedBps
  apply List.Sublist.sum_le_sum
  · exact (List.filter_sublist).map _
  · intro _ _
    exact Nat.zero_le _

theorem TrancheProgress.step {step : ReleaseStep} {v : Unit} (hfees : FeesValid step.env)
    (hwf : WellFormed (s.entries id) inv) (htranches : inv.tranches ≠ [])
    (h : TrancheProgress id inv s t) (hrun : step.run id t = .ok (v, u)) :
    TrancheProgress id inv s u := by
  obtain ⟨stored, hstored, hsame, bps, hreleased, hbps, hpaid⟩ := h
  obtain ⟨inv', b, b', u', hload, -, hrelease, rfl⟩ := ReleaseStep.inner hrun
  obtain rfl : stored.withPayments (t.entries id).payments = inv' := by
    simpa [Entry.load, hstored] using hload
  generalize hloaded : stored.withPayments (t.entries id).payments = loaded at hrelease
  have hshares : SameShares inv loaded := hloaded ▸ hsame.withPayments _
  have hbpsLoaded : loaded.releasedBps = inv.releasedBps + bps := by
    rw [← hloaded]
    exact hreleased
  rcases releaseAs_ok hrelease with ⟨hnone, -⟩ | ⟨-, htranche⟩
  · exact absurd (hshares.tranches ▸ hnone) htranches
  · have htotal : loaded.total = inv.total := congrArg List.sum hshares.amounts
    obtain ⟨hnew, hdone⟩ := releaseTranches_ok hfees (hshares.amounts ▸ hwf.amounts)
      (hshares.funded ▸ hwf.funded) (htotal ▸ hwf.total) htranche
    obtain ⟨inv'', hstored'', hsame'', hreleased''⟩ := hdone.stored
    have hunlocked : unlockedBps loaded.tranches step.env.now ≤ 10000 := by
      rw [hshares.tranches]
      exact (unlockedBps_le _ _).trans hwf.tranches
    refine ⟨inv'', hstored'', hshares.trans hsame'', bps + newlyUnlocked step.env loaded, ?_, ?_, ?_⟩
    · rw [hreleased'', hbpsLoaded]
      ring
    · unfold newlyUnlocked at hnew ⊢
      omega
    · intro r
      have htoken : fundingTokenFor loaded = inv.fundingToken := hshares.fundingToken
      have hstep : paidOut id inv.fundingToken r u' ≤ paidOut id inv.fundingToken r t +
          sumAt inv.recipients r (bpsShare inv (newlyUnlocked step.env loaded)) := by
        have h := hdone.paid r
        rw [htoken, hshares.recipients, bpsShare_congr hshares] at h
        exact h
      have hsum : sumAt inv.recipients r (bpsShare inv bps) +
          sumAt inv.recipients r (bpsShare inv (newlyUnlocked step.env loaded)) ≤
          sumAt inv.recipients r (bpsShare inv (bps + newlyUnlocked step.env loaded)) := by
        rw [sumAt_add]
        exact sumAt_le fun i => bpsShare_add hwf.amounts _ _ i
      have hsofar := hpaid r
      change paidOut id inv.fundingToken r u' ≤ _
      omega

/-- The sample invoice, fully funded by payer 20. -/
def fundedInvoice : Invoice := { sampleInvoice with funded := 100 }

def fundedStore : Store := sampleStore fundedInvoice [{ payer := 20, amount := 100 }]

/-- The sample environment with a token that refuses one recipient. -/
def refusingEnv (now : ℕ) (reserve : ℤ) (refused : Address) : Env :=
  { sampleEnv now reserve with
    accepts := fun log t => (sampleEnv now reserve).accepts log t && t.dst != refused }

theorem forwardReach_none (hnone : ∀ inv ∈ (s.entries id).invoice, inv.forwardInvoiceId = none) :
    id ∉ forwardReach s id := by
  intro hreach
  have hfirst : ∃ k, ForwardsTo s id k := by
    cases (Relation.TransGen.head'_iff.1 hreach) with
    | intro k h => exact ⟨k, h.1⟩
  obtain ⟨k, inv, hinv, hforward⟩ := hfirst
  rw [hnone inv hinv] at hforward
  cases hforward

end StellarSplit.Split
