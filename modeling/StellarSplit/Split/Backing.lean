import StellarSplit.Split.Outlays

/-!
# Tokens behind the funding

A payment that is credited brings at least what it adds to the funding, a
withdrawal takes what it takes off and a channel is credited from its deposit.
Over every run of such calls the balance holds the funding of the pending
invoices; a call that raises the funding without taking tokens in breaks it.
-/

namespace StellarSplit.Split

open Exec Function Machine

variable {env : Env} {s t u : Store} {v : Unit} {id j k : ℕ} {inv : Invoice} {payer tok : Address}
  {x y base : ℤ} {ids : Finset ℕ} {payers : Finset Address}

/-! ## Settling a credit -/

/-- What a release reads of the entries and no payment writes. -/
def Entry.ready (e : Entry) :=
  (e.planned, e.treasury, e.failedPayouts, e.authRequired, e.recipientVerified)

instance payNotes_ready : PayNotes (Keeps Entry.ready) id := by
  refine ⟨fun s e hcore hfailed => keeps_setEntry ?_⟩
  have hready : e.core.ready = (s.entries id).core.ready := by rw [hcore]
  simp only [Entry.ready, Entry.core, Prod.mk.injEq] at hready
  simp only [Entry.ready, Prod.mk.injEq]
  exact ⟨hready.1, hready.2.1, hfailed, hready.2.2.2⟩

instance credits_ready : Credits (Keeps Entry.ready) id := ⟨fun _ _ => keeps_setEntry rfl⟩

instance saves_ready : Saves (Keeps Entry.ready) id inv := ⟨fun _ _ _ => keeps_setEntry rfl⟩

/-- A full credit of an invoice that is not held back is released within its funding. -/
def CreditCovered (env : Env) (e : Entry) (inv : Invoice) (heldBack : Invoice → Bool) (actor : Address) :
    Prop :=
  inv.total ≤ inv.funded → isGuarded e inv = false → heldBack inv = false →
    ReleaseCovered env e inv actor

theorem isGuarded_ready {e e' : Entry} (h : e'.ready = e.ready) : isGuarded e' inv = isGuarded e inv :=
  isGuarded_congr (congrArg (fun q => q.1.1) h) inv

theorem ReleaseCovered.ready {e e' : Entry} {actor : Address} (h : ReleaseCovered env e inv actor)
    (hready : e'.ready = e.ready) : ReleaseCovered env e' inv actor := by
  have hpaid : e'.paidRecipients = e.paidRecipients := congrArg (fun q => q.1.2.1) hready
  have hlock : e'.recipientLock = e.recipientLock := congrArg (fun q => q.1.2.2) hready
  have htreasury : e'.treasury = e.treasury := congrArg (fun q => q.2.1) hready
  have hfailed : e'.failedPayouts = e.failedPayouts := congrArg (fun q => q.2.2.1) hready
  refine ⟨h.accounts, hfailed.trans h.unfailed, ?_, ?_⟩
  · have houtlay := h.outlay
    unfold releaseOutlay planOutlay at houtlay ⊢
    rwa [hpaid, hlock, htreasury]
  · have halone := h.alone
    unfold planLeft at halone ⊢
    rwa [hpaid, hlock]

theorem CreditCovered.ready {heldBack : Invoice → Bool} {actor : Address} {e e' : Entry}
    (h : CreditCovered env e inv heldBack actor) (hready : e'.ready = e.ready) :
    CreditCovered env e' inv heldBack actor := by
  intro htotal hunguarded hback
  rw [isGuarded_ready hready] at hunguarded
  exact (h htotal hunguarded hback).ready hready

theorem settleCredit_backs {heldBack : Invoice → Bool} {actor : Address} {e : Entry} (hid : id ∈ ids)
    (htoken : fundingTokenFor inv = tok) (hpending : inv.status = .pending)
    (hstored : (s.entries id).vault.1 = some (x, fundingTokenFor inv))
    (hready : (s.entries id).ready = e.ready) (hcovered : CreditCovered env e inv heldBack actor)
    (hrun : settleCredit env id inv heldBack actor s = .ok (v, t)) :
    Backs tok ids payers (inv.claim - x) s t := by
  obtain ⟨⟨htotal, hunguarded, hback⟩, hrun⟩ | ⟨-, hrun⟩ := settleCredit_cases hrun
  · exact releaseAs_backs hid htoken hpending hstored hunguarded
      (hcovered.ready hready htotal hunguarded hback) hrun
  · exact saveInvoice_backs hid hstored hrun

theorem ReleaseCovered.withPayments {e : Entry} {actor : Address} (h : ReleaseCovered env e inv actor)
    (ps : List Payment) : ReleaseCovered env e (inv.withPayments ps) actor :=
  ⟨h.accounts, h.unfailed, h.outlay, h.alone⟩

/-- What settling leaves: no other invoice is written, and one that is not full is saved. -/
theorem settleCredit_leaves {heldBack : Invoice → Bool} {actor : Address} {e : Entry}
    (hready : (s.entries id).ready = e.ready) (hcovered : CreditCovered env e inv heldBack actor)
    (hrun : settleCredit env id inv heldBack actor s = .ok (v, t)) :
    (∀ k, k ≠ id → t.entries k = s.entries k) ∧
      (inv.funded < inv.total → t.entries id = { s.entries id with invoice := some (inv.withPayments []) }) := by
  obtain ⟨⟨htotal, hunguarded, hback⟩, hrun⟩ | ⟨-, hrun⟩ := settleCredit_cases hrun
  · have hrelease := hcovered.ready hready htotal hunguarded hback
    exact ⟨fun k hk => releaseAs_others hunguarded hrelease hk hrun,
      fun hless => absurd htotal (not_le.2 hless)⟩
  · obtain ⟨-, rfl⟩ := saveInvoice_ok.1 hrun
    exact ⟨fun k hk => Store.setEntry_ne s hk _, fun _ => Store.setEntry_self s id _⟩

theorem vault_load (hload : (s.entries id).load = some inv) :
    (s.entries id).vault.1 = some (inv.claim, fundingTokenFor inv) := by
  obtain ⟨stored, hstored, rfl⟩ := Option.map_eq_some_iff.1 hload
  rw [Entry.vault, hstored]
  rfl

/-- At least `x` comes in, and what a release reads stays. -/
structure Gathers (tok : Address) (x : ℤ) (s t : Store) : Prop where
  draws : Draws tok (-x) s t
  ready : Keeps Entry.ready s t

theorem Gathers.trans (h₁ : Gathers tok x s u) (h₂ : Gathers tok y u t) : Gathers tok (x + y) s t :=
  ⟨(h₁.draws.trans h₂.draws).mono (by linarith), trans_of (Keeps _) h₁.ready h₂.ready⟩

theorem Gathers.mono (h : Gathers tok x s t) (hyx : y ≤ x) : Gathers tok y s t :=
  ⟨h.draws.mono (by linarith), h.ready⟩

theorem gathers_of_rests (h : Rests tok s t) (hready : Keeps Entry.ready s t) : Gathers tok 0 s t :=
  ⟨by rwa [neg_zero], hready⟩

instance gathers_refl : Std.Refl (Gathers tok 0) :=
  ⟨fun s => gathers_of_rests (.refl s) (refl_of (Keeps _) s)⟩

instance gathers_trans : IsTrans Store (Gathers tok 0) :=
  ⟨fun _ _ _ h₁ h₂ => by simpa using h₁.trans h₂⟩

instance countsVolume_gathers : CountsVolume (Gathers tok 0) :=
  ⟨fun _ _ => gathers_of_rests (rests_of_vaults (fun _ => rfl) rfl) fun _ => rfl⟩

instance payNotes_gathers : PayNotes (Gathers tok 0) id :=
  ⟨fun s e hcore hfailed => gathers_of_rests (notes_rests.note s e hcore)
    (payNotes_ready.note s e hcore hfailed)⟩

instance credits_gathers : Credits (Gathers tok 0) id :=
  ⟨fun s p => gathers_of_rests (credits_rests.credit s p) (credits_ready.credit s p)⟩

theorem collect_gathers {src : Address} {amount : ℤ} {memo : Memo} (hsrc : src ≠ currentContract)
    (hrun : collect env tok src amount memo s = .ok (v, t)) : Gathers tok amount s t :=
  ⟨collect_draws hsrc hrun, framed_collect.respects s _ t hrun⟩

theorem settled_backs {heldBack : Invoice → Bool} {actor : Address} {amount : ℤ} (hid : id ∈ ids)
    (hload : (s.entries id).load = some inv) (htoken : fundingTokenFor inv = tok)
    (hpending : inv.status = .pending) (hgathers : Gathers tok y s u)
    (hcovered : CreditCovered env (s.entries id) (inv.withFunded (inv.funded + amount)) heldBack actor)
    (hrun : settleCredit env id (inv.withFunded (inv.funded + amount)) heldBack actor u = .ok (v, t)) :
    Backs tok ids payers (amount - y) s t := by
  have hstored : (u.entries id).vault.1 = some (inv.claim, fundingTokenFor inv) := by
    rw [hgathers.draws.vaults id, vault_load hload]
  have hsettled : Backs tok ids payers ((inv.withFunded (inv.funded + amount)).claim - inv.claim) u t :=
    settleCredit_backs hid htoken hpending hstored (hgathers.ready id) hcovered hrun
  have hpending' : (inv.withFunded (inv.funded + amount)).status = .pending := hpending
  have hgain : (inv.withFunded (inv.funded + amount)).claim - inv.claim = amount := by
    rw [Invoice.claim, Invoice.claim, if_pos hpending, if_pos hpending']
    change inv.funded + amount + max inv.insuranceFund 0 + max inv.bonusPool 0 - _ = amount
    ring
  exact (hgathers.draws.backs.trans hsettled).mono (by linarith)

theorem credit_backs {heldBack : Invoice → Bool} {actor : Address} {amount : ℤ} (hid : id ∈ ids)
    (hload : (s.entries id).load = some inv) (htoken : fundingTokenFor inv = tok)
    (hpending : inv.status = .pending) (hgathers : Gathers tok amount s u)
    (hcovered : CreditCovered env (s.entries id) (inv.withFunded (inv.funded + amount)) heldBack actor)
    (hrun : settleCredit env id (inv.withFunded (inv.funded + amount)) heldBack actor u = .ok (v, t)) :
    Backs tok ids payers 0 s t :=
  (settled_backs hid hload htoken hpending hgathers hcovered hrun).mono (by linarith)

/-! ## The calls -/

theorem creditConverted_backs {heldBack : Invoice → Bool} {amount : ℤ} (hid : id ∈ ids)
    (hload : (s.entries id).load = some inv) (htoken : fundingTokenFor inv = tok)
    (hpending : inv.status = .pending) (hgathers : Gathers tok amount s u)
    (hcovered : CreditCovered env (s.entries id) (inv.withFunded (inv.funded + amount)) heldBack payer)
    (hrun : creditConverted env id inv payer amount heldBack u = .ok (v, t)) :
    Backs tok ids payers 0 s t := by
  obtain ⟨-, u₁, u₂, hshard, hnotify, hsettle⟩ := creditConverted_passes hrun
  have h₁ : Gathers tok 0 u u₁ := framed_creditShard.respects u _ u₁ hshard
  have h₂ : Gathers tok 0 u₁ u₂ := framed_notifyInvoice.respects u₁ _ u₂ hnotify
  have hall : Gathers tok amount s u₂ := ((hgathers.trans h₁).trans h₂).mono (by linarith)
  exact credit_backs hid hload htoken hpending hall hcovered hsettle

theorem payWithToken_backs {amount : ℤ} {nonce : ℕ} (hid : id ∈ ids)
    (htoken : ∀ inv, (s.entries id).load = some inv → fundingTokenFor inv = tok)
    (hcovered : ∀ inv, (s.entries id).load = some inv → CreditCovered env (s.entries id)
      (inv.withFunded (inv.funded + amount)) belowMinFunding payer)
    (hrun : payWithToken env payer id tok amount nonce s = .ok (v, t)) :
    Backs tok ids payers 0 s t := by
  obtain ⟨inv, credited, u₁, u₂, hload, hopen, hpayer, hnonce, htake, hcredit⟩ := payWithToken_passes hrun
  rw [takeToken, if_pos (htoken inv hload).symm, htoken inv hload] at htake
  obtain ⟨_, w, hcollect, htake⟩ := bind_ok.1 htake
  obtain ⟨rfl, rfl⟩ := pure_ok.1 htake
  have h₁ : Gathers tok 0 s u₁ := framed_incrementNonce.respects s _ u₁ hnonce
  have hgathers : Gathers tok amount s w :=
    (h₁.trans (collect_gathers hpayer hcollect)).mono (by linarith)
  exact creditConverted_backs hid hload (htoken inv hload) hopen.1 hgathers (hcovered inv hload) hcredit

theorem creditDelegated_gathers {source beneficiary : Address} {amount : ℤ}
    (hsource : source ≠ currentContract) (htoken : fundingTokenFor inv = tok)
    (hrun : creditDelegated env id inv source beneficiary amount s = .ok (v, t)) :
    Gathers tok amount s t := by
  unfold creditDelegated at hrun
  rw [htoken] at hrun
  obtain ⟨_, u, hcollect, hrun⟩ := bind_ok.1 hrun
  rw [require_bind] at hrun
  have hshard : Gathers tok 0 u t := framed_creditShard.respects u _ t hrun.2
  exact ((collect_gathers hsource hcollect).trans hshard).mono (by linarith)

theorem delegatePay_backs {delegate beneficiary : Address} {amount : ℤ} (hid : id ∈ ids)
    (htoken : ∀ inv, (s.entries id).load = some inv → fundingTokenFor inv = tok)
    (hcovered : ∀ inv, (s.entries id).load = some inv → CreditCovered env (s.entries id)
      (inv.withFunded (inv.funded + amount)) (fun _ => false) delegate)
    (hrun : delegatePay env delegate beneficiary id amount s = .ok (v, t)) :
    Backs tok ids payers 0 s t := by
  obtain ⟨inv, u₁, u₂, hload, hopen, hdelegate, hcredit, hnotify, hsettle⟩ := delegatePay_passes hrun
  have h₂ : Gathers tok 0 u₁ u₂ := framed_notifyInvoice.respects u₁ _ u₂ hnotify
  have hgathers : Gathers tok amount s u₂ :=
    ((creditDelegated_gathers hdelegate (htoken inv hload) hcredit).trans h₂).mono (by linarith)
  exact credit_backs hid hload (htoken inv hload) hopen.1 hgathers (hcovered inv hload) hsettle

theorem payInvoiceDelegated_backs {executor onBehalfOf : Address} {amount : ℤ} {nonce : ℕ}
    (hid : id ∈ ids) (htoken : ∀ inv, (s.entries id).load = some inv → fundingTokenFor inv = tok)
    (hcovered : ∀ inv, (s.entries id).load = some inv → CreditCovered env (s.entries id)
      (inv.withFunded (inv.funded + amount)) oraclePending executor)
    (hrun : payInvoiceDelegated env executor id amount nonce onBehalfOf s = .ok (v, t)) :
    Backs tok ids payers 0 s t := by
  obtain ⟨inv, u₁, u₂, u₃, u₄, hload, hopen, -, -, hexecutor, hremove, hnonce, hcredit, hcount, hsettle⟩ :=
    payInvoiceDelegated_passes hrun
  have h₁ : Gathers tok 0 s u₁ := by
    obtain rfl := modifyEntry_ok.1 hremove
    exact gathers_of_rests (rests_of_vaults (keeps_setEntry rfl) rfl) (keeps_setEntry rfl)
  have h₂ : Gathers tok 0 u₁ u₂ := by
    simp only [consumeGlobalNonce, get_bind, require_bind, set_ok] at hnonce
    obtain ⟨-, rfl⟩ := hnonce
    exact gathers_of_rests (rests_of_vaults (fun _ => rfl) rfl) fun _ => rfl
  have h₄ : Gathers tok 0 u₃ u₄ := framed_countPayment.respects u₃ _ u₄ hcount
  have h₃ : Gathers tok amount u₂ u₃ := creditDelegated_gathers hexecutor (htoken inv hload) hcredit
  have hgathers : Gathers tok amount s u₄ := (((h₁.trans h₂).trans h₃).trans h₄).mono (by linarith)
  exact credit_backs hid hload (htoken inv hload) hopen.1 hgathers (hcovered inv hload) hsettle

theorem contribute_backs {amount : ℤ} {r : ℤ × ℤ}
    (hnothing : ∀ inv, (s.entries id).load = some inv → appliedAmount inv amount ≤ 0)
    (hrun : contribute env id payer amount s = .ok (r, t)) : Backs tok ids payers 0 s t := by
  simp only [contribute, requireNotPaused_bind, requireAuth_bind, require_bind, loadInvoice_bind] at hrun
  obtain ⟨-, -, -, inv, hload, -, -, -, hrun⟩ := hrun
  obtain ⟨_, u, happly, hrun⟩ := bind_ok.1 hrun
  obtain ⟨-, rfl⟩ := pure_ok.1 hrun
  rcases onlyIf_ok.1 happly with ⟨hpos, -⟩ | ⟨-, rfl⟩
  · exact absurd (hnothing inv hload) (not_le.2 hpos)
  · exact (Draws.refl s).backs

theorem withdrawContribution_backs (hid : id ∈ ids)
    (htoken : ∀ inv, (s.entries id).load = some inv → fundingTokenFor inv = tok)
    (hfits : ∀ inv, (s.entries id).load = some inv → i128Min ≤ inv.funded - (s.entries id).contribution payer)
    (hrun : withdrawContribution env payer id s = .ok (v, t)) : Backs tok ids payers 0 s t := by
  simp only [withdrawContribution, requireAuth_bind, loadInvoice_bind, require_bind, getEntry_bind] at hrun
  obtain ⟨-, inv, hload, hpending, hpositive, hrun⟩ := hrun
  obtain ⟨_, u₁, hmodify, hrun⟩ := bind_ok.1 hrun
  obtain ⟨_, u₂, hsave, htransfer⟩ := bind_ok.1 hrun
  rw [htoken inv hload] at htransfer
  have h₁ : Rests tok s u₁ := by
    obtain rfl := modifyEntry_ok.1 hmodify
    exact rests_of_vaults (keeps_setEntry rfl) rfl
  have hstored : (u₁.entries id).vault.1 = some (inv.claim, fundingTokenFor inv) := by
    rw [h₁.vaults id, vault_load hload]
  have h₂ : Backs tok ids payers ((inv.withFunded (satSubI128 inv.funded
      ((s.entries id).contribution payer))).claim - inv.claim) u₁ u₂ := saveInvoice_backs hid hstored hsave
  have h₃ : Draws tok (max ((s.entries id).contribution payer) 0) u₂ t := transfer_draws_self htransfer
  have hpending' : (inv.withFunded (satSubI128 inv.funded
      ((s.entries id).contribution payer))).status = .pending := hpending
  have hless : satSubI128 inv.funded ((s.entries id).contribution payer) ≤
      inv.funded - (s.entries id).contribution payer := by
    have hfit := hfits inv hload
    unfold satSubI128
    omega
  refine ((h₁.backs.trans h₂).trans h₃.backs).mono ?_
  rw [Invoice.claim, Invoice.claim, if_pos hpending, if_pos hpending', max_eq_left hpositive.le]
  change 0 + (satSubI128 inv.funded ((s.entries id).contribution payer) + max inv.insuranceFund 0 +
    max inv.bonusPool 0 - _) + _ ≤ 0
  linarith

theorem revealConfidentialTotal_backs {decryptedSum : ℤ} {proof : Hash} (hid : id ∈ ids)
    (htoken : ∀ inv, (s.entries id).load = some inv → fundingTokenFor inv = tok)
    (hcovered : ∀ inv, (s.entries id).load = some inv → inv.total ≤ inv.funded ∧
      isGuarded (s.entries id) inv = false ∧
      ReleaseCovered env (s.entries id) (inv.withFunded inv.total) currentContract)
    (hrun : revealConfidentialTotal env id decryptedSum proof s = .ok (v, t)) :
    Backs tok ids payers 0 s t := by
  simp only [revealConfidentialTotal, requireNotPaused_bind, loadInvoice_bind, requireAuth_bind,
    require_bind] at hrun
  obtain ⟨-, inv, hload, -, hpending, hpositive, -, -, hrun⟩ := hrun
  obtain ⟨_, u, hsave, hrelease⟩ := bind_ok.1 hrun
  obtain ⟨hfull, hunguarded, hcovered⟩ := hcovered inv hload
  rw [min_eq_right (by linarith)] at hsave
  have hpending' : (inv.withFunded inv.total).status = .pending := hpending
  have h₁ : Backs tok ids payers ((inv.withFunded inv.total).claim - inv.claim) s u :=
    saveInvoice_backs hid (vault_load hload) hsave
  have hready : Keeps Entry.ready s u := framed_saveInvoice.respects s _ u hsave
  have hstored : (u.entries id).vault.1 =
      some ((inv.withFunded inv.total).claim, fundingTokenFor (inv.withFunded inv.total)) := by
    obtain ⟨-, rfl⟩ := saveInvoice_ok.1 hsave
    rw [Store.setEntry_self]
    rfl
  have hless : (inv.withFunded inv.total).claim ≤ inv.claim := by
    rw [Invoice.claim, Invoice.claim, if_pos hpending, if_pos hpending']
    change inv.total + max inv.insuranceFund 0 + max inv.bonusPool 0 ≤ _
    linarith
  rcases onlyIf_ok.1 hrelease with ⟨-, hrelease⟩ | ⟨-, rfl⟩
  · have hunguarded' : isGuarded (u.entries id) (inv.withFunded inv.total) = false := by
      rw [isGuarded_ready (hready id), ← hunguarded]
      rfl
    have h₂ : Backs tok ids payers
        ((inv.withFunded inv.total).claim - (inv.withFunded inv.total).claim) u t :=
      releaseAs_backs hid (htoken inv hload) hpending' hstored hunguarded' (hcovered.ready (hready id))
        hrelease
    exact (h₁.trans h₂).mono (by linarith)
  · exact h₁.mono (by linarith)

theorem creditChannel_backs {netPaid : ℤ} (hid : id ∈ ids) (hload : (s.entries id).load = some inv)
    (htoken : fundingTokenFor inv = tok)
    (hcovered : CreditCovered env (s.entries id) (inv.withFunded (inv.funded + netPaid)) conditionPending payer)
    (hrun : creditChannel env id inv payer netPaid s = .ok (v, t)) : Backs tok ids payers netPaid s t := by
  obtain ⟨hpending, u, hshard, hsettle⟩ := creditChannel_passes hrun
  have hgathers : Gathers tok 0 s u := framed_creditShard.respects s _ u hshard
  exact (settled_backs hid hload htoken hpending hgathers hcovered hsettle).mono (by linarith)

theorem clearChannel_backs {channel : Channel} (hid : id ∈ ids) (hpayer : payer ∈ payers)
    (hchannel : (s.entries id).channel payer = some channel)
    (hrun : setChannel id payer none s = .ok (v, t)) : Backs tok ids payers (-channel.claim) s t := by
  obtain ⟨hlog, hother, hinvoice, hcleared⟩ : t.log = s.log ∧ (∀ k, k ≠ id → t.entries k = s.entries k) ∧
      (t.entries id).invoice = (s.entries id).invoice ∧
      (t.entries id).channel = update (s.entries id).channel payer none := by
    obtain rfl := modifyEntry_ok.1 hrun
    refine ⟨rfl, fun k hk => Store.setEntry_ne s hk _, ?_, ?_⟩ <;> rw [Store.setEntry_self]
  have hbacks : Backs tok ids payers ((t.entries id).owed payers - (s.entries id).owed payers) s t := by
    refine backs_entry hid hother hlog (by rw [hinvoice]) fun p => ?_
    by_cases hp : p = payer
    · exact .inr (by rw [hcleared, hp, update_self])
    · exact .inl (by rw [hcleared, update_of_ne hp])
  have hsum : ∑ p ∈ payers, (((t.entries id).channel p |>.map Channel.claim).getD 0 -
      ((s.entries id).channel p |>.map Channel.claim).getD 0) = -channel.claim := by
    rw [Finset.sum_eq_single_of_mem payer hpayer]
    · rw [hcleared, update_self, hchannel]
      simp
    · intro p _ hp
      rw [hcleared, update_of_ne hp, sub_self]
  rw [Finset.sum_sub_distrib] at hsum
  refine hbacks.mono (le_of_eq ?_)
  unfold Entry.owed Entry.vault
  rw [hinvoice]
  dsimp only
  linarith

theorem closeChannel_backs (hid : id ∈ ids)
    (htoken : ∀ inv, (s.entries id).load = some inv → fundingTokenFor inv = tok)
    (hpayers : ∀ p, p ∉ payers → (s.entries id).channel p = none)
    (hcovered : ∀ inv channel, (s.entries id).load = some inv → (s.entries id).channel payer = some channel →
      0 < channel.deposited - channel.balance → CreditCovered env (s.entries id)
        (inv.withFunded (inv.funded + (channel.deposited - channel.balance))) conditionPending payer)
    (hrun : closeChannel env payer id s = .ok (v, t)) : Backs tok ids payers 0 s t := by
  obtain ⟨channel, inv, u, w, hchannel, hload, -, -, hcredit, hreturn, hset⟩ := closeChannel_passes hrun
  have hpayer : payer ∈ payers := by
    by_contra hnot
    rw [hpayers payer hnot] at hchannel
    cases hchannel
  obtain ⟨h₁, hkept⟩ : Backs tok ids payers (max (channel.deposited - channel.balance) 0) s u ∧
      (u.entries id).channel = (s.entries id).channel := by
    rcases hcredit with ⟨hpos, hcredit⟩ | ⟨-, rfl⟩
    · refine ⟨?_, creditChannel_channel hcredit id⟩
      rw [max_eq_left hpos.le]
      exact creditChannel_backs hid hload (htoken inv hload) (hcovered inv channel hload hchannel hpos) hcredit
    · exact ⟨(Draws.refl s).backs.mono (le_max_right _ _), rfl⟩
  have h₂ : Draws tok (max channel.balance 0) u w := by
    rcases onlyIf_ok.1 hreturn with ⟨-, hreturn⟩ | ⟨-, rfl⟩
    · obtain ⟨token, -, hreturn⟩ := orPanic_bind.1 hreturn
      refine (transfer_draws hreturn).mono ?_
      split_ifs
      · exact le_rfl
      · exact le_max_right _ _
    · exact (Draws.refl u).mono (le_max_right _ _)
  have hchannel' : (w.entries id).channel payer = some channel := by
    have hsame : (w.entries id).channel = (u.entries id).channel := congrArg Prod.snd (h₂.vaults id)
    rw [hsame, hkept, hchannel]
  have h₃ : Backs tok ids payers (-channel.claim) w t := clearChannel_backs hid hpayer hchannel' hset
  refine ((h₁.trans h₂.backs).trans h₃).mono (le_of_eq ?_)
  unfold Channel.claim
  ring

/-! ### Pools -/

section Pool

variable {payments : List InvoicePayment} {p : InvoicePayment}

/-- What the checks of a pool payment say about its list. -/
def PoolOpen (tok : Address) (payments : List InvoicePayment) (s : Store) : Prop :=
  ∀ p ∈ payments, 0 < p.amount ∧ ∀ inv ∈ (s.entries p.invoiceId).invoice,
    inv.status = .pending ∧ fundingTokenFor inv = tok

/-- The list fits every invoice, and what it fills up is released within the funding. -/
def PoolCovered (env : Env) (payer : Address) (payments : List InvoicePayment) (s : Store) : Prop :=
  ∀ p ∈ payments, ∀ inv ∈ (s.entries p.invoiceId).invoice,
    inv.funded + poolSum payments p.invoiceId ≤ inv.total ∧
      CreditCovered env (s.entries p.invoiceId)
        (inv.withFunded (inv.funded + poolSum payments p.invoiceId)) conditionPending payer

theorem poolSum_pos (hamounts : ∀ p ∈ payments, 0 < p.amount) (hp : p ∈ payments) :
    0 < poolSum payments p.invoiceId := by
  induction payments with
  | nil => cases hp
  | cons q payments ih =>
      have hrest : ∀ q ∈ payments, 0 < q.amount := fun q hq => hamounts q (List.mem_cons_of_mem _ hq)
      rw [poolSum_cons]
      rcases List.mem_cons.1 hp with rfl | hp
      · rw [if_pos rfl]
        linarith [hamounts p (by simp), poolSum_nonneg (k := p.invoiceId) hrest]
      · have hfirst : 0 ≤ if q.invoiceId = p.invoiceId then q.amount else 0 := by
          split_ifs
          · exact (hamounts q (by simp)).le
          · exact le_rfl
        linarith [ih hrest hp]

theorem creditPoolPayment_parts (hrun : creditPoolPayment env payer p s = .ok (v, t)) :
    ∃ inv u, (s.entries p.invoiceId).load = some inv ∧ Gathers tok 0 s u ∧
      (∀ k, k ≠ p.invoiceId → u.entries k = s.entries k) ∧
      settleCredit env p.invoiceId (inv.withFunded (inv.funded + p.amount)) conditionPending payer u =
        .ok (v, t) := by
  obtain ⟨inv, u₁, u₂, hload, hpush, hcumulative, hsettle⟩ := creditPoolPayment_passes hrun
  have h₁ : Gathers tok 0 s u₁ := framed_pushPayment.respects s _ u₁ hpush
  have h₂ : Gathers tok 0 u₁ u₂ := framed_addCumulative.respects u₁ _ u₂ hcumulative
  refine ⟨inv, u₂, hload, trans_of (Gathers tok 0) h₁ h₂, fun k hk => ?_, hsettle⟩
  have hne : Fact (k ≠ p.invoiceId) := ⟨hk⟩
  have ho₁ : Outside k s u₁ := framed_pushPayment.respects s _ u₁ hpush
  have ho₂ : Outside k u₁ u₂ := framed_addCumulative.respects u₁ _ u₂ hcumulative
  rw [ho₂.entries, ho₁.entries]

/-- One payment of the list takes its amount from the slack and leaves the rest of the list fitting. -/
theorem creditPoolPayment_backs (hids : p.invoiceId ∈ ids) (hopen : PoolOpen tok (p :: payments) s)
    (hcovered : PoolCovered env payer (p :: payments) s)
    (hrun : creditPoolPayment env payer p s = .ok (v, t)) :
    Backs tok ids payers p.amount s t ∧ PoolOpen tok payments t ∧ PoolCovered env payer payments t := by
  obtain ⟨inv, u, hload, hgathers, hothers, hsettle⟩ := creditPoolPayment_parts hrun
  have hamounts : ∀ q ∈ payments, 0 < q.amount := fun q hq => (hopen q (List.mem_cons_of_mem p hq)).1
  obtain ⟨stored, hstored, rfl⟩ := Option.map_eq_some_iff.1 hload
  obtain ⟨hpending, htoken⟩ := (hopen p (by simp)).2 stored hstored
  obtain ⟨hfits, hfull⟩ := hcovered p (by simp) stored hstored
  rw [poolSum_cons, if_pos rfl] at hfits hfull
  have hrest : 0 ≤ poolSum payments p.invoiceId := poolSum_nonneg hamounts
  -- the invoice is full only when the rest of the list has nothing more for it
  have hfirst : CreditCovered env (s.entries p.invoiceId)
      ((stored.withFunded (stored.funded + p.amount)).withPayments (s.entries p.invoiceId).payments)
      conditionPending payer := by
    intro htotal hunguarded hback
    have htotal' : stored.total ≤ stored.funded + p.amount := htotal
    have hzero : poolSum payments p.invoiceId = 0 := by linarith
    rw [hzero, add_zero] at hfull
    exact (hfull htotal hunguarded hback).withPayments _
  have hbacks : Backs tok ids payers (p.amount - 0) s t :=
    settled_backs hids hload htoken hpending hgathers hfirst hsettle
  obtain ⟨helse, hsaved⟩ := settleCredit_leaves (hgathers.ready p.invoiceId) hfirst hsettle
  have hsame : ∀ k, k ≠ p.invoiceId → t.entries k = s.entries k :=
    fun k hk => (helse k hk).trans (hothers k hk)
  -- an invoice the rest of the list still pays was saved
  have hstill : ∀ q ∈ payments, q.invoiceId = p.invoiceId → t.entries p.invoiceId =
      { u.entries p.invoiceId with
        invoice := some ((stored.withFunded (stored.funded + p.amount)).withPayments []) } := by
    intro q hq hqp
    apply hsaved
    have hpos := poolSum_pos hamounts hq
    rw [hqp] at hpos
    change stored.funded + p.amount < stored.total
    linarith
  refine ⟨hbacks.mono (by linarith), fun q hq => ⟨hamounts q hq, fun qinv hqinv => ?_⟩,
    fun q hq qinv hqinv => ?_⟩
  · by_cases hqp : q.invoiceId = p.invoiceId
    · rw [hqp, hstill q hq hqp] at hqinv
      obtain rfl := Option.some_inj.1 hqinv
      exact ⟨hpending, htoken⟩
    · rw [hsame _ hqp] at hqinv
      exact (hopen q (List.mem_cons_of_mem p hq)).2 qinv hqinv
  · by_cases hqp : q.invoiceId = p.invoiceId
    · have hready : (t.entries p.invoiceId).ready = (s.entries p.invoiceId).ready := by
        rw [hstill q hq hqp, ← hgathers.ready p.invoiceId]
        rfl
      rw [hqp, hstill q hq hqp] at hqinv
      obtain rfl := Option.some_inj.1 hqinv
      rw [hqp]
      rw [← add_assoc] at hfits hfull
      exact ⟨hfits, fun htotal hunguarded hback =>
        (hfull.ready hready htotal hunguarded hback).withPayments []⟩
    · have hnext := hcovered q (List.mem_cons_of_mem p hq) qinv (by rwa [← hsame _ hqp])
      rw [poolSum_cons, if_neg fun h => hqp h.symm, zero_add] at hnext
      rwa [hsame _ hqp]

theorem creditPoolPayments_backs (hids : ∀ p ∈ payments, p.invoiceId ∈ ids) (hopen : PoolOpen tok payments s)
    (hcovered : PoolCovered env payer payments s)
    (hrun : forM payments (creditPoolPayment env payer) s = .ok (v, t)) :
    Backs tok ids payers (payments.map InvoicePayment.amount).sum s t := by
  induction payments generalizing s with
  | nil =>
      obtain ⟨-, rfl⟩ := pure_ok.1 hrun
      exact (Draws.refl s).backs
  | cons p payments ih =>
      rw [List.forM_cons] at hrun
      obtain ⟨_, u, hfirst, hrest⟩ := bind_ok.1 hrun
      obtain ⟨hbacks, hopen', hcovered'⟩ := creditPoolPayment_backs (hids p (by simp)) hopen hcovered hfirst
      rw [List.map_cons, List.sum_cons]
      exact hbacks.trans (ih (fun q hq => hids q (List.mem_cons_of_mem p hq)) hopen' hcovered' hrest)

theorem poolPay_backs (hids : ∀ p ∈ payments, p.invoiceId ∈ ids)
    (htoken : ∀ p ∈ payments, ∀ inv, (s.entries p.invoiceId).load = some inv → fundingTokenFor inv = tok)
    (hcovered : PoolCovered env payer payments s)
    (hrun : poolPay env payer payments s = .ok (v, t)) : Backs tok ids payers 0 s t := by
  rw [poolPay_eq, requireNotPaused_bind, requireAuth_bind] at hrun
  obtain ⟨-, hauth, hinner⟩ := hrun
  obtain ⟨first, firstInv, u₁, u₂, hfirst, hfirstLoad, hcheck, hcollect, hcredit⟩ := poolPayInner_passes hinner
  rw [htoken first (List.mem_of_mem_head? hfirst) firstInv hfirstLoad] at hcheck hcollect
  obtain rfl := eq_of_framed hcheck
  have hopen : PoolOpen tok payments s := by
    intro p hp
    have hone := forM_each hcheck p hp
    simp only [checkPoolPayment, loadInvoice_bind, require_bind] at hone
    obtain ⟨inv, hload, hpending, -, -, hamount, -⟩ := hone
    obtain ⟨stored, hstored, rfl⟩ := Option.map_eq_some_iff.1 hload
    refine ⟨hamount, fun inv hinv => ?_⟩
    obtain rfl : stored = inv := Option.some_inj.1 (hstored.symm.trans hinv)
    have hsame := htoken p hp _ hload
    exact ⟨hpending, hsame⟩
  cases payments with
  | nil => cases hfirst
  | cons p payments =>
      have h₁ : Draws tok (-((p :: payments).map InvoicePayment.amount).sum) s u₂ :=
        collect_draws hauth.2 hcollect
      have hentries : u₂.entries = s.entries := by
        obtain ⟨-, rfl⟩ := collect_ok.1 hcollect
        rfl
      have hopen' : PoolOpen tok (p :: payments) u₂ := by
        unfold PoolOpen
        rwa [hentries]
      have hcovered' : PoolCovered env payer (p :: payments) u₂ := by
        unfold PoolCovered
        rwa [hentries]
      have h₂ : Backs tok ids payers ((p :: payments).map InvoicePayment.amount).sum u₂ t :=
        creditPoolPayments_backs hids hopen' hcovered' hcredit
      exact (h₁.backs.trans h₂).mono (by linarith)

end Pool

/-! ### Direct payments -/

/-- What the early-bird discount reads stays. -/
structure SameBirth (s t : Store) : Prop where
  stats : t.stats = s.stats
  created : Keeps Entry.createdLedger s t

instance sameBirth_refl : Std.Refl SameBirth := ⟨fun _ => ⟨rfl, fun _ => rfl⟩⟩

instance sameBirth_trans : IsTrans Store SameBirth :=
  ⟨fun _ _ _ h₁ h₂ => ⟨h₂.stats.trans h₁.stats, trans_of (Keeps _) h₁.created h₂.created⟩⟩

instance moves_sameBirth {memo : Memo} : Moves SameBirth memo := ⟨fun _ _ _ => ⟨rfl, fun _ => rfl⟩⟩

theorem sameBirth_setEntry {e : Entry} (h : e.createdLedger = (s.entries id).createdLedger) :
    SameBirth s (s.setEntry id e) :=
  ⟨rfl, keeps_setEntry h⟩

instance saves_sameBirth : Saves SameBirth id inv := ⟨fun _ _ _ => sameBirth_setEntry rfl⟩

theorem framed_birth {f : Entry → Entry} (hf : ∀ e, (f e).createdLedger = e.createdLedger) :
    Framed SameBirth (modifyEntry id f) :=
  .of (.modify fun _ => sameBirth_setEntry (hf _))

instance framed_accumulate_birth {a : Address} : Framed SameBirth (accumulate id inv a x y) := by
  have hset : ∀ x, Framed SameBirth (setAccumulator id a x) := fun _ => framed_birth fun _ => rfl
  unfold accumulate
  infer_instance

instance framed_checkLimits_birth {a : Address} {n : ℕ} :
    Framed SameBirth (checkLimits env id inv a x n) := by
  have hnonce : Framed SameBirth (incrementNonce id a) := framed_birth fun _ => rfl
  have hvelocity : ∀ window, Framed SameBirth (setVelocity id a window) := fun _ => framed_birth fun _ => rfl
  unfold checkLimits
  infer_instance

theorem earlyBirdCredit_birth (h : SameBirth s t) :
    earlyBirdCredit env t (t.entries id) inv x = earlyBirdCredit env s (s.entries id) inv x := by
  unfold earlyBirdCredit
  rw [h.stats, h.created id]

theorem recipientsVerified_ready {e e' : Entry} (h : e'.ready = e.ready) :
    recipientsVerified e' inv = recipientsVerified e inv := by
  have hrequired : e'.authRequired = e.authRequired := congrArg (fun q => q.2.2.2.1) h
  have hverified : e'.recipientVerified = e.recipientVerified := congrArg (fun q => q.2.2.2.2) h
  unfold recipientsVerified
  rw [hrequired, hverified]

theorem startHold_vault : (startHold env inv).claim = inv.claim ∧
    fundingTokenFor (startHold env inv) = fundingTokenFor inv := by
  exact ⟨startHold_field Invoice.claim (fun _ => rfl) env, startHold_field fundingTokenFor (fun _ => rfl) env⟩

theorem startHold_status : (startHold env inv).status = inv.status := by
  exact startHold_field Invoice.status (fun _ => rfl) env

theorem payGuarded_ready {e e' : Entry} (h : e'.ready = e.ready) :
    payGuarded env e' inv = payGuarded env e inv := by
  have hdelay : e'.releaseDelay = e.releaseDelay := congrArg (fun q => q.1.1.2.2) h
  unfold payGuarded
  rw [isGuarded_ready h, hdelay]

theorem settlePayment_backs {target : ℤ} {e : Entry} (hid : id ∈ ids) (htoken : fundingTokenFor inv = tok)
    (hstored : (s.entries id).vault.1 = some (x, fundingTokenFor inv))
    (hready : (s.entries id).ready = e.ready)
    (hcovered : target ≤ inv.funded → payGuarded env e (startHold env inv) = false →
      inv.status = .pending ∧ ReleaseCovered env e (startHold env inv) payer)
    (hrun : settlePayment env id inv target payer s = .ok (v, t)) :
    Backs tok ids payers (inv.claim - x) s t := by
  obtain ⟨hclaim, htoken'⟩ : (startHold env inv).claim = inv.claim ∧
    fundingTokenFor (startHold env inv) = fundingTokenFor inv := startHold_vault
  obtain ⟨hfull, u, hrecord, hend⟩ | ⟨-, hrun⟩ := settlePayment_cases hrun
  · have h₁ : Gathers tok 0 s u := framed_recordFunded.respects s _ u hrecord
    have hready' : (u.entries id).ready = e.ready := (h₁.ready id).trans hready
    have hstored' : (u.entries id).vault.1 = some (x, fundingTokenFor (startHold env inv)) := by
      rw [h₁.draws.vaults id, htoken', hstored]
    rcases hend with ⟨-, hrun⟩ | ⟨hopen, hrun⟩
    · have h₂ : Backs tok ids payers ((startHold env inv).claim - x) u t :=
        saveInvoice_backs hid hstored' hrun
      rw [hclaim] at h₂
      exact (h₁.draws.backs.trans h₂).mono (by linarith)
    · have hnot : payGuarded env e (startHold env inv) = false := by
        rwa [← payGuarded_ready hready']
      obtain ⟨hpending, hcovered⟩ := hcovered hfull hnot
      have hunguarded : isGuarded (u.entries id) (startHold env inv) = false :=
        isGuarded_of_payGuarded hopen
      have h₂ : Backs tok ids payers ((startHold env inv).claim - x) u t :=
        releaseAs_backs hid (htoken'.trans htoken) (startHold_status.trans hpending) hstored' hunguarded
          (hcovered.ready hready') hrun
      rw [hclaim] at h₂
      exact (h₁.draws.backs.trans h₂).mono (by linarith)
  · exact saveInvoice_backs hid hstored hrun

theorem creditedAmount_le {amount remaining credited : ℤ}
    (h : creditedAmount inv amount remaining = .ok credited) : credited ≤ amount := by
  unfold creditedAmount at h
  cases hpolicy : inv.overfundingPolicy with
  | acceptAll =>
      rw [hpolicy] at h
      exact (Except.ok.inj h).ge
  | returnSurplus =>
      rw [hpolicy] at h
      obtain rfl := Except.ok.inj h
      exact min_le_left _ _
  | cap =>
      rw [hpolicy] at h
      cases hbehavior : inv.overflowBehavior <;> rw [hbehavior] at h <;> dsimp only at h
      · split_ifs at h
        exact (Except.ok.inj h).ge
      all_goals
        obtain rfl := Except.ok.inj h
        split_ifs with hle
        · exact le_rfl
        · exact (not_le.1 hle).le

theorem passOnExcess_gathers {excess : ℤ} (htoken : fundingTokenFor inv = tok) (hexcess : 0 ≤ excess)
    (hrun : passOnExcess env id inv payer excess s = .ok (v, t)) : Gathers tok (-excess) s t := by
  refine ⟨?_, framed_passOnExcess.respects s _ t hrun⟩
  rw [neg_neg]
  unfold passOnExcess at hrun
  rw [htoken] at hrun
  have hmax : max excess 0 = excess := max_eq_left hexcess
  rcases onlyIf_ok.1 hrun with ⟨-, hrun⟩ | ⟨-, rfl⟩
  · split_ifs at hrun with hreturn
    · rw [← hmax]
      exact transfer_draws_self hrun
    · rcases onlyIf_ok.1 hrun with ⟨-, hrun⟩ | ⟨-, rfl⟩
      · obtain ⟨treasury, -, hrun⟩ := orPanic_bind.1 hrun
        rw [← hmax]
        exact transfer_draws_self hrun
      · exact (Draws.refl s).mono hexcess
  · exact (Draws.refl s).mono hexcess

theorem payPenalty_gathers {amount : ℤ} (hpayer : payer ≠ currentContract)
    (hrun : payPenalty env id inv payer amount s = .ok (v, t)) : Gathers tok 0 s t := by
  refine gathers_of_rests ?_ (framed_payPenalty.respects s _ t hrun)
  rcases onlyIf_ok.1 hrun with ⟨-, hrun⟩ | ⟨-, rfl⟩
  · obtain ⟨penalty, -, hrun⟩ := ofResult_bind.1 hrun
    rcases onlyIf_ok.1 hrun with ⟨-, hrun⟩ | ⟨-, rfl⟩
    · obtain ⟨distributed, hshares⟩ := ignore_ok.1 hrun
      refine Respects.foldlM (R := Rests tok) (fun b ri _ s c t hstep => ?_) 0 s _ t hshares
      obtain ⟨share, -, hstep⟩ := ofResult_bind.1 hstep
      obtain ⟨_, u, hmove, hstep⟩ := bind_ok.1 hstep
      obtain ⟨-, rfl⟩ := pure_ok.1 hstep
      rcases onlyIf_ok.1 hmove with ⟨hpos, hmove⟩ | ⟨-, rfl⟩
      · exact move_rests hpayer hpos hmove
      · exact Draws.refl s
    · exact Draws.refl s
  · exact Draws.refl s

/-- A payment is put by in the accumulator of the payer. -/
def PutBy (e : Entry) (inv : Invoice) (payer : Address) (amount : ℤ) : Prop :=
  0 < inv.minPayment ∧ e.accumulator payer + amount < inv.minPayment

/-- A payment that is credited releases no milestone and, when it releases the invoice, stays within
the funding. -/
def PayCovered (env : Env) (s : Store) (id : ℕ) (payer : Address) (amount : ℤ) (inv : Invoice) : Prop :=
  ∀ target credited premium credit, paymentTarget env inv = .ok target →
    creditedAmount inv amount (target - inv.funded) = .ok credited →
    plainMulDiv (asU128 credited) inv.insurancePremiumBps 10000 = .ok premium →
    earlyBirdCredit env s (s.entries id) inv credited = .ok credit →
    MilestoneAhead (s.entries id) (inv.credited (inv.funded + credited) premium credit) ∧
      (target ≤ inv.funded + credited →
        payGuarded env (s.entries id)
          (startHold env (inv.credited (inv.funded + credited) premium credit)) = false →
        ReleaseCovered env (s.entries id)
          (startHold env (inv.credited (inv.funded + credited) premium credit)) payer)

theorem creditPayment_backs {amount target : ℤ} {donate : Bool} (hid : id ∈ ids)
    (htoken : fundingTokenFor inv = tok) (hpending : inv.status = .pending)
    (hpayer : payer ≠ currentContract)
    (hstored : (u.entries id).vault.1 = some (inv.claim, fundingTokenFor inv))
    (hready : (u.entries id).ready = (s.entries id).ready) (hbirth : SameBirth s u)
    (htarget : paymentTarget env inv = .ok target) (hcovered : PayCovered env s id payer amount inv)
    (hrun : creditPayment env payer id inv amount target donate u = .ok (v, t)) :
    Backs tok ids payers 0 u t := by
  obtain ⟨credited, premium, credit, paid, u₃, u₄, u₅, u₆, u₇, u₈, hcredited, hpremium, htake, hcredit,
    hrecord, hcount, hnotify, hmilestones, hreceipt, hsettle⟩ := creditPayment_passes hrun
  have hpositive : 0 ≤ premium := plainMulDiv_nonneg hpremium (by norm_num)
  have hless : credited ≤ amount := creditedAmount_le hcredited
  -- the discount is the one the state before the payment gives
  have htaken : SameBirth u u₃ := framed_takePayment.respects u _ u₃ htake
  have hbefore : SameBirth s u₃ := trans_of SameBirth hbirth htaken
  rw [earlyBirdCredit_birth hbefore] at hcredit
  obtain ⟨hahead, hrelease⟩ := hcovered target credited premium credit htarget hcredited hpremium hcredit
  obtain ⟨u₁, u₂, hcollect, hexcess, hpenalty⟩ := takePayment_ok.1 htake
  rw [htoken] at hcollect
  have h₁ : Gathers tok (credited + premium + (amount - credited)) u u₁ := collect_gathers hpayer hcollect
  have h₂ : Gathers tok (-(amount - credited)) u₁ u₂ := passOnExcess_gathers htoken (by linarith) hexcess
  have h₃ : Gathers tok 0 u₂ u₃ := payPenalty_gathers hpayer hpenalty
  have h₄ : Gathers tok 0 u₃ u₄ := framed_recordPayment.respects u₃ _ u₄ hrecord
  have h₅ : Gathers tok 0 u₄ u₅ := framed_countPayment.respects u₄ _ u₅ hcount
  have h₆ : Gathers tok 0 u₅ u₆ := framed_notifyInvoice.respects u₅ _ u₆ hnotify
  have h₁₆ : Gathers tok (credited + premium) u u₆ :=
    (((((h₁.trans h₂).trans h₃).trans h₄).trans h₅).trans h₆).mono (by linarith)
  have hready₆ : (u₆.entries id).ready = (s.entries id).ready := (h₁₆.ready id).trans hready
  have hahead' : MilestoneAhead (u₆.entries id)
      (inv.credited (inv.funded + credited) premium credit) := by
    unfold MilestoneAhead
    rwa [recipientsVerified_ready hready₆]
  obtain ⟨rfl, rfl⟩ := maybeReleaseMilestones_ahead hahead' hmilestones
  have h₈ : Gathers tok 0 u₇ u₈ := framed_invokeIfSet.respects u₇ _ u₈ hreceipt
  have h₁₈ : Gathers tok (credited + premium) u u₈ := (h₁₆.trans h₈).mono (by linarith)
  have hready₈ : (u₈.entries id).ready = (s.entries id).ready := (h₈.ready id).trans hready₆
  have hstored₈ : (u₈.entries id).vault.1 = some (inv.claim, fundingTokenFor inv) := by
    rw [h₁₈.draws.vaults id, hstored]
  have hlast : Backs tok ids payers
      ((inv.credited (inv.funded + credited) premium credit).claim - inv.claim) u₈ t :=
    settlePayment_backs hid htoken hstored₈ hready₈
      (fun hfull hunguarded => ⟨hpending, hrelease hfull hunguarded⟩) hsettle
  have hpending' : (inv.credited (inv.funded + credited) premium credit).status = .pending := hpending
  have hgain : (inv.credited (inv.funded + credited) premium credit).claim ≤
      inv.claim + (credited + premium) := by
    rw [Invoice.claim, Invoice.claim, if_pos hpending, if_pos hpending']
    change inv.funded + credited + max (inv.insuranceFund + premium) 0 + max inv.bonusPool 0 ≤ _
    omega
  exact (h₁₈.draws.backs.trans hlast).mono (by linarith)

theorem accumulate_puts {amount remaining : ℤ}
    (hrun : accumulate id inv payer amount remaining s = .ok (true, t)) :
    ¬PutBy (s.entries id) inv payer amount := by
  unfold accumulate at hrun
  rintro ⟨hmin, hless⟩
  rw [if_pos hmin, getEntry_bind, if_pos hless] at hrun
  obtain ⟨_, u, -, hrun⟩ := bind_ok.1 hrun
  obtain ⟨hfalse, -⟩ := pure_ok.1 hrun
  cases hfalse

/-- The checks of a payment leave the record but for the freeze. -/
theorem checkPayment_gathers {amount : ℤ} (hrun : checkPayment env payer id amount s = .ok (inv, t)) :
    ∃ stored, (s.entries id).load = some stored ∧ stored.status = .pending ∧
      (inv = stored ∨ inv = stored.resumed) ∧ Gathers tok 0 s t ∧ Keeps Entry.accumulator s t := by
  have hready : Keeps Entry.ready s t := framed_checkPayment.respects s _ t hrun
  obtain ⟨stored, hload, hpending, hinv⟩ := checkPayment_ok hrun
  refine ⟨stored, hload, hpending, ?_⟩
  suffices hsame : (inv = stored ∨ inv = stored.resumed) ∧ Keeps Entry.vault s t ∧ t.log = s.log ∧
      Keeps Entry.accumulator s t from
    ⟨hsame.1, gathers_of_rests (rests_of_vaults hsame.2.1 hsame.2.2.1) hready, hsame.2.2.2⟩
  rcases hinv with ⟨rfl, rfl⟩ | ⟨rfl, hsave⟩
  · exact ⟨.inl rfl, fun _ => rfl, rfl, fun _ => rfl⟩
  · obtain ⟨-, rfl⟩ := saveInvoice_ok.1 hsave
    refine ⟨.inr rfl, keeps_setEntry ?_, rfl, keeps_setEntry rfl⟩
    exact Prod.ext (vault_load hload).symm rfl

theorem startHold_resumed : startHold env inv.resumed = (startHold env inv).resumed := by
  have hfield : inv.resumed.escrowHoldPeriod = inv.escrowHoldPeriod := rfl
  unfold startHold
  rw [hfield]
  cases inv.escrowHoldPeriod <;> rfl

theorem PayCovered.resumed {amount : ℤ} (h : PayCovered env s id payer amount inv) :
    PayCovered env s id payer amount inv.resumed := by
  intro target credited premium credit htarget hcredited hpremium hcredit
  obtain ⟨hahead, hrelease⟩ := h target credited premium credit htarget hcredited hpremium hcredit
  refine ⟨hahead, fun hfull hunguarded => ?_⟩
  have hhold : startHold env (inv.resumed.credited (inv.funded + credited) premium credit) =
      (startHold env (inv.credited (inv.funded + credited) premium credit)).resumed := by
    rw [← startHold_resumed]
    rfl
  change payGuarded env (s.entries id)
    (startHold env (inv.resumed.credited (inv.funded + credited) premium credit)) = false at hunguarded
  change ReleaseCovered env (s.entries id)
    (startHold env (inv.resumed.credited (inv.funded + credited) premium credit)) payer
  rw [hhold] at hunguarded ⊢
  have hcovered := hrelease hfull hunguarded
  exact ⟨hcovered.accounts, hcovered.unfailed, hcovered.outlay, hcovered.alone⟩

theorem pay_backs {amount : ℤ} {nonce : ℕ} {donate : Bool} (hid : id ∈ ids)
    (htoken : ∀ inv, (s.entries id).load = some inv → fundingTokenFor inv = tok)
    (hcovered : ∀ inv, (s.entries id).load = some inv →
      PutBy (s.entries id) inv payer amount ∨ PayCovered env s id payer amount inv)
    (hrun : pay env payer id amount nonce donate s = .ok (v, t)) : Backs tok ids payers 0 s t := by
  obtain ⟨inv, target, credits, u₁, u₂, u₃, hauth, hcheck, htarget, hkyc, haccumulate, hpaid⟩ :=
    pay_passes hrun
  obtain rfl := eq_of_framed hkyc
  obtain ⟨stored, hload, hpending, hinv, h₁, haccumulator⟩ := checkPayment_gathers hcheck
  have hb₁ : SameBirth s u₁ := framed_checkPayment.respects s _ u₁ hcheck
  have h₃ : Gathers tok 0 u₁ u₃ := framed_accumulate.respects u₁ _ u₃ haccumulate
  have hb₃ : SameBirth u₁ u₃ := framed_accumulate_birth.respects u₁ _ u₃ haccumulate
  have h₁₃ : Gathers tok 0 s u₃ := trans_of (Gathers tok 0) h₁ h₃
  rcases hpaid with ⟨hcredited, u₄, hlimits, hcredit⟩ | ⟨-, rfl⟩
  · have h₄ : Gathers tok 0 u₃ u₄ := framed_checkLimits.respects u₃ _ u₄ hlimits
    have hb₄ : SameBirth u₃ u₄ := framed_checkLimits_birth.respects u₃ _ u₄ hlimits
    have hbirth : SameBirth s u₄ := trans_of SameBirth hb₁ (trans_of SameBirth hb₃ hb₄)
    have h₁₄ : Gathers tok 0 s u₄ := trans_of (Gathers tok 0) h₁₃ h₄
    subst hcredited
    have hcovers : PayCovered env s id payer amount stored := by
      refine (hcovered stored hload).resolve_left fun hput => accumulate_puts haccumulate ?_
      unfold PutBy at hput ⊢
      rw [haccumulator id]
      rcases hinv with rfl | rfl <;> exact hput
    have hvault : (u₄.entries id).vault.1 = some (stored.claim, fundingTokenFor stored) := by
      rw [h₁₄.draws.vaults id, vault_load hload]
    have hlast : Backs tok ids payers 0 u₄ t := by
      rcases hinv with rfl | rfl
      · exact creditPayment_backs hid (htoken inv hload) hpending hauth.2 hvault (h₁₄.ready id) hbirth
          htarget hcovers hcredit
      · have htoken' : fundingTokenFor stored.resumed = tok := htoken stored hload
        have hpending' : stored.resumed.status = .pending := hpending
        have hvault' : (u₄.entries id).vault.1 =
            some (stored.resumed.claim, fundingTokenFor stored.resumed) := hvault
        exact creditPayment_backs hid htoken' hpending' hauth.2 hvault' (h₁₄.ready id) hbirth htarget
          hcovers.resumed hcredit
    exact (h₁₄.draws.backs.trans hlast).mono (by linarith)
  · exact h₁₃.draws.backs.mono (by linarith)

/-! ## Runs -/

/-- The calls that change the funding of pending invoices in one token. -/
inductive FundingCall where
  | pay (payer : Address) (id : ℕ) (amount : ℤ) (nonce : ℕ) (donateOnFailure : Bool)
  | contribute (id : ℕ) (payer : Address) (amount : ℤ)
  | payWithToken (payer : Address) (id : ℕ) (amount : ℤ) (nonce : ℕ)
  | poolPay (payer : Address) (payments : List InvoicePayment)
  | delegatePay (delegate beneficiary : Address) (id : ℕ) (amount : ℤ)
  | payInvoiceDelegated (executor : Address) (id : ℕ) (amount : ℤ) (nonce : ℕ) (onBehalfOf : Address)
  | revealConfidentialTotal (id : ℕ) (decryptedSum : ℤ) (proof : Hash)
  | withdrawContribution (payer : Address) (id : ℕ)
  | closeChannel (payer : Address) (id : ℕ)

namespace FundingCall

def run (tok : Address) (env : Env) : FundingCall → SplitM Unit
  | .pay payer id amount nonce donate => Split.pay env payer id amount nonce donate
  | .contribute id payer amount => ignore (Split.contribute env id payer amount)
  | .payWithToken payer id amount nonce => Split.payWithToken env payer id tok amount nonce
  | .poolPay payer payments => Split.poolPay env payer payments
  | .delegatePay delegate beneficiary id amount => Split.delegatePay env delegate beneficiary id amount
  | .payInvoiceDelegated executor id amount nonce onBehalfOf =>
      Split.payInvoiceDelegated env executor id amount nonce onBehalfOf
  | .revealConfidentialTotal id decryptedSum proof =>
      Split.revealConfidentialTotal env id decryptedSum proof
  | .withdrawContribution payer id => Split.withdrawContribution env payer id
  | .closeChannel payer id => Split.closeChannel env payer id

def targets : FundingCall → List ℕ
  | .poolPay _ payments => payments.map InvoicePayment.invoiceId
  | .pay _ id _ _ _ | .contribute id _ _ | .payWithToken _ id _ _ | .delegatePay _ _ id _
  | .payInvoiceDelegated _ id _ _ _ | .revealConfidentialTotal id _ _ | .withdrawContribution _ id
  | .closeChannel _ id => [id]

/-- The call raises no funding without taking tokens in, and what it pays out stays within the
funding of the invoices it closes. -/
def Covered (env : Env) (s : Store) : FundingCall → Prop
  | .pay payer id amount _ _ => ∀ inv, (s.entries id).load = some inv →
      PutBy (s.entries id) inv payer amount ∨ PayCovered env s id payer amount inv
  | .contribute id _ amount => ∀ inv, (s.entries id).load = some inv → appliedAmount inv amount ≤ 0
  | .payWithToken payer id amount _ => ∀ inv, (s.entries id).load = some inv →
      CreditCovered env (s.entries id) (inv.withFunded (inv.funded + amount)) belowMinFunding payer
  | .poolPay payer payments => PoolCovered env payer payments s
  | .delegatePay delegate _ id amount => ∀ inv, (s.entries id).load = some inv →
      CreditCovered env (s.entries id) (inv.withFunded (inv.funded + amount)) (fun _ => false) delegate
  | .payInvoiceDelegated executor id amount _ _ => ∀ inv, (s.entries id).load = some inv →
      CreditCovered env (s.entries id) (inv.withFunded (inv.funded + amount)) oraclePending executor
  | .revealConfidentialTotal id _ _ => ∀ inv, (s.entries id).load = some inv →
      inv.total ≤ inv.funded ∧ isGuarded (s.entries id) inv = false ∧
        ReleaseCovered env (s.entries id) (inv.withFunded inv.total) currentContract
  | .withdrawContribution payer id => ∀ inv, (s.entries id).load = some inv →
      i128Min ≤ inv.funded - (s.entries id).contribution payer
  | .closeChannel payer id => ∀ inv channel, (s.entries id).load = some inv →
      (s.entries id).channel payer = some channel → 0 < channel.deposited - channel.balance →
        CreditCovered env (s.entries id)
          (inv.withFunded (inv.funded + (channel.deposited - channel.balance))) conditionPending payer

end FundingCall

def fundingStep (tok : Address) (c : Env × FundingCall) : SplitM Unit := c.2.run tok c.1

/-- The invoices are in one token, their channels are those of `payers` and the balance, which was
`base` before the first movement, covers every claim. -/
structure Solvent (base : ℤ) (tok : Address) (ids : Finset ℕ) (payers : Finset Address) (s : Store) :
    Prop where
  tokens : ∀ k ∈ ids, ∀ inv, (s.entries k).load = some inv → fundingTokenFor inv = tok
  channels : ∀ k ∈ ids, ∀ p, p ∉ payers → (s.entries k).channel p = none
  covered : 0 ≤ base + slack tok ids payers s

/-- The funding of the pending ones among the invoices. -/
def pendingFunding (ids : Finset ℕ) (s : Store) : ℤ :=
  ∑ k ∈ ids, (((s.entries k).load.filter fun inv => inv.status = .pending).map Invoice.funded).getD 0

theorem Solvent.backs (h : Solvent base tok ids payers s) (hbacks : Backs tok ids payers 0 s t) :
    Solvent base tok ids payers t := by
  refine ⟨fun k hk inv hload => ?_, fun k hk p hp => ?_, by linarith [h.covered, hbacks.slack]⟩
  · obtain ⟨stored, hstored, rfl⟩ := Option.map_eq_some_iff.1 hload
    have htoken := hbacks.tokens k
    dsimp only at htoken
    rw [hstored, Option.map_some, eq_comm, Option.map_eq_some_iff] at htoken
    obtain ⟨before, hbefore, hsame⟩ := htoken
    have hload' : (s.entries k).load = some (before.withPayments (s.entries k).payments) := by
      rw [Entry.load, hbefore]
      rfl
    have htok := h.tokens k hk _ hload'
    exact hsame.symm.trans htok
  · rcases hbacks.channels k p with hsame | hnone
    · rw [hsame]
      exact h.channels k hk p hp
    · exact hnone

theorem Solvent.funded (h : Solvent base tok ids payers s) :
    pendingFunding ids s ≤ base + held s.log tok := by
  have hpart : ∀ k ∈ ids, (((s.entries k).load.filter fun inv => inv.status = .pending).map
      Invoice.funded).getD 0 ≤ (s.entries k).owed payers := by
    intro k _
    have hchannels : 0 ≤ ∑ p ∈ payers, (((s.entries k).vault.2 p).map Channel.claim).getD 0 := by
      apply Finset.sum_nonneg
      intro p _
      cases (s.entries k).vault.2 p with
      | none => exact le_rfl
      | some channel => exact add_nonneg (le_max_right _ _) (le_max_right _ _)
    unfold Entry.owed
    cases hload : (s.entries k).load with
    | none =>
        have hnone : (s.entries k).invoice = none := Option.map_eq_none_iff.1 hload
        rw [show (s.entries k).vault.1 = none by rw [Entry.vault, hnone]; rfl]
        simpa using hchannels
    | some inv =>
        rw [vault_load hload]
        by_cases hpending : inv.status = .pending
        · simp only [Option.filter_some, hpending, decide_true, if_true, Option.map_some, Option.getD_some,
            Invoice.claim]
          linarith [le_max_right inv.insuranceFund 0, le_max_right inv.bonusPool 0]
        · simp only [Option.filter_some, hpending, decide_false, if_false, Option.map_some, Option.getD_some,
            Invoice.claim]
          simpa using hchannels
  have hsum := Finset.sum_le_sum hpart
  have hcovered := h.covered
  unfold slack at hcovered
  unfold pendingFunding
  linarith

theorem FundingCall.backs {call : FundingCall} (htargets : ∀ k ∈ call.targets, k ∈ ids)
    (h : Solvent base tok ids payers s) (hcovered : call.Covered env s)
    (hrun : call.run tok env s = .ok (v, t)) : Backs tok ids payers 0 s t := by
  cases call with
  | pay payer id amount nonce donate =>
      have hid := htargets id (by simp [FundingCall.targets])
      exact pay_backs hid (h.tokens id hid) hcovered hrun
  | contribute id payer amount =>
      obtain ⟨r, hrun⟩ := ignore_ok.1 hrun
      exact contribute_backs hcovered hrun
  | payWithToken payer id amount nonce =>
      have hid := htargets id (by simp [FundingCall.targets])
      exact payWithToken_backs hid (h.tokens id hid) hcovered hrun
  | poolPay payer payments =>
      have hids : ∀ p ∈ payments, p.invoiceId ∈ ids :=
        fun p hp => htargets _ (List.mem_map.2 ⟨p, hp, rfl⟩)
      exact poolPay_backs hids (fun p hp => h.tokens _ (hids p hp)) hcovered hrun
  | delegatePay delegate beneficiary id amount =>
      have hid := htargets id (by simp [FundingCall.targets])
      exact delegatePay_backs hid (h.tokens id hid) hcovered hrun
  | payInvoiceDelegated executor id amount nonce onBehalfOf =>
      have hid := htargets id (by simp [FundingCall.targets])
      exact payInvoiceDelegated_backs hid (h.tokens id hid) hcovered hrun
  | revealConfidentialTotal id decryptedSum proof =>
      have hid := htargets id (by simp [FundingCall.targets])
      exact revealConfidentialTotal_backs hid (h.tokens id hid) hcovered hrun
  | withdrawContribution payer id =>
      have hid := htargets id (by simp [FundingCall.targets])
      exact withdrawContribution_backs hid (h.tokens id hid) hcovered hrun
  | closeChannel payer id =>
      have hid := htargets id (by simp [FundingCall.targets])
      exact closeChannel_backs hid (h.tokens id hid) (h.channels id hid) hcovered hrun

/-- In every run of covered calls the balance holds the funding of the pending invoices, and whatever
the claims have gained has come in. -/
theorem funding_is_backed {calls : List (Env × FundingCall)} (h : Solvent base tok ids payers s)
    (htargets : ∀ c ∈ calls, ∀ k ∈ c.2.targets, k ∈ ids)
    (hcovered : Along (fun u c => c.2.Covered c.1 u) (fundingStep tok) s calls) :
    pendingFunding ids (runAll (fundingStep tok) s calls) ≤
        base + held (runAll (fundingStep tok) s calls).log tok ∧
      slack tok ids payers s ≤ slack tok ids payers (runAll (fundingStep tok) s calls) := by
  have hrun : Solvent base tok ids payers (runAll (fundingStep tok) s calls) ∧
      slack tok ids payers s ≤ slack tok ids payers (runAll (fundingStep tok) s calls) := by
    refine runAll_induction (I := fun u => Solvent base tok ids payers u ∧
      slack tok ids payers s ≤ slack tok ids payers u) ?_ ⟨h, le_rfl⟩ (hcovered.and_mem htargets)
    rintro u c a t ⟨hsolvent, hslack⟩ ⟨htarget, hcall⟩ hstep
    have hbacks : Backs tok ids payers 0 u t := FundingCall.backs htarget hsolvent hcall hstep
    exact ⟨hsolvent.backs hbacks, by linarith [hbacks.slack]⟩
  exact ⟨hrun.1.funded, hrun.2⟩

/-- A fresh invoice of 100 in token 9. -/
theorem sample_solvent : Solvent 0 9 {1} ∅ (sampleStore sampleInvoice []) := by
  refine ⟨fun k hk inv hload => ?_, fun k hk p _ => ?_, by decide +kernel⟩
  · obtain rfl := Finset.mem_singleton.1 hk
    cases hload
    rfl
  · obtain rfl := Finset.mem_singleton.1 hk
    rfl

/-- Payer 20 pays the 100 and the invoice is released. -/
theorem filled_invoice_is_backed :
    ((runAll (fundingStep 9) (sampleStore sampleInvoice [])
        [(sampleEnv 10 0, .pay 20 1 100 0 false)]).entries 1).invoice.map Invoice.status = some .released ∧
      pendingFunding {1} (runAll (fundingStep 9) (sampleStore sampleInvoice [])
        [(sampleEnv 10 0, .pay 20 1 100 0 false)]) ≤
      0 + held (runAll (fundingStep 9) (sampleStore sampleInvoice [])
        [(sampleEnv 10 0, .pay 20 1 100 0 false)]).log 9 := by
  have hcovered : Along (fun u c => c.2.Covered c.1 u) (fundingStep 9) (sampleStore sampleInvoice [])
      [(sampleEnv 10 0, .pay 20 1 100 0 false)] := by
    refine ⟨fun _ inv hload => .inr ?_, trivial⟩
    cases hload
    intro target credited premium credit htarget hcredited hpremium hcredit
    obtain rfl := Except.ok.inj htarget
    obtain rfl := Except.ok.inj hcredited
    obtain rfl := Except.ok.inj hpremium
    obtain rfl := Except.ok.inj hcredit
    refine ⟨fun hsome => absurd rfl hsome, fun _ _ => ⟨fun _ _ => rfl, rfl, ?_, .inr rfl⟩⟩
    decide +kernel
  refine ⟨by decide +kernel, (funding_is_backed sample_solvent (fun c hc k hk => ?_) hcovered).1⟩
  obtain rfl := List.mem_singleton.1 hc
  obtain rfl := List.mem_singleton.1 hk
  exact Finset.mem_singleton_self 1

/-- Payer 20 contributes 10 to it: the funding is 10 and the contract holds nothing. -/
theorem contribution_is_not_backed :
    Solvent 0 9 {1} ∅ (sampleStore sampleInvoice []) ∧
      pendingFunding {1} (runAll (fundingStep 9) (sampleStore sampleInvoice [])
        [(sampleEnv 10 0, .contribute 1 20 10)]) = 10 ∧
      held (runAll (fundingStep 9) (sampleStore sampleInvoice [])
        [(sampleEnv 10 0, .contribute 1 20 10)]).log 9 = 0 ∧
      ¬pendingFunding {1} (runAll (fundingStep 9) (sampleStore sampleInvoice [])
        [(sampleEnv 10 0, .contribute 1 20 10)]) ≤
      0 + held (runAll (fundingStep 9) (sampleStore sampleInvoice [])
        [(sampleEnv 10 0, .contribute 1 20 10)]).log 9 :=
  ⟨sample_solvent, by decide +kernel, by decide +kernel, by decide +kernel⟩

end StellarSplit.Split
