import Mathlib.Algebra.BigOperators.Group.Finset.Basic
import StellarSplit.Split.Payout

/-!
# The volume of a creator

A payment adds its credited amount to the creator's volume, truncated to a
word, and a full release adds the funded amount once more. The volume is the sum
of the credited payments as long as no payment is truncated and no full release
of a funded invoice returns.
-/

namespace StellarSplit.Split

open Exec Function Machine

variable {env : Env} {s t u : Store} {v : Unit} {id : ℕ} {inv : Invoice}

/-! ## Passes that leave the volume and the payments alone -/

/-- The entries without their notes and their record. -/
def Entry.rest (e : Entry) : Entry := { e.core with invoice := none }

/-- The volumes are the same, and so is what the entries hold beside notes and records. -/
structure VolumeKept (s t : Store) : Prop where
  volume : t.stats.statsVolume = s.stats.statsVolume
  rest : ∀ k, (t.entries k).rest = (s.entries k).rest

instance volumeKept_refl : Std.Refl VolumeKept := ⟨fun _ => ⟨rfl, fun _ => rfl⟩⟩

instance volumeKept_trans : IsTrans Store VolumeKept :=
  ⟨fun _ _ _ h₁ h₂ => ⟨h₂.volume.trans h₁.volume, fun k => (h₂.rest k).trans (h₁.rest k)⟩⟩

theorem VolumeKept.setEntry {e : Entry} (h : e.rest = (s.entries id).rest) :
    VolumeKept s (s.setEntry id e) := by
  refine ⟨rfl, fun k => ?_⟩
  by_cases hk : k = id
  · subst hk
    rw [Store.setEntry_self]
    exact h
  · rw [Store.setEntry_ne s hk]

instance moves_volumeKept {memo : Memo} : Moves VolumeKept memo :=
  ⟨fun _ _ _ => ⟨rfl, fun _ => rfl⟩⟩

instance counts_volumeKept : Counts VolumeKept := ⟨fun _ _ h => ⟨h, fun _ => rfl⟩⟩

instance notes_volumeKept : Notes VolumeKept id := by
  refine ⟨fun s e hcore => .setEntry ?_⟩
  unfold Entry.rest
  rw [hcore]

instance saves_volumeKept : Saves VolumeKept id inv := ⟨fun _ _ _ => .setEntry rfl⟩

theorem VolumeKept.payments (h : VolumeKept s t) (k : ℕ) :
    (t.entries k).payments = (s.entries k).payments := by
  have hrest := congrArg Entry.payments (h.rest k)
  exact hrest

/-! ## The recorded payments -/

/-- The recorded payments of an invoice added up. -/
def paymentsTotal (s : Store) (id : ℕ) : ℤ := ((s.entries id).payments.map Payment.amount).sum

theorem paymentsTotal_eq (s : Store) (id : ℕ) :
    paymentsTotal s id =
      ∑ i ∈ Finset.range shardCount, (((s.entries id).shards i).map Payment.amount).sum := by
  unfold paymentsTotal Entry.payments
  rw [List.map_flatMap, List.flatMap_def, List.sum_flatten, List.map_map]
  rfl

theorem computeShardId_lt (payer : Address) : computeShardId payer < shardCount :=
  Nat.mod_lt _ (by decide)

theorem paymentsTotal_push {p : Payment} (hrun : pushPayment id p s = .ok (v, t)) :
    paymentsTotal t id = paymentsTotal s id + p.amount := by
  obtain rfl := modifyEntry_ok.1 hrun
  have hmem : computeShardId p.payer ∈ Finset.range shardCount :=
    Finset.mem_range.2 (computeShardId_lt p.payer)
  rw [paymentsTotal_eq, paymentsTotal_eq, Store.setEntry_self]
  rw [← Finset.add_sum_erase _ _ hmem, ← Finset.add_sum_erase _ _ hmem]
  have hothers : ∑ i ∈ (Finset.range shardCount).erase (computeShardId p.payer),
        ((update (s.entries id).shards (computeShardId p.payer)
          ((s.entries id).shards (computeShardId p.payer) ++ [p]) i).map Payment.amount).sum =
      ∑ i ∈ (Finset.range shardCount).erase (computeShardId p.payer),
        (((s.entries id).shards i).map Payment.amount).sum := by
    refine Finset.sum_congr rfl fun i hi => ?_
    rw [update_of_ne (Finset.ne_of_mem_erase hi)]
  rw [hothers]
  simp only [update_self, List.map_append, List.sum_append, List.map_cons, List.map_nil,
    List.sum_cons, List.sum_nil]
  ring

def creatorOf (s : Store) (id : ℕ) : Option Address := (s.entries id).invoice.map Invoice.creator

/-- The volume of the invoice's creator grew by the payments the invoice was credited with. -/
def Counted (id : ℕ) (s t : Store) : Prop :=
  ∀ c, (t.stats.statsVolume c : ℤ) = s.stats.statsVolume c +
    if creatorOf s id = some c then paymentsTotal t id - paymentsTotal s id else 0

theorem VolumeKept.counted (h : VolumeKept s t) (id : ℕ) : Counted id s t := by
  intro c
  have hpayments : paymentsTotal t id = paymentsTotal s id := by
    unfold paymentsTotal
    rw [h.payments]
  rw [h.volume, hpayments]
  simp

/-- What the guards of a payment read of the entries. -/
def Entry.guards (e : Entry) : Option ℕ × Option (List Address) × Option ℕ :=
  (e.group, e.cosigners, e.releaseDelay)

theorem VolumeKept.guards (h : VolumeKept s t) (k : ℕ) :
    (t.entries k).guards = (s.entries k).guards := by
  have hrest := congrArg Entry.guards (h.rest k)
  exact hrest

theorem payGuarded_congr {e e' : Entry} (h : e'.guards = e.guards) (inv : Invoice) :
    payGuarded env e' inv = payGuarded env e inv := by
  obtain ⟨hgroup, hrest⟩ := Prod.mk.inj h
  obtain ⟨hcosigners, hdelay⟩ := Prod.mk.inj hrest
  unfold payGuarded isGuarded
  rw [hgroup, hcosigners, hdelay]

/-- An invoice with milestones is guarded. -/
theorem payGuarded_of_milestones (e : Entry) (h : inv.milestones ≠ []) :
    payGuarded env e (startHold env inv) = true := by
  have hkept : (startHold env inv).milestones = inv.milestones :=
    startHold_field Invoice.milestones (fun _ => rfl) env
  have hsome : (startHold env inv).milestones.isEmpty = false := by simpa [hkept] using h
  simp [payGuarded, hsome]

theorem maybeReleaseMilestones_ok {paid : Invoice}
    (hrun : maybeReleaseMilestones env id inv s = .ok (paid, t)) :
    paid.milestones = inv.milestones ∧ (inv.milestones = [] → paid = inv) := by
  refine ⟨maybeReleaseMilestones_field Invoice.milestones (fun _ => rfl) (fun _ => rfl) hrun, fun hnone => ?_⟩
  obtain ⟨-, hpaid, -⟩ | ⟨hsome, -⟩ := maybeReleaseMilestones_cases hrun
  · exact hpaid
  · exact absurd hnone hsome

/-! ## Releases that are not counted -/

/-- A release of the invoice adds nothing to the volume: it pays in tranches, or nothing is funded
and nothing can be forwarded to another invoice. -/
def Uncounted (inv : Invoice) : Prop :=
  inv.tranches ≠ [] ∨ inv.funded = 0 ∧ (inv.forwardTo ≠ none ∨ inv.forwardInvoiceId = none)

theorem framed_countRelease_zero {creator : Address} {fee : ℤ} :
    Framed VolumeKept (countRelease env creator 0 fee) := by
  refine .of fun s v t hrun => ?_
  simp only [countRelease, get_bind] at hrun
  obtain ⟨volume, -, hrun⟩ := orPanic_bind.1 hrun
  obtain ⟨released, -, hrun⟩ := orPanic_bind.1 hrun
  obtain ⟨statsVolume, hvolume, hrun⟩ := orPanic_bind.1 hrun
  obtain ⟨-, hrun⟩ := require_bind.1 hrun
  obtain ⟨_, u, hstats, hrebate⟩ := bind_ok.1 hrun
  have hsame : statsVolume = s.stats.statsVolume creator := checkedAddU64_eq hvolume
  have hkept : VolumeKept s u := by
    obtain rfl := modify_ok.1 hstats
    refine ⟨?_, fun _ => rfl⟩
    subst hsame
    exact update_eq_self creator s.stats.statsVolume
  have hrest : VolumeKept u t := framed_accrueCreatorRebate.respects u v t hrebate
  exact IsTrans.trans s u t hkept hrest

theorem framed_finishRelease_zero {failed : Bool} {fee : ℤ} (hfunded : inv.funded = 0) :
    Framed VolumeKept (finishRelease env id inv failed fee) := by
  have hcount : Framed VolumeKept (countRelease env inv.creator 0 fee) := framed_countRelease_zero
  unfold finishRelease
  rw [hfunded]
  infer_instance

theorem framed_forwardLeftover_outside {next : ℕ → Invoice → Address → SplitM Unit} {x : ℤ}
    (h : inv.forwardTo ≠ none ∨ inv.forwardInvoiceId = none) :
    Framed VolumeKept (forwardLeftover env next id inv x) := by
  unfold forwardLeftover
  split
  · split
    · infer_instance
    · rename_i hto
      rw [h.resolve_left (absurd hto)]
      infer_instance
  · infer_instance

theorem framed_releaseAs_uncounted {a : Address} (h : Uncounted inv) :
    Framed VolumeKept (releaseAs env id inv a) := by
  unfold releaseAs
  cases env.depth with
  | zero =>
      unfold releaseWithin
      infer_instance
  | succ depth =>
      rcases h with htranches | ⟨hfunded, hforward⟩
      · have hsome : inv.tranches.isEmpty = false := by simpa using htranches
        unfold releaseWithin
        rw [hsome]
        simp only [Bool.false_eq_true, ↓reduceIte]
        infer_instance
      · have hleft : ∀ x, Framed VolumeKept
            (forwardLeftover env (releaseWithin env depth) id inv x) :=
          fun _ => framed_forwardLeftover_outside hforward
        have hfinish : ∀ failed fee, Framed VolumeKept (finishRelease env id inv failed fee) :=
          fun _ _ => framed_finishRelease_zero hfunded
        unfold releaseWithin releaseFull
        infer_instance

/-! ## One payment -/

/-- The full amount may be reached: nothing is released, or the release is not counted. -/
def KeptBack (env : Env) (e : Entry) (inv : Invoice) : Prop :=
  payGuarded env e (startHold env inv) = true ∨ Uncounted inv

theorem uncounted_startHold : Uncounted (startHold env inv) ↔ Uncounted inv := by
  unfold startHold
  cases inv.escrowHoldPeriod <;> exact Iff.rfl

theorem settlePayment_kept {target : ℤ} {payer : Address}
    (hback : target ≤ inv.funded → KeptBack env (s.entries id) inv)
    (hrun : settlePayment env id inv target payer s = .ok (v, t)) : VolumeKept s t := by
  obtain ⟨hfilled, u, hrecord, hend⟩ | ⟨-, hrun⟩ := settlePayment_cases hrun
  · have hkept : VolumeKept s u := framed_recordFunded.respects s _ u hrecord
    rw [payGuarded_congr (hkept.guards id)] at hend
    have hend : VolumeKept u t := by
      rcases hend with ⟨-, hrun⟩ | ⟨hopen, hrun⟩
      · exact framed_saveInvoice.respects u v t hrun
      · have huncounted := (hback hfilled).resolve_left (Bool.not_eq_true _ ▸ hopen)
        have hframed : Framed VolumeKept (releaseAs env id (startHold env inv) payer) :=
          framed_releaseAs_uncounted (uncounted_startHold.2 huncounted)
        exact hframed.respects u v t hrun
    exact IsTrans.trans s u t hkept hend
  · exact framed_saveInvoice.respects s v t hrun

/-- The invoice without its freeze, its premiums and its fee credit. -/
def Invoice.gates (inv : Invoice) : Invoice :=
  { inv with frozen := false, autoResumeAt := none, insuranceFund := 0, earlyBirdFeeCredit := 0 }

theorem payGuarded_gates (e : Entry) (inv : Invoice) :
    payGuarded env e (startHold env inv.gates) = payGuarded env e (startHold env inv) := by
  have hhold : inv.gates.escrowHoldPeriod = inv.escrowHoldPeriod := rfl
  unfold startHold
  rw [hhold]
  cases inv.escrowHoldPeriod <;> rfl

theorem KeptBack.congr {e e' : Entry} {inv' : Invoice} (h : KeptBack env e inv)
    (hguards : e'.guards = e.guards) (hgates : inv'.gates = inv.gates) : KeptBack env e' inv' := by
  rcases h with hguarded | huncounted
  · left
    rw [payGuarded_congr hguards, ← payGuarded_gates, hgates, payGuarded_gates]
    exact hguarded
  · right
    change Uncounted inv'.gates
    rw [hgates]
    exact huncounted

/-- A payment that is a word, and that does not fill an invoice whose release is counted. -/
def PlainCredit (env : Env) (e : Entry) (inv : Invoice) (target credited : ℤ) : Prop :=
  0 ≤ credited ∧ credited ≤ u64Max ∧
    (target ≤ inv.funded + credited → KeptBack env e (inv.withFunded (inv.funded + credited)))

/-- What is asked of a payment: the amount it is credited with is plain. -/
def PlainPayment (env : Env) (s : Store) (id : ℕ) (amount : ℤ) : Prop :=
  ∀ inv target credited, (s.entries id).load = some inv → paymentTarget env inv = .ok target →
    creditedAmount inv amount (target - inv.funded) = .ok credited →
    PlainCredit env (s.entries id) inv target credited

theorem recordPayment_counted {payer : Address} {credited : ℤ} {donate : Bool}
    (hrun : recordPayment id payer credited donate s = .ok (v, t)) :
    t.stats.statsVolume = s.stats.statsVolume ∧ (t.entries id).guards = (s.entries id).guards ∧
      paymentsTotal t id = paymentsTotal s id + credited := by
  obtain ⟨_, u₁, hpush, hrun⟩ := bind_ok.1 hrun
  obtain ⟨_, u₂, hcumulative, hcontribution⟩ := bind_ok.1 hrun
  have htotal := paymentsTotal_push hpush
  obtain rfl := modifyEntry_ok.1 hpush
  obtain rfl := modifyEntry_ok.1 hcumulative
  obtain rfl := modifyEntry_ok.1 hcontribution
  refine ⟨rfl, ?_, ?_⟩
  · simp [Entry.guards]
  · rw [← htotal]
    simp [paymentsTotal, Entry.payments]

theorem countPayment_ok {creator : Address} {amount : ℤ}
    (hrun : countPayment creator amount s = .ok (v, t)) :
    t.stats.statsVolume = update s.stats.statsVolume creator
        (s.stats.statsVolume creator + asU64 amount) ∧ t.entries = s.entries := by
  simp only [countPayment, get_bind, require_bind] at hrun
  obtain ⟨-, hrun⟩ := hrun
  obtain rfl := modify_ok.1 hrun
  exact ⟨rfl, rfl⟩

theorem asU64_of_word {a : ℤ} (h₀ : 0 ≤ a) (h₁ : a ≤ u64Max) : (asU64 a : ℤ) = a := by
  have hmod : a % 2 ^ 64 = a := Int.emod_eq_of_lt h₀ (by simp [u64Max] at h₁; omega)
  unfold asU64
  rw [hmod, Int.toNat_of_nonneg h₀]

/-- A payment that does not release its invoice counts its credited amount once. -/
theorem creditPayment_counted {payer : Address} {amount target : ℤ} {donate : Bool}
    (hplain : ∀ credited, creditedAmount inv amount (target - inv.funded) = .ok credited →
      PlainCredit env (s.entries id) inv target credited)
    (hrun : creditPayment env payer id inv amount target donate s = .ok (v, t)) (c : Address) :
    (t.stats.statsVolume c : ℤ) = s.stats.statsVolume c +
      if inv.creator = c then paymentsTotal t id - paymentsTotal s id else 0 := by
  obtain ⟨credited, premium, credit, paid, u₃, u₄, u₅, u₆, u₇, u₈, hcredited, -, htake, -, hrecord, hcount,
    hnotify, hmilestones, hreceipt, hsettle⟩ := creditPayment_passes hrun
  obtain ⟨hnonneg, hword, hback⟩ := hplain credited hcredited
  have hbefore : VolumeKept s u₃ := framed_takePayment.respects s _ u₃ htake
  obtain ⟨hvolume₄, hguards₄, htotal₄⟩ := recordPayment_counted hrecord
  obtain ⟨hvolume₅, hentries₅⟩ := countPayment_ok hcount
  have hkept₆ : VolumeKept u₅ u₆ := framed_notifyInvoice.respects u₅ _ u₆ hnotify
  have hkept₇ : VolumeKept u₆ u₇ := framed_maybeReleaseMilestones.respects u₆ _ u₇ hmilestones
  have hkept₈ : VolumeKept u₇ u₈ := framed_invokeIfSet.respects u₇ _ u₈ hreceipt
  have hafter : VolumeKept u₅ u₈ := IsTrans.trans _ _ _ (IsTrans.trans _ _ _ hkept₆ hkept₇) hkept₈
  -- the guards are those of the state before the payment
  have hguards : (u₈.entries id).guards = (s.entries id).guards := by
    rw [hafter.guards, hentries₅, hguards₄, hbefore.guards]
  have hsettled : VolumeKept u₈ t := by
    refine settlePayment_kept (fun hfilled => ?_) hsettle
    obtain ⟨hsame, hpaid⟩ := maybeReleaseMilestones_ok hmilestones
    by_cases hms : inv.milestones = []
    · obtain rfl := hpaid hms
      exact (hback hfilled).congr hguards rfl
    · left
      apply payGuarded_of_milestones
      rw [hsame]
      exact hms
  have hend : VolumeKept u₅ t := IsTrans.trans _ _ _ hafter hsettled
  have htotal : paymentsTotal t id = paymentsTotal s id + credited := by
    unfold paymentsTotal at htotal₄ ⊢
    rw [hend.payments, hentries₅, htotal₄, hbefore.payments]
  rw [hend.volume, hvolume₅, hvolume₄, hbefore.volume, htotal]
  by_cases hc : inv.creator = c
  · subst hc
    rw [update_self, if_pos rfl]
    push_cast
    rw [asU64_of_word hnonneg hword]
    ring
  · rw [update_of_ne (Ne.symm hc), if_neg hc, add_zero]

theorem creatorOf_load (hload : (s.entries id).load = some inv) : creatorOf s id = some inv.creator := by
  obtain ⟨stored, hstored, rfl⟩ := Option.map_eq_some_iff.1 hload
  unfold creatorOf
  rw [hstored]
  rfl

theorem PlainCredit.congr {e e' : Entry} {inv' : Invoice} {target credited : ℤ}
    (h : PlainCredit env e inv target credited) (hguards : e'.guards = e.guards)
    (hgates : inv'.gates = inv.gates) : PlainCredit env e' inv' target credited := by
  have hfunded : inv'.gates.funded = inv.gates.funded := congrArg Invoice.funded hgates
  change inv'.funded = inv.funded at hfunded
  obtain ⟨hnonneg, hword, hback⟩ := h
  refine ⟨hnonneg, hword, fun hfilled => ?_⟩
  rw [hfunded] at hfilled ⊢
  apply (hback hfilled).congr hguards
  have hset := congrArg (Invoice.withFunded · (inv.funded + credited)) hgates
  exact hset

theorem pay_counted {payer : Address} {amount : ℤ} {nonce : ℕ} {donate : Bool}
    (hplain : PlainPayment env s id amount)
    (hrun : pay env payer id amount nonce donate s = .ok (v, t)) : Counted id s t := by
  obtain ⟨inv, target, credits, u₁, u₂, u₃, -, hcheck, htarget, hkyc, haccumulate, hcredits⟩ :=
    pay_passes hrun
  obtain ⟨stored, hload, -, hinv⟩ := checkPayment_ok hcheck
  have hkept₁ : VolumeKept s u₁ := framed_checkPayment.respects s _ u₁ hcheck
  have hkept₂ : VolumeKept u₁ u₂ := framed_checkKyc.respects u₁ _ u₂ hkyc
  have hkept₃ : VolumeKept u₂ u₃ := framed_accumulate.respects u₂ _ u₃ haccumulate
  have hbefore : VolumeKept s u₃ := IsTrans.trans _ _ _ (IsTrans.trans _ _ _ hkept₁ hkept₂) hkept₃
  rcases hcredits with ⟨-, u₄, hlimits, hcredit⟩ | ⟨-, rfl⟩
  · have hkept₄ : VolumeKept u₃ u₄ := framed_checkLimits.respects u₃ _ u₄ hlimits
    have hkept : VolumeKept s u₄ := IsTrans.trans _ _ _ hbefore hkept₄
    have hcredited : ∀ credited, creditedAmount inv amount (target - inv.funded) = .ok credited →
        PlainCredit env (u₄.entries id) inv target credited := by
      intro credited hcredited
      rcases hinv with ⟨rfl, -⟩ | ⟨rfl, -⟩
      · exact (hplain inv target credited hload htarget hcredited).congr (hkept.guards id) rfl
      · exact (hplain stored target credited hload htarget hcredited).congr (hkept.guards id) rfl
    have hcreator : creatorOf s id = some inv.creator := by
      rw [creatorOf_load hload]
      rcases hinv with ⟨rfl, -⟩ | ⟨rfl, -⟩ <;> rfl
    intro c
    have hsame : paymentsTotal u₄ id = paymentsTotal s id := by
      unfold paymentsTotal
      rw [hkept.payments]
    rw [creditPayment_counted hcredited hcredit c, hkept.volume, hsame, hcreator]
    simp
  · exact hbefore.counted id

/-! ## Runs -/

/-- The calls that take payments and release invoices. -/
inductive VolumeOp where
  | pay (payer : Address) (id : ℕ) (amount : ℤ) (nonce : ℕ) (donateOnFailure : Bool)
  | releaseInvoice (id : ℕ) (preimage : Option (List ℕ))
  | triggerScheduledRelease (id : ℕ)
deriving DecidableEq, Repr

def VolumeOp.invoice : VolumeOp → ℕ
  | .pay _ id _ _ _ => id
  | .releaseInvoice id _ => id
  | .triggerScheduledRelease id => id

def volumeStep (c : Env × VolumeOp) : SplitM Unit :=
  match c.2 with
  | .pay payer id amount nonce donate => pay c.1 payer id amount nonce donate
  | .releaseInvoice id preimage => releaseInvoice c.1 id preimage
  | .triggerScheduledRelease id => triggerScheduledRelease c.1 id

/-- What is asked of a call: plain payments, and releases that are not counted. -/
def PlainCall (s : Store) (c : Env × VolumeOp) : Prop :=
  match c.2 with
  | .pay _ id amount _ _ => PlainPayment c.1 s id amount
  | .releaseInvoice id _ => ∀ inv, (s.entries id).load = some inv → Uncounted inv
  | .triggerScheduledRelease id => ∀ inv, (s.entries id).load = some inv → Uncounted inv

/-- What the payments of a run credit to the invoices of a creator. -/
def creditedTo (c : Address) : Store → List (Env × VolumeOp) → ℤ
  | _, [] => 0
  | s, call :: calls =>
      (if creatorOf s call.2.invoice = some c then
        paymentsTotal (commit (volumeStep call) s) call.2.invoice - paymentsTotal s call.2.invoice
      else 0) + creditedTo c (commit (volumeStep call) s) calls

theorem releaseAs_kept {a : Address} (h : ∀ inv, (s.entries id).load = some inv → Uncounted inv)
    (hload : (s.entries id).load = some inv) (hrun : releaseAs env id inv a s = .ok (v, t)) :
    VolumeKept s t := by
  have hframed : Framed VolumeKept (releaseAs env id inv a) :=
    framed_releaseAs_uncounted (h inv hload)
  exact hframed.respects s v t hrun

theorem volumeStep_counted {c : Env × VolumeOp} (hplain : PlainCall s c)
    (hrun : volumeStep c s = .ok (v, t)) : Counted c.2.invoice s t := by
  obtain ⟨env, op⟩ := c
  cases op with
  | pay payer id amount nonce donate => exact pay_counted hplain hrun
  | releaseInvoice id preimage =>
      obtain ⟨_, u, hlock, hrun⟩ := bind_ok.1 hrun
      obtain ⟨-, rfl⟩ := acquireLock_ok.1 hlock
      obtain ⟨_, u, hinner, hunlock⟩ := bind_ok.1 hrun
      obtain rfl := modify_ok.1 hunlock
      obtain ⟨inv, hload, -, hrelease⟩ := releaseInvoiceInner_ok hinner
      have hkept : VolumeKept (s.withLock true) u :=
        releaseAs_kept (s := s.withLock true) hplain hload hrelease
      exact VolumeKept.counted ⟨hkept.volume, hkept.rest⟩ id
  | triggerScheduledRelease id =>
      obtain ⟨inv, hload, -, hrelease⟩ := triggerScheduledRelease_ok hrun
      exact (releaseAs_kept hplain hload hrelease).counted id

/-- In every run of payments and releases that are plain, the volume of a creator is what its
invoices were credited with. -/
theorem volume_counts_payments (c : Address) {calls : List (Env × VolumeOp)}
    (hcalls : Along PlainCall volumeStep s calls) :
    ((runAll volumeStep s calls).stats.statsVolume c : ℤ) =
      s.stats.statsVolume c + creditedTo c s calls := by
  induction calls generalizing s with
  | nil =>
      rw [runAll_nil]
      simp [creditedTo]
  | cons call calls ih =>
      obtain ⟨hplain, hrest⟩ := hcalls
      have hcall : Counted call.2.invoice s (commit (volumeStep call) s) := by
        rcases commit_cases (volumeStep call) s with ⟨v, hrun⟩ | ⟨-, hsame⟩
        · exact volumeStep_counted (hplain ⟨_, hrun⟩) hrun
        · rw [hsame]
          exact VolumeKept.counted (refl_of VolumeKept s) _
      rw [runAll_cons, ih hrest, hcall c, creditedTo]
      ring

/-- Two payments that leave the invoice open. -/
def twoPayments : List (Env × VolumeOp) :=
  [(sampleEnv 10 0, .pay 20 1 30 0 false), (sampleEnv 11 0, .pay 21 1 40 0 false)]

theorem two_payments_counted :
    ((runAll volumeStep (sampleStore sampleInvoice []) twoPayments).stats.statsVolume 2 : ℤ) =
        0 + creditedTo 2 (sampleStore sampleInvoice []) twoPayments ∧
      creditedTo 2 (sampleStore sampleInvoice []) twoPayments = 70 := by
  refine ⟨volume_counts_payments 2 ⟨fun _ => ?_, fun _ => ?_, trivial⟩, by decide +kernel⟩
  · intro inv target credited hload htarget hcredited
    cases hload
    cases htarget
    cases hcredited
    exact ⟨by decide, by decide, fun hfilled => absurd hfilled (by decide)⟩
  · intro inv target credited hload htarget hcredited
    cases hload
    cases htarget
    cases hcredited
    exact ⟨by decide, by decide, fun hfilled => absurd hfilled (by decide)⟩

/-- One payment that fills its invoice. -/
def fillingPayment : List (Env × VolumeOp) := [(sampleEnv 10 0, .pay 20 1 100 0 false)]

/-- An invoice of more than a word, and a payment of one more than a word. -/
def largeInvoice : Invoice := { sampleInvoice with amounts := [2 ^ 65, 50] }

def largePayment : List (Env × VolumeOp) := [(sampleEnv 10 0, .pay 20 1 (2 ^ 64) 0 false)]

/-- A payment of 100 that fills its invoice counts 200, and one of `2 ^ 64` counts nothing. -/
theorem filling_payment_counts_twice :
    (creditedTo 2 (sampleStore sampleInvoice []) fillingPayment = 100 ∧
      (runAll volumeStep (sampleStore sampleInvoice []) fillingPayment).stats.statsVolume 2 = 200) ∧
    creditedTo 2 (sampleStore largeInvoice []) largePayment = 2 ^ 64 ∧
      (runAll volumeStep (sampleStore largeInvoice []) largePayment).stats.statsVolume 2 = 0 := by
  refine ⟨⟨?_, ?_⟩, ?_, ?_⟩ <;> decide +kernel

end StellarSplit.Split
