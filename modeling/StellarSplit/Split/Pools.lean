import StellarSplit.Split.ReleaseGates

/-!
# Pool payments

A pool payment checks its whole list against the invoices as they are and then
credits one payment after another, releasing what is filled up on the way and
forwarding what a release leaves. It keeps within the totals when a set of
invoices is closed under these releases: the amounts of the list, and what the
invoices of the set carry on, fill no invoice above its total.
-/

namespace StellarSplit.Split

open Exec Function Machine

variable {env : Env} {s t u s₀ : Store} {v : Unit} {id j k : ℕ} {inv : Invoice} {payer : Address}
  {payments : List InvoicePayment} {done done' opened R : Finset ℕ} {A A' : ℕ → ℤ} {x : ℤ}

/-! ## What flows into an invoice -/

/-- The amounts of a list for one invoice. -/
def poolSum (payments : List InvoicePayment) (k : ℕ) : ℤ :=
  (payments.map fun p => if p.invoiceId = k then p.amount else 0).sum

/-- What a release by this actor leaves of the funding. -/
def planLeft (env : Env) (e : Entry) (inv : Invoice) (actor : Address) : ℤ :=
  match totalPlatformFee env inv actor with
  | .ok fee =>
      match planPayouts env inv e.paidRecipients e.recipientLock fee with
      | .ok plan => planLeftover inv plan
      | .error _ => 0
  | .error _ => 0

/-- What an invoice carries on when it is released at its total. -/
def carriedOn (env : Env) (payer : Address) (s : Store) (k : ℕ) : ℤ :=
  match (s.entries k).invoice with
  | some inv => max 0 (max (planLeft env (s.entries k) (inv.withFunded inv.total) payer)
      (planLeft env (s.entries k) (inv.withFunded inv.total) currentContract))
  | none => 0

/-- The invoice that gets what a release leaves. -/
def Invoice.forwardTarget (inv : Invoice) : Option ℕ :=
  if inv.forwardTo.isSome then none else inv.forwardInvoiceId

def forwardTarget (s : Store) (k : ℕ) : Option ℕ := (s.entries k).invoice.bind Invoice.forwardTarget

/-- What the invoices of a set carry into one invoice. -/
def carriedInto (env : Env) (payer : Address) (s : Store) (R : Finset ℕ) (j : ℕ) : ℤ :=
  ∑ k ∈ R with forwardTarget s k = some j, carriedOn env payer s k

def inflow (env : Env) (payer : Address) (payments : List InvoicePayment) (s : Store) (R : Finset ℕ)
    (j : ℕ) : ℤ :=
  poolSum payments j + carriedInto env payer s R j

theorem carriedOn_nonneg : 0 ≤ carriedOn env payer s k := by
  unfold carriedOn
  cases (s.entries k).invoice with
  | none => exact le_rfl
  | some inv => exact le_max_left _ _

theorem carriedInto_nonneg : 0 ≤ carriedInto env payer s R j :=
  Finset.sum_nonneg fun _ _ => carriedOn_nonneg

theorem carriedInto_mono (h : done ⊆ R) : carriedInto env payer s done j ≤ carriedInto env payer s R j :=
  Finset.sum_le_sum_of_subset_of_nonneg (Finset.filter_subset_filter _ h) fun _ _ _ => carriedOn_nonneg

@[simp] theorem poolSum_nil : poolSum [] k = 0 := rfl

theorem poolSum_cons (p : InvoicePayment) :
    poolSum (p :: payments) k = (if p.invoiceId = k then p.amount else 0) + poolSum payments k := by
  simp [poolSum]

theorem poolSum_nonneg (h : ∀ p ∈ payments, 0 < p.amount) : 0 ≤ poolSum payments k := by
  apply List.sum_nonneg
  intro x hx
  obtain ⟨p, hp, rfl⟩ := List.mem_map.1 hx
  split_ifs
  · exact (h p hp).le
  · exact le_rfl

/-- A release pays its recipients within the funding. -/
structure PaysWithin (env : Env) (e : Entry) (inv : Invoice) : Prop where
  fees : FeesValid env
  terms : WellFormed e inv
  route : ∀ i, RouteSafe inv i
  within : plannedTotal e inv ≤ inv.funded

/-- The set holds every invoice that the list and the invoices of the set fill up without a guard;
together they take no invoice above its total. -/
structure PoolFits (env : Env) (payer : Address) (payments : List InvoicePayment) (s : Store)
    (R : Finset ℕ) : Prop where
  fits : ∀ j, ∀ inv ∈ (s.entries j).invoice, 0 < inflow env payer payments s R j →
    inv.funded + inflow env payer payments s R j ≤ inv.total
  closed : ∀ j, ∀ inv ∈ (s.entries j).invoice, isGuarded (s.entries j) inv = false →
    0 < inflow env payer payments s R j → inv.funded + inflow env payer payments s R j = inv.total →
    conditionPending (inv.withFunded inv.total) = false ∨ 0 < carriedInto env payer s R j → j ∈ R
  within : ∀ j ∈ R, ∀ inv ∈ (s.entries j).invoice, PaysWithin env (s.entries j) (inv.withFunded inv.total)

/-- Whatever part of the inflow has arrived, it fits. -/
theorem PoolFits.arrived (h : PoolFits env payer payments s₀ R)
    (hinv : (s₀.entries j).invoice = some inv) (hA : A j ≤ poolSum payments j) (hdone : done ⊆ R)
    (hpos : 0 < A j + carriedInto env payer s₀ done j) :
    inv.funded + A j + carriedInto env payer s₀ done j ≤ inv.total := by
  have hmono : carriedInto env payer s₀ done j ≤ carriedInto env payer s₀ R j := carriedInto_mono hdone
  have hfits := h.fits j inv hinv
  unfold inflow at hfits
  have := hfits (by linarith)
  linarith

/-! ## Passes that leave the records alone -/

/-- What a release reads of the entries and never writes. -/
def Entry.planned (e : Entry) : (Option ℕ × Option (List Address) × Option ℕ) × List Address ×
    (Address → Bool) :=
  (e.guards, e.paidRecipients, e.recipientLock)

instance untouched_planned : Untouched Entry.planned := ⟨fun _ => rfl, fun _ _ => rfl, fun _ _ => rfl⟩

/-- No record is written and only invoices of `K` pay out. -/
structure Spends (K : Set ℕ) (s t : Store) : Prop where
  invoices : ∀ k, (t.entries k).invoice = (s.entries k).invoice
  planned : Keeps Entry.planned s t
  payouts : Grows (fun memo => memo.purpose = .payout → memo.invoice ∈ K) s t

section Spends

variable {K : Set ℕ}

instance spends_refl : Std.Refl (Spends K) :=
  ⟨fun s => ⟨fun _ => rfl, refl_of (Keeps _) s, refl_of (Grows _) s⟩⟩

instance spends_trans : IsTrans Store (Spends K) :=
  ⟨fun _ _ _ h₁ h₂ => ⟨fun k => (h₂.invoices k).trans (h₁.invoices k),
    trans_of (Keeps _) h₁.planned h₂.planned, trans_of (Grows _) h₁.payouts h₂.payouts⟩⟩

theorem spends_setEntry {e : Entry} (hinvoice : e.invoice = (s.entries id).invoice)
    (hplanned : e.planned = (s.entries id).planned) : Spends K s (s.setEntry id e) := by
  refine ⟨fun k => ?_, keeps_setEntry hplanned, .of_log rfl⟩
  by_cases hk : k = id
  · subst hk
    rw [Store.setEntry_self, hinvoice]
  · rw [Store.setEntry_ne s hk]

instance notes_spends : Notes (Spends K) id := by
  refine ⟨fun s e hcore => spends_setEntry ?_ ?_⟩
  · have hinvoice : e.core.invoice = (s.entries id).core.invoice := by rw [hcore]
    exact hinvoice
  · have hplanned : e.core.planned = (s.entries id).core.planned := by rw [hcore]
    exact hplanned

instance credits_spends : Credits (Spends K) id := ⟨fun _ _ => spends_setEntry rfl rfl⟩

theorem Spends.paidOutAll (h : Spends K s t) (hj : j ∉ K) (tok : Address) :
    paidOutAll j tok t = paidOutAll j tok s := by
  refine h.payouts.tally fun m hm => ?_
  simp only [decide_eq_false_iff_not, not_and]
  intro hmemo
  rw [hmemo] at hm
  exact absurd (hm rfl) hj

end Spends

/-! ## The state of a pool payment -/

/-- How far a pool payment has come: `A` is credited from the list, the invoices of `done` have
carried on what their release left and those of `opened` are being released. -/
structure PoolState (env : Env) (payer : Address) (s₀ : Store) (R : Finset ℕ) (A : ℕ → ℤ)
    (done opened : Finset ℕ) (s : Store) : Prop where
  record : ∀ j inv, j ∉ done → j ∉ opened → (s₀.entries j).invoice = some inv →
    ∃ x ps, (s.entries j).invoice = some ((inv.withFunded x).withPayments ps) ∧ inv.funded ≤ x ∧
      x ≤ inv.funded + A j + carriedInto env payer s₀ done j
  finished : ∀ j inv, j ∈ done → j ∉ opened → (s₀.entries j).invoice = some inv →
    (s.entries j).invoice.map (fun i => (i.funded, i.total)) = some (inv.total, inv.total)
  missing : ∀ j, (s₀.entries j).invoice = none → (s.entries j).invoice = none
  planned : Keeps Entry.planned s₀ s
  full : ∀ j inv, j ∈ done ∨ j ∈ opened → (s₀.entries j).invoice = some inv →
    inv.funded < inv.total ∧ inv.total ≤ inv.funded + A j + carriedInto env payer s₀ done j
  begun : ∀ j, j ∈ done ∨ j ∈ opened → j ∈ R
  paid : ∀ j inv, (s₀.entries j).invoice = some inv →
    paidOutAll j (fundingTokenFor inv) s ≤ paidOutAll j (fundingTokenFor inv) s₀ +
      if j ∈ done ∨ j ∈ opened then inv.total else 0

theorem PoolState.start (hs : Spends ∅ s₀ s) : PoolState env payer s₀ R (fun _ => 0) ∅ ∅ s := by
  refine ⟨fun j inv _ _ hinv => ⟨inv.funded, inv.payments, ?_, le_rfl, ?_⟩, ?_, fun j hnone => ?_,
    hs.planned, ?_, ?_, fun j inv _ => ?_⟩
  · rw [hs.invoices, hinv]
    rfl
  · have hzero : 0 ≤ carriedInto env payer s₀ ∅ j := carriedInto_nonneg
    linarith
  · simp
  · rw [hs.invoices, hnone]
  · simp
  · simp
  · rw [hs.paidOutAll (by simp)]
    simp

/-- More may have arrived than the records show. -/
theorem PoolState.mono (h : PoolState env payer s₀ R A done opened s) (hA : ∀ j, A j ≤ A' j)
    (hdone : done ⊆ done') (hopened : ∀ j ∈ done', j ∈ done ∨ j ∈ opened) :
    PoolState env payer s₀ R A' done' opened s := by
  have hmono : ∀ j, carriedInto env payer s₀ done j ≤ carriedInto env payer s₀ done' j :=
    fun _ => carriedInto_mono hdone
  have hback : ∀ j, j ∈ done' ∨ j ∈ opened → j ∈ done ∨ j ∈ opened :=
    fun j hj => hj.elim (hopened j) .inr
  refine ⟨fun j inv hj hj' hinv => ?_, fun j inv hj hj' hinv => ?_, h.missing, h.planned,
    fun j inv hj hinv => ?_, fun j hj => h.begun j (hback j hj), fun j inv hinv => ?_⟩
  · obtain ⟨x, ps, hrecord, hlow, hup⟩ := h.record j inv (fun hin => hj (hdone hin)) hj' hinv
    exact ⟨x, ps, hrecord, hlow, by linarith [hA j, hmono j]⟩
  · exact h.finished j inv ((hopened j hj).resolve_right hj') hj' hinv
  · obtain ⟨hlt, hle⟩ := h.full j inv (hback j hj) hinv
    exact ⟨hlt, by linarith [hA j, hmono j]⟩
  · have hsame : j ∈ done' ∨ j ∈ opened ↔ j ∈ done ∨ j ∈ opened :=
      ⟨hback j, fun hj => hj.imp_left fun hin => hdone hin⟩
    simp only [hsame]
    exact h.paid j inv hinv

theorem PoolState.spends (h : PoolState env payer s₀ R A done opened s) (hs : Spends ∅ s t) :
    PoolState env payer s₀ R A done opened t := by
  refine ⟨fun j inv hj hj' hinv => ?_, fun j inv hj hj' hinv => ?_, fun j hnone => ?_,
    trans_of (Keeps _) h.planned hs.planned, h.full, h.begun, fun j inv hinv => ?_⟩
  · rw [hs.invoices]
    exact h.record j inv hj hj' hinv
  · rw [hs.invoices]
    exact h.finished j inv hj hj' hinv
  · rw [hs.invoices]
    exact h.missing j hnone
  · rw [hs.paidOutAll (by simp)]
    exact h.paid j inv hinv

theorem PoolState.pays (h : PoolState env payer s₀ R A done opened s) (hs : Spends {j} s t)
    (hdone : j ∉ done) (hopened : j ∉ opened) (hR : j ∈ R) (hinv : (s₀.entries j).invoice = some inv)
    (hfull : inv.funded < inv.total ∧ inv.total ≤ inv.funded + A j + carriedInto env payer s₀ done j)
    (hpaid : paidOutAll j (fundingTokenFor inv) t ≤ paidOutAll j (fundingTokenFor inv) s + inv.total) :
    PoolState env payer s₀ R A done (insert j opened) t := by
  have hother : ∀ k, k ∉ insert j opened → k ∉ opened := fun k hk hin => hk (Finset.mem_insert_of_mem hin)
  refine ⟨fun k kinv hk hk' hkinv => ?_, fun k kinv hk hk' hkinv => ?_, fun k hnone => ?_,
    trans_of (Keeps _) h.planned hs.planned, fun k kinv hk hkinv => ?_, fun k hk => ?_,
    fun k kinv hkinv => ?_⟩
  · rw [hs.invoices]
    exact h.record k kinv hk (hother k hk') hkinv
  · rw [hs.invoices]
    exact h.finished k kinv hk (hother k hk') hkinv
  · rw [hs.invoices]
    exact h.missing k hnone
  · by_cases hkj : k = j
    · subst hkj
      rw [hinv] at hkinv
      cases hkinv
      exact hfull
    · exact h.full k kinv (hk.imp_right fun hin => Finset.mem_of_mem_insert_of_ne hin hkj) hkinv
  · by_cases hkj : k = j
    · rwa [hkj]
    · exact h.begun k (hk.imp_right fun hin => Finset.mem_of_mem_insert_of_ne hin hkj)
  · have hbefore := h.paid k kinv hkinv
    by_cases hkj : k = j
    · subst hkj
      rw [hinv] at hkinv
      cases hkinv
      rw [if_neg (by simp [hdone, hopened])] at hbefore
      rw [if_pos (by simp)]
      linarith
    · rw [hs.paidOutAll (by simpa using hkj)]
      simpa [hkj] using hbefore

/-- An invoice that has just reached its total and may be released. -/
structure Filled (env : Env) (payer : Address) (s₀ : Store) (R : Finset ℕ) (A : ℕ → ℤ)
    (done opened : Finset ℕ) (j : ℕ) (inv : Invoice) : Prop where
  stored : (s₀.entries j).invoice = some inv
  member : j ∈ R
  notDone : j ∉ done
  notOpened : j ∉ opened
  unguarded : isGuarded (s₀.entries j) inv = false
  raised : inv.funded < inv.total
  full : inv.total ≤ inv.funded + A j + carriedInto env payer s₀ done j

section Filling

variable {m : ℕ} {minv : Invoice} {gain : ℤ}

/-- An invoice that reaches its total reaches it exactly and is in the set. -/
theorem PoolFits.filled (hfits : PoolFits env payer payments s₀ R) (hA : ∀ j, A j ≤ poolSum payments j)
    (hR : done ⊆ R) (hminv : (s₀.entries m).invoice = some minv) (hdone : m ∉ done)
    (hopened : m ∉ opened) (hlow : minv.funded ≤ x) (hgain : 0 < gain)
    (hup : x + gain ≤ minv.funded + A m + carriedInto env payer s₀ done m)
    (hfull : minv.total ≤ x + gain) (hunguarded : isGuarded (s₀.entries m) minv = false)
    (hcond : conditionPending (minv.withFunded minv.total) = false ∨
      0 < carriedInto env payer s₀ done m) :
    x + gain = minv.total ∧ Filled env payer s₀ R A done opened m minv := by
  have hpos : 0 < A m + carriedInto env payer s₀ done m := by linarith
  have harrived := hfits.arrived hminv (hA m) hR hpos
  have hmono : carriedInto env payer s₀ done m ≤ carriedInto env payer s₀ R m := carriedInto_mono hR
  have hinflow : A m + carriedInto env payer s₀ done m ≤ inflow env payer payments s₀ R m := by
    unfold inflow
    linarith [hA m]
  have htotal := hfits.fits m minv hminv (by linarith)
  have hmember : m ∈ R := by
    refine hfits.closed m minv hminv hunguarded (by linarith) (by linarith) ?_
    exact hcond.imp_right fun h => by linarith
  exact ⟨by linarith, hminv, hmember, hdone, hopened, hunguarded, by linarith, by linarith⟩

/-- An invoice that something still flows into has not been released. -/
theorem PoolState.open (h : PoolState env payer s₀ R A done opened s)
    (hminv : (s₀.entries m).invoice = some minv)
    (hroom : minv.funded + A m + carriedInto env payer s₀ done m < minv.total) :
    m ∉ done ∧ m ∉ opened := by
  constructor
  · intro hm
    linarith [(h.full m minv (.inl hm) hminv).2]
  · intro hm
    linarith [(h.full m minv (.inr hm) hminv).2]

theorem PoolState.load (h : PoolState env payer s₀ R A done opened s) {target : Invoice}
    (hload : (s.entries m).load = some target) :
    ∃ minv, (s₀.entries m).invoice = some minv ∧ (m ∉ done → m ∉ opened → ∃ x ps,
      target = (minv.withFunded x).withPayments ps ∧ minv.funded ≤ x ∧
        x ≤ minv.funded + A m + carriedInto env payer s₀ done m) := by
  obtain ⟨stored, hstored, rfl⟩ := Option.map_eq_some_iff.1 hload
  cases hminv : (s₀.entries m).invoice with
  | none =>
      rw [h.missing m hminv] at hstored
      cases hstored
  | some minv =>
      refine ⟨minv, rfl, fun hdone hopened => ?_⟩
      obtain ⟨x, ps, hrecord, hlow, hup⟩ := h.record m minv hdone hopened hminv
      rw [hrecord] at hstored
      cases hstored
      exact ⟨x, _, rfl, hlow, hup⟩

end Filling

theorem PaysWithin.withPayments {e : Entry} (h : PaysWithin env e inv) (ps : List Payment) :
    PaysWithin env e (inv.withPayments ps) :=
  ⟨h.fees, ⟨h.terms.amounts, h.terms.funded, h.terms.word, h.terms.total, h.terms.credit,
    h.terms.tranches, h.terms.shares⟩, h.route, h.within⟩

/-- The funding of an invoice grows by at least `x` and its total stays. -/
def Gains (j : ℕ) (x : ℤ) (s t : Store) : Prop :=
  ∀ inv ∈ (s.entries j).invoice, ∃ inv' ∈ (t.entries j).invoice,
    inv'.total = inv.total ∧ inv.funded + x ≤ inv'.funded

theorem Gains.trans {y : ℤ} (h₁ : Gains j x s u) (h₂ : Gains j y u t) : Gains j (x + y) s t := by
  intro inv hinv
  obtain ⟨inv₁, hinv₁, htotal₁, hle₁⟩ := h₁ inv hinv
  obtain ⟨inv₂, hinv₂, htotal₂, hle₂⟩ := h₂ inv₁ hinv₁
  exact ⟨inv₂, hinv₂, htotal₂.trans htotal₁, by linarith⟩

theorem Gains.of_invoice (h : (t.entries j).invoice = (s.entries j).invoice) : Gains j 0 s t := by
  intro inv hinv
  exact ⟨inv, h ▸ hinv, rfl, by simp⟩

theorem Outside.gains (h : Outside j s t) : Gains j 0 s t := .of_invoice (by rw [h.entries])

/-- What the contract has taken from a payer. -/
def takenFrom (payer : Address) (s : Store) : ℤ :=
  tally (fun m => m.src = payer ∧ m.dst = currentContract ∧ m.memo.purpose = .payment) s.log

theorem creditPoolPayment_taken {p : InvoicePayment}
    (hrun : creditPoolPayment env payer p s = .ok (v, t)) : takenFrom payer t = takenFrom payer s := by
  have hmoves : ∀ id, ReleaseMoves (Grows fun memo => memo.purpose.ofRelease = true) id :=
    fun _ => ⟨fun _ hp => moves_grows hp⟩
  have hframed : Framed (Grows fun memo => memo.purpose.ofRelease = true)
      (creditPoolPayment env payer p) := by
    unfold creditPoolPayment
    infer_instance
  refine (hframed.respects s v t hrun).tally fun m hm => ?_
  simp only [decide_eq_false_iff_not, not_and]
  intro _ _ hpayment
  rw [hpayment] at hm
  cases hm

theorem creditPoolPayment_recorded {p : InvoicePayment} (hpayer : payer ≠ currentContract)
    (hrun : creditPoolPayment env payer p s = .ok (v, t)) (k : ℕ) :
    paidBy (t.entries k).payments payer =
      paidBy (s.entries k).payments payer + if p.invoiceId = k then p.amount else 0 := by
  have hcontract : Fact (currentContract ≠ payer) := ⟨hpayer.symm⟩
  obtain ⟨loaded, u, w, -, hpush, hcumulative, hsettle⟩ := creditPoolPayment_passes hrun
  have hcounted : KeepsPaid payer u w := Framed.holds u _ w hcumulative
  have hsettled : KeepsPaid payer w t := by
    unfold settleCredit at hsettle
    exact Framed.holds w _ t hsettle
  have hkept : KeepsPaid payer u t := trans_of (KeepsPaid payer) hcounted hsettled
  rw [hkept k]
  by_cases hk : p.invoiceId = k
  · rw [if_pos hk, ← hk, pushPayment_paidBy hpush, if_pos rfl]
  · obtain rfl := modifyEntry_ok.1 hpush
    rw [if_neg hk, Store.setEntry_ne _ (Ne.symm hk), add_zero]

theorem creditPoolPayments_recorded
    (hrun : forM payments (creditPoolPayment env payer) s = .ok (v, t)) :
    takenFrom payer t = takenFrom payer s ∧ (payer ≠ currentContract → ∀ k,
      paidBy (t.entries k).payments payer = paidBy (s.entries k).payments payer + poolSum payments k) := by
  induction payments generalizing s with
  | nil =>
      obtain ⟨-, rfl⟩ := pure_ok.1 hrun
      exact ⟨rfl, fun _ _ => by simp⟩
  | cons p payments ih =>
      rw [List.forM_cons] at hrun
      obtain ⟨_, u, hfirst, hrest⟩ := bind_ok.1 hrun
      obtain ⟨htaken, hrecorded⟩ := ih hrest
      refine ⟨htaken.trans (creditPoolPayment_taken hfirst), fun hpayer k => ?_⟩
      rw [hrecorded hpayer k, creditPoolPayment_recorded hpayer hfirst k, poolSum_cons]
      ring

/-! ## Pool payments within the totals -/

theorem poolPayInner_parts (hrun : poolPayInner env payer payments s = .ok (v, t)) :
    (∀ p ∈ payments, 0 < p.amount ∧ ∃ inv, (s.entries p.invoiceId).load = some inv) ∧
      ∃ u, Spends ∅ s u ∧ (u.entries = s.entries) ∧
        takenFrom payer u = takenFrom payer s + (payments.map InvoicePayment.amount).sum ∧
        forM payments (creditPoolPayment env payer) u = .ok (v, t) := by
  obtain ⟨first, firstInv, u₁, u₂, hfirst, -, hcheck, hcollect, hcredit⟩ := poolPayInner_passes hrun
  obtain rfl := eq_of_framed hcheck
  refine ⟨fun p hp => ?_, u₂, ?_⟩
  · have hone := forM_each hcheck p hp
    simp only [checkPoolPayment, loadInvoice_bind, require_bind] at hone
    obtain ⟨inv, hload, -, -, -, hamount, -⟩ := hone
    exact ⟨hamount, inv, hload⟩
  · cases payments with
    | nil => cases hfirst
    | cons p payments =>
        obtain ⟨-, rfl⟩ := collect_ok.1 hcollect
        refine ⟨⟨fun _ => rfl, fun _ => rfl, [_], rfl, fun m hm hpayout => ?_⟩, rfl, ?_, hcredit⟩
        · obtain rfl := List.mem_singleton.1 hm
          cases hpayout
        · simp [takenFrom, add_comm]

end StellarSplit.Split
