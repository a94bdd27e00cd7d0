import StellarSplit.CharitySplit.Conservation

/-!
# Which invoices can be released

Creation bounds the sum of the amounts of an invoice, and the split multiplies each of
them by the basis points. The invoices whose products fit are the ones that release.
-/

namespace StellarSplit.CharitySplit

open Exec Function Machine

def previewSplit (invoiceId : ℕ) : CharityM DonationSplit := do
  let inv ← loadInvoice invoiceId
  ofResult (computeSplit inv)

variable {env : Ledger Memo} {s t : Store} {v : Unit} {c : Ledger Memo × CharityCall} {id bps : ℕ}
  {inv inv' : CharityInvoice} {amounts l : List ℤ} {amount : ℤ} {payer : Address}

/-! ## When the split returns -/

/-- The product of each amount with the basis points fits the word. -/
def ProductsFit (bps : ℕ) (amounts : List ℤ) : Prop := ∀ amount ∈ amounts, amount * bps ≤ i128Max

theorem splitOne_returns {p : List ℤ × ℤ} (hbps : bps ≤ maxDonationBps) (hpos : 0 < amount)
    (hstart : 0 ≤ p.2) (hroom : p.2 + amount ≤ i128Max) (hfits : amount * bps ≤ i128Max) :
    ∃ q, splitOne bps p amount = .ok q ∧ 0 ≤ q.2 ∧ q.2 ≤ p.2 + amount := by
  have hnonneg : 0 ≤ amount * bps := by positivity
  have hcut : (amount * bps).tdiv 10000 = amount * bps / 10000 := Int.tdiv_eq_ediv_of_nonneg hnonneg
  have hscaled : amount * bps ≤ amount * 5000 :=
    mul_le_mul_of_nonneg_left (by exact_mod_cast hbps) hpos.le
  have hmin : i128Min ≤ 0 := by decide
  have hnet : InI128 (p.2 + (amount - amount * bps / 10000)) := by
    unfold InI128
    omega
  have hmul : checkedMulI128 amount bps = some (amount * bps) := if_pos ⟨hmin.trans hnonneg, hfits⟩
  have hadd : checkedAddI128 p.2 (amount - amount * bps / 10000) =
      some (p.2 + (amount - amount * bps / 10000)) := if_pos hnet
  refine ⟨(p.1 ++ [amount - amount * bps / 10000], p.2 + (amount - amount * bps / 10000)), ?_, ?_, ?_⟩
  · unfold splitOne
    rw [hmul]
    dsimp only
    rw [hcut, hadd]
  · dsimp only
    omega
  · dsimp only
    omega

theorem splitOne_fits {p q : List ℤ × ℤ} (h : splitOne bps p amount = .ok q) : amount * bps ≤ i128Max := by
  unfold splitOne checkedMulI128 at h
  by_cases hin : InI128 (amount * bps)
  · exact hin.2
  · rw [if_neg hin] at h
    cases h

/-- The loop of the split returns exactly if every product fits. -/
theorem splitFold_returns_iff (hbps : bps ≤ maxDonationBps) (hl : ∀ amount ∈ l, 0 < amount)
    {p : List ℤ × ℤ} (hstart : 0 ≤ p.2) (hroom : p.2 + l.sum ≤ i128Max) :
    (∃ q, l.foldlM (splitOne bps) p = .ok q) ↔ ProductsFit bps l := by
  induction l generalizing p with
  | nil => exact iff_of_true ⟨p, rfl⟩ nofun
  | cons a l ih =>
      obtain ⟨ha, hrest⟩ := List.forall_mem_cons.1 hl
      have hsum : 0 ≤ l.sum := List.sum_nonneg fun x hx => (hrest x hx).le
      rw [List.sum_cons] at hroom
      unfold ProductsFit
      rw [List.forall_mem_cons, List.foldlM_cons]
      constructor
      · rintro ⟨q, hrun⟩
        obtain ⟨p', hfirst, hrun⟩ := except_bind_ok.1 hrun
        have hfits := splitOne_fits hfirst
        obtain ⟨p'', hfirst', hstart', hle⟩ := splitOne_returns hbps ha hstart (by omega) hfits
        obtain rfl := Except.ok.inj (hfirst.symm.trans hfirst')
        exact ⟨hfits, (ih hrest hstart' (by omega)).1 ⟨q, hrun⟩⟩
      · rintro ⟨hfits, htail⟩
        obtain ⟨p', hfirst, hstart', hle⟩ := splitOne_returns hbps ha hstart (by omega) hfits
        obtain ⟨q, hrun⟩ := (ih hrest hstart' (by omega)).2 htail
        exact ⟨q, except_bind_ok.2 ⟨p', hfirst, hrun⟩⟩

theorem computeSplit_returns_iff (hterms : inv.Terms) (hword : inv.total ≤ i128Max) :
    (∃ split, computeSplit inv = .ok split) ↔ ProductsFit inv.donationBps inv.amounts := by
  have hroom : 0 + inv.amounts.sum ≤ i128Max := by rwa [zero_add, hterms.total]
  rw [← splitFold_returns_iff (p := ([], 0)) hterms.donationBps hterms.positive le_rfl hroom]
  constructor
  · rintro ⟨split, hrun⟩
    obtain ⟨q, hfold, -⟩ := except_bind_ok.1 hrun
    exact ⟨q, hfold⟩
  · rintro ⟨q, hfold⟩
    exact ⟨_, except_bind_ok.2 ⟨q, hfold, rfl⟩⟩

/-! ## What a later call finds -/

/-- The records of an invoice differ in the funding, the donation and the status. -/
def CharityInvoice.SameTerms (inv inv' : CharityInvoice) : Prop :=
  inv' = { inv with funded := inv'.funded, donated := inv'.donated, status := inv'.status }

theorem CharityInvoice.SameTerms.of_field {α : Type} (h : inv.SameTerms inv') (f : CharityInvoice → α) :
    f inv' = f { inv with funded := inv'.funded, donated := inv'.donated, status := inv'.status } :=
  congrArg f h

theorem CharityInvoice.SameTerms.trans {inv'' : CharityInvoice} (h : inv.SameTerms inv')
    (h' : inv'.SameTerms inv'') : inv.SameTerms inv'' := by
  unfold CharityInvoice.SameTerms at h h' ⊢
  rw [h] at h'
  exact h'

theorem Books.Move.sameTerms {b b' : Books} {paid : Option (Address × ℕ × ℤ)} (hmove : Books.Move paid b b')
    (hb : b.Sound) (hinv : b.invoices id = some inv) :
    ∃ inv', b'.invoices id = some inv' ∧ inv.SameTerms inv' := by
  have hsaved : ∀ inv₁ inv₂ : CharityInvoice, b.invoices inv₁.id = some inv₁ → inv₁.SameTerms inv₂ →
      ∃ inv', (b.withInvoice inv₂).invoices id = some inv' ∧ inv.SameTerms inv' := by
    intro inv₁ inv₂ hinv₁ hterms
    have hid : inv₂.id = inv₁.id := hterms.of_field CharityInvoice.id
    by_cases hne : id = inv₂.id
    · subst hne
      rw [← hid] at hinv₁
      obtain rfl := Option.some.inj (hinv.symm.trans hinv₁)
      exact ⟨inv₂, update_self .., hterms⟩
    · exact ⟨inv, (update_of_ne hne _ _).trans hinv, rfl⟩
  cases hmove with
  | create inv₁ hid _ _ _ =>
      have hlt := hb.lt_count hinv
      exact ⟨inv, (update_of_ne (by omega) _ _).trans hinv, rfl⟩
  | fund inv₁ payer amount hinv₁ _ _ _ _ => exact hsaved inv₁ _ hinv₁ rfl
  | settle inv₁ payer amount hinv₁ _ _ _ _ => exact hsaved inv₁ _ hinv₁ rfl
  | donate inv₁ donor amount _ _ _ => exact ⟨inv, hinv, rfl⟩
  | cancel inv₁ hinv₁ _ => exact hsaved inv₁ _ hinv₁ rfl
  | giveBack inv₁ payer hinv₁ _ _ => exact hsaved inv₁ _ hinv₁ rfl

theorem charityStep_sameTerms (hs : s.Sound) (hrun : charityStep c s = .ok (v, t))
    (hinv : s.invoices id = some inv) : ∃ inv', t.invoices id = some inv' ∧ inv.SameTerms inv' := by
  obtain ⟨⟨-, hsame⟩ | hmove, -⟩ := charityStep_moves hs hrun
  · have hinvoices : t.invoices = s.invoices := congrArg Books.invoices hsame
    exact ⟨inv, by rw [hinvoices, hinv], rfl⟩
  · exact hmove.sameTerms hs.books hinv

/-- No charity is taken off the registry. -/
def Registers (s t : Store) : Prop := ∀ charity, (s.charities charity).isSome = true →
  (t.charities charity).isSome = true

instance registers_refl : Std.Refl Registers := ⟨fun _ _ h => h⟩

instance registers_trans : IsTrans Store Registers := ⟨fun _ _ _ h₁ h₂ charity h => h₂ charity (h₁ charity h)⟩

instance framed_saveCharity {charity : Address} {record : Charity} :
    Framed Registers (saveCharity charity record) := by
  refine .of (.modify fun s a ha => ?_)
  by_cases hne : a = charity
  · subst hne
    simp
  · simpa [update_of_ne hne] using ha

instance framed_orError {α : Type} {x : Option α} {e : Error} :
    Framed Registers (orError x e : CharityM α) := by
  unfold orError
  split <;> infer_instance

instance framed_requireAuth {a : Address} : Framed Registers (requireAuth env a : CharityM Unit) := by
  unfold requireAuth
  infer_instance

instance framed_saveInvoice : Framed Registers (saveInvoice inv) := .of (.modify fun _ _ h => h)

instance framed_transfer {m : Transfer Memo} : Framed Registers (transfer env m) := by
  refine .of fun s v t hrun => ?_
  obtain ⟨-, rfl⟩ := transfer_ok.1 hrun
  exact fun _ h => h

theorem framed_addToTotal {read : Store → ℤ} {write : ℤ → Store → Store}
    (hwrite : ∀ n s, (write n s).charities = s.charities) : Framed Registers (addToTotal read write amount) := by
  refine .of fun s v t hrun charity h => ?_
  obtain ⟨-, rfl⟩ := addToTotal_ok.1 hrun
  rwa [hwrite]

instance framed_loadCharity {charity : Address} : Framed Registers (loadCharity charity) := by
  unfold loadCharity
  infer_instance

instance framed_loadInvoice : Framed Registers (loadInvoice id) := by
  unfold loadInvoice
  infer_instance

instance framed_requireAdmin {admin : Address} : Framed Registers (requireAdmin env admin) := by
  unfold requireAdmin
  infer_instance

instance framed_release : Framed Registers (release env inv) := by
  have htotal : ∀ x, Framed Registers (addToTotal (·.getCharityTotal inv.charity inv.token)
      (Store.setCharityTotal inv.charity inv.token) x) := fun _ => framed_addToTotal fun _ _ => rfl
  unfold release
  infer_instance

theorem charityStep_registers (c : Ledger Memo × CharityCall) : Framed Registers (charityStep c) := by
  have hset : ∀ f : Store → Store, (∀ s, (f s).charities = s.charities) → ∀ s v t,
      (set (f s) : CharityM PUnit) s = .ok (v, t) → Registers s t := by
    intro f hf s v t h charity hcharity
    rwa [← set_ok.1 h, hf]
  obtain ⟨env, call⟩ := c
  cases call with
  | setUp admin =>
      refine .of fun s v t hrun => ?_
      have h : initializeContract admin s = .ok (v, t) := hrun
      rw [initializeContract, get_bind, require_bind] at h
      exact hset (fun s => { s with admin := some admin, counter := some 0 }) (fun _ => rfl) s v t h.2
  | register admin charity name =>
      change Framed Registers (registerCharity env admin charity name)
      unfold registerCharity
      infer_instance
  | setActive admin charity active =>
      change Framed Registers (setCharityActive env admin charity active)
      unfold setCharityActive
      infer_instance
  | create creator token recipients amounts charity bps =>
      refine .of fun s v t hrun => ?_
      obtain ⟨id, h⟩ := ignore_ok.1 hrun
      obtain ⟨-, inv, -, -, -, -, rfl⟩ := createInvoice_ok h
      exact fun _ h => h
  | pay payer id amount =>
      have htotal : ∀ x, Framed Registers (addToTotal (·.getContribution id payer)
          (Store.setContribution id payer) x) := fun _ => framed_addToTotal fun _ _ => rfl
      change Framed Registers (ignore (pay env payer id amount))
      unfold pay
      infer_instance
  | donate donor id amount =>
      refine .of fun s v t hrun => ?_
      obtain ⟨-, -, inv, -, donorTotals, rfl⟩ := donateExtra_ok hrun
      exact fun _ h => h
  | cancel creator id =>
      change Framed Registers (cancelInvoice env creator id)
      unfold cancelInvoice
      infer_instance
  | refund payer id =>
      refine .of fun s v t hrun => ?_
      obtain ⟨n, h⟩ := ignore_ok.1 hrun
      obtain ⟨-, inv, -, -, -, -, -, rfl⟩ := claimRefund_ok.1 h
      exact fun _ h => h

/-! ## The payment that completes the funding -/

section Completing

variable (haccepts : ∀ log m, env.accepts log m = true)
include haccepts

theorem payEach_returns (s : Store) (inv : CharityInvoice) (l : List (Address × ℤ)) : ∃ t, (forM l fun (recipient, payout) =>
    onlyIf (0 < payout) (transfer env (payoutTo inv recipient payout)) : CharityM PUnit) s = .ok ((), t) := by
  induction l generalizing s with
  | nil => exact ⟨s, rfl⟩
  | cons p l ih =>
      rw [List.forM_cons]
      by_cases hpos : 0 < p.2
      · obtain ⟨t, hrest⟩ := ih (s := { s with log := payoutTo inv p.1 p.2 :: s.log })
        have hfirst := transfer_ok (v := ()).2 ⟨haccepts s.log (payoutTo inv p.1 p.2), rfl⟩
        exact ⟨t, bind_ok.2 ⟨(), _, onlyIf_ok.2 (.inl ⟨hpos, hfirst⟩), hrest⟩⟩
      · obtain ⟨t, hrest⟩ := ih (s := s)
        exact ⟨t, bind_ok.2 ⟨(), s, onlyIf_ok.2 (.inr ⟨hpos, rfl⟩), hrest⟩⟩

theorem release_returns (hterms : inv.Terms) {split : DonationSplit} (hsplit : computeSplit inv = .ok split)
    (hroom : InI128 (s.getCharityTotal inv.charity inv.token + inv.share))
    (hcharity : (s.charities inv.charity).isSome = true) : ∃ r, release env inv s = .ok r := by
  have hnets : ∀ p ∈ inv.recipients.zip inv.netAmounts, 0 < p.2 := by
    rintro ⟨recipient, net⟩ hp
    obtain ⟨amount, hamount, rfl⟩ := List.mem_map.1 (List.of_mem_zip hp).2
    have := (hterms.cut_bounds (hterms.positive amount hamount)).2
    dsimp only
    omega
  obtain ⟨record, hrecord⟩ := Option.isSome_iff_exists.1 hcharity
  obtain rfl := computeSplit_ok hterms hsplit
  obtain ⟨t, hpay⟩ := payEach_returns haccepts s inv (inv.recipients.zip inv.netAmounts)
  have ht := payEach_ok hnets hpay
  have hdonate : ∀ w : Store, w.charities = s.charities → w.charityTotals = s.charityTotals →
      ∃ u : Store, u.charities = s.charities ∧ (onlyIf (0 < inv.share) do
        transfer env (donationOf inv inv.share)
        addToTotal (·.getCharityTotal inv.charity inv.token) (Store.setCharityTotal inv.charity inv.token)
          inv.share : CharityM Unit) w = .ok ((), u) := by
    intro w hw htotals
    by_cases hpos : 0 < inv.share
    · let w' : Store := { w with log := donationOf inv inv.share :: w.log }
      have hroom' : InI128 (w'.getCharityTotal inv.charity inv.token + inv.share) := by
        unfold Store.getCharityTotal at hroom ⊢
        rwa [htotals]
      refine ⟨Store.setCharityTotal inv.charity inv.token
        (w'.getCharityTotal inv.charity inv.token + inv.share) w', hw, onlyIf_ok.2 (.inl ⟨hpos, ?_⟩)⟩
      exact bind_ok.2 ⟨(), w', transfer_ok.2 ⟨haccepts _ _, rfl⟩, addToTotal_ok.2 ⟨hroom', rfl⟩⟩
    · exact ⟨w, hw, onlyIf_ok.2 (.inr ⟨hpos, rfl⟩)⟩
  obtain ⟨u, hu, hdonate⟩ := hdonate t (by rw [ht]) (by rw [ht])
  refine ⟨({ inv with donated := inv.share, status := .released },
    { u with
      charities := update u.charities inv.charity
        (some { record with donationCount := satAddU32 record.donationCount 1 }) }), ?_⟩
  unfold release
  refine ofResult_bind.2 ⟨_, hsplit, bind_ok.2 ⟨(), _, hpay, bind_ok.2 ⟨(), u, hdonate, ?_⟩⟩⟩
  rw [loadCharity, bind_assoc, get_bind, orError_bind]
  exact ⟨record, by rw [hu, hrecord], bind_ok.2 ⟨(), _, modify_ok.2 rfl, rfl⟩⟩

/-- The rest of an open invoice can be paid. -/
theorem pay_returns (hs : s.Sound) (hinv : s.invoices id = some inv) (hopen : inv.status = .opened)
    (hword : inv.total ≤ i128Max) {split : DonationSplit} (hsplit : computeSplit inv = .ok split)
    (hroom : InI128 (s.getCharityTotal inv.charity inv.token + inv.share))
    (hcharity : (s.charities inv.charity).isSome = true) (hauth : env.auth payer = true)
    (hpayer : payer ≠ currentContract) :
    ∃ t, pay env payer id (inv.total - inv.funded) s = .ok (inv.total, t) := by
  have haccount := hs.books.account id
  obtain ⟨rfl, hterms⟩ := haccount.terms inv hinv
  have hless : inv.funded < inv.total := (haccount.whileOpen inv hinv hopen).1
  have hmin : i128Min ≤ 0 := by decide
  have hsum : inv.funded + (inv.total - inv.funded) = inv.total := by omega
  have hin : InI128 (inv.funded + (inv.total - inv.funded)) := by
    rw [hsum]
    exact ⟨hmin.trans hterms.nonempty.le, hword⟩
  have hpositive : ∀ p ∈ (s.contributions inv.id).entries, 0 ≤ p.2 := fun p hp => (haccount.positive p hp).le
  have hvalue := (s.contributions inv.id).value_nonneg hpositive payer
  have hle := (s.contributions inv.id).value_le_total hpositive payer
  have htotal : inv.funded = (s.contributions inv.id).total := haccount.funded inv hinv (by simp [hopen])
  have hcontribution : InI128 (s.getContribution inv.id payer + (inv.total - inv.funded)) := by
    unfold Store.getContribution InI128
    omega
  have hfunded : CharityInvoice.Terms { inv with funded := inv.funded + (inv.total - inv.funded) } :=
    ⟨hterms.length, hterms.positive, hterms.total, hterms.donationBps, hterms.nonempty⟩
  obtain ⟨⟨inv', u⟩, hrelease⟩ := release_returns (s := s.take inv payer inv.id (inv.total - inv.funded))
    haccepts hfunded hsplit hroom hcharity
  refine ⟨{ u with invoices := update u.invoices inv'.id (some inv') }, ?_⟩
  simp only [pay, requireAuth_bind, require_bind, loadInvoice_bind, orError_bind]
  refine ⟨⟨hauth, hpayer⟩, by omega, inv, hinv, hopen, _, if_pos hin, hsum.le, ?_⟩
  refine bind_ok.2 ⟨(), _, transfer_ok.2 ⟨haccepts _ _, rfl⟩, bind_ok.2 ⟨(), _,
    addToTotal_ok.2 ⟨hcontribution, rfl⟩, ?_⟩⟩
  rw [if_pos hsum]
  refine bind_ok.2 ⟨inv', u, hrelease, bind_ok.2 ⟨(), _, saveInvoice_ok.2 rfl, ?_⟩⟩
  rw [hsum]
  rfl

end Completing

/-! ## Created invoices -/

theorem sumAmounts_word {total : ℤ} (h : sumAmounts amounts = .ok total) : total ≤ i128Max := by
  refine except_foldlM_invariant (P := fun total => total ≤ i128Max) (fun total amount next _ hstep => ?_)
    (by decide : (0 : ℤ) ≤ i128Max) h
  split_ifs at hstep with hle
  split at hstep
  · cases hstep
  · rename_i next' hnext
    exact Except.ok.inj hstep ▸ checkedAddI128_le hnext

theorem createInvoice_record {creator token charity : Address} {recipients : List Address}
    (hrun : createInvoice env creator token recipients amounts charity bps s = .ok (id, t)) :
    ∃ inv, t.invoices id = some inv ∧ inv.amounts = amounts ∧ inv.donationBps = bps ∧
      inv.total ≤ i128Max ∧ (t.charities inv.charity).isSome = true := by
  simp only [createInvoice, requireAuth_bind, require_bind, loadCharity, bind_assoc, get_bind,
    orError_bind, ofResult_bind] at hrun
  obtain ⟨-, -, -, -, record, hrecord, -, total, htotal, id', -, next, -, hrun⟩ := hrun
  obtain ⟨_, _, hcount, hrun⟩ := bind_ok.1 hrun
  obtain rfl := set_ok.1 hcount
  obtain ⟨_, _, hsave, hrun⟩ := bind_ok.1 hrun
  obtain rfl := saveInvoice_ok.1 hsave
  obtain ⟨rfl, rfl⟩ := pure_ok.1 hrun
  exact ⟨_, update_self .., rfl, rfl, sumAmounts_word htotal, by simp [hrecord]⟩

/-- What the calls after its creation find of an invoice. -/
structure Follows (inv : CharityInvoice) (id : ℕ) (u : Store) : Prop where
  sound : u.Sound
  charity : (u.charities inv.charity).isSome = true
  record : ∃ inv', u.invoices id = some inv' ∧ inv.SameTerms inv'

theorem Follows.step (h : Follows inv id s) (hrun : charityStep c s = .ok (v, t)) : Follows inv id t := by
  obtain ⟨inv', hinv', hterms⟩ := h.record
  obtain ⟨inv'', hinv'', hterms'⟩ := charityStep_sameTerms h.sound hrun hinv'
  exact ⟨charityStep_sound h.sound hrun, (charityStep_registers c).respects s v t hrun _ h.charity,
    inv'', hinv'', hterms.trans hterms'⟩

theorem Follows.run (h : Follows inv id s) (calls : List (Ledger Memo × CharityCall)) :
    Follows inv id (runAll charityStep s calls) :=
  runAll_invariant (fun _ _ _ _ hs hrun => hs.step hrun) h calls

/-- The split of the invoice returns, the preview shows it, and whoever can pay the rest of an open
invoice releases it, as long as the total of the charity has room for the donation. -/
structure Releasable (u : Store) (id : ℕ) (inv : CharityInvoice) : Prop where
  split : ∃ split, computeSplit inv = .ok split
  preview : ∃ split, previewSplit id u = .ok (split, u)
  pays : ∀ env payer, (∀ log m, env.accepts log m = true) → env.auth payer = true → payer ≠ currentContract →
    inv.status = .opened → InI128 (u.getCharityTotal inv.charity inv.token + inv.share) →
      ∃ t, pay env payer id (inv.total - inv.funded) u = .ok (inv.total, t)

/-- An invoice stays releasable exactly if the products of its amounts with the basis points fit. -/
theorem created_releasable_iff {before after : List (Ledger Memo × CharityCall)} {creator token charity : Address}
    {recipients : List Address}
    (hcreate : createInvoice env creator token recipients amounts charity bps (runAll charityStep {} before) =
      .ok (id, t)) :
    ∃ inv, (runAll charityStep t after).invoices id = some inv ∧
      (Releasable (runAll charityStep t after) id inv ↔ ProductsFit bps amounts) := by
  obtain ⟨inv, hinv, rfl, rfl, hword, hcharity⟩ := createInvoice_record hcreate
  have hsound : t.Sound := charityStep_sound (v := ())
    (c := (env, .create creator token recipients inv.amounts charity inv.donationBps)) (run_sound before)
    (ignore_ok.2 ⟨id, hcreate⟩)
  obtain ⟨hsound, hcharity, inv', hinv', hterms⟩ :=
    Follows.run ⟨hsound, hcharity, inv, hinv, rfl⟩ after
  have hcharity' : inv'.charity = inv.charity := hterms.of_field CharityInvoice.charity
  have htotal : inv'.total = inv.total := hterms.of_field CharityInvoice.total
  have hreturns := computeSplit_returns_iff (((hsound.books.account id).terms inv' hinv').2)
    (htotal.trans_le hword)
  rw [hterms.of_field CharityInvoice.amounts, hterms.of_field CharityInvoice.donationBps] at hreturns
  refine ⟨inv', hinv', fun h => hreturns.1 h.split, fun hfits => ?_⟩
  obtain ⟨split, hsplit⟩ := hreturns.2 hfits
  refine ⟨⟨split, hsplit⟩, ⟨split, ?_⟩, fun env payer haccepts hauth hpayer hopen hroom => ?_⟩
  · rw [previewSplit, loadInvoice_bind]
    exact ⟨inv', hinv', ofResult_ok.2 ⟨hsplit, rfl⟩⟩
  · exact pay_returns haccepts hsound hinv' hopen (htotal.trans_le hword) hsplit hroom
      (by rwa [hcharity']) hauth hpayer

def openEnv : Ledger Memo := ⟨0, 0, fun _ => true, fun _ _ => true⟩

def vetted : List (Ledger Memo × CharityCall) :=
  [(openEnv, .setUp 1), (openEnv, .register 1 5 "charity")]

theorem created_releasable_sample :
    ∃ inv, (runAll charityStep (commit (createInvoice openEnv 2 3 [4] [1000] 5 250)
        (runAll charityStep {} vetted)) []).invoices 0 = some inv ∧
      (Releasable (runAll charityStep (commit (createInvoice openEnv 2 3 [4] [1000] 5 250)
        (runAll charityStep {} vetted)) []) 0 inv ↔ ProductsFit 250 [1000]) := by
  have hcreate := ok_commit (x := createInvoice openEnv 2 3 [4] [1000] 5 250)
    (s := runAll charityStep {} vetted) (a := 0) (by decide +kernel)
  exact created_releasable_iff hcreate

/-- The largest amount is accepted, and its split overflows. -/
theorem largest_amount_unreleasable :
    createInvoice openEnv 2 3 [4] [i128Max] 5 5000 (runAll charityStep {} vetted) =
        .ok (0, commit (createInvoice openEnv 2 3 [4] [i128Max] 5 5000) (runAll charityStep {} vetted)) ∧
      (previewSplit 0 (commit (createInvoice openEnv 2 3 [4] [i128Max] 5 5000)
        (runAll charityStep {} vetted))).map Prod.fst = .error (.error .overflow) := by
  refine ⟨ok_commit (by decide +kernel), by decide +kernel⟩

end StellarSplit.CharitySplit
