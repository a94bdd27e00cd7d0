import StellarSplit.Split.ReleaseGates

/-!
# What stays true of a stored invoice

A release goes on to the group of its invoice and to the invoice it forwards
to, so a call on one invoice may write others. A fact about a stored invoice
that survives a credit and the end of a release survives every payment and
release of other invoices.
-/

namespace StellarSplit.Split

open Exec Function Machine

variable {env : Env} {s t u : Store} {v : Unit} {id k : ℕ} {inv : Invoice} {actor : Address} {x : ℤ}
  {Q : Invoice → Prop}

/-- A fact about an invoice that a credit and a release of it keep. -/
structure Lasting (Q : Invoice → Prop) : Prop where
  withPayments : ∀ inv payments, Q inv → Q (inv.withPayments payments)
  withFunded : ∀ inv x, Q inv → Q (inv.withFunded x)
  left : ∀ inv stored, inv.Closes stored → inv.LeftIn stored → Q inv → Q stored

/-- The invoice is stored, and the fact holds of it. -/
def StoredAs (Q : Invoice → Prop) (k : ℕ) (s : Store) : Prop :=
  ∃ inv, (s.entries k).invoice = some inv ∧ Q inv

/-- The fact stays true of the stored invoice. -/
def Stays (Q : Invoice → Prop) (k : ℕ) (s t : Store) : Prop := StoredAs Q k s → StoredAs Q k t

instance stays_refl : Std.Refl (Stays Q k) := ⟨fun _ h => h⟩

instance stays_trans : IsTrans Store (Stays Q k) := ⟨fun _ _ _ h₁ h₂ h => h₂ (h₁ h)⟩

theorem storedAs_of_entry (h : t.entries k = s.entries k) (hs : StoredAs Q k s) : StoredAs Q k t := by
  unfold StoredAs
  rw [h]
  exact hs

theorem Outside.stays (h : Outside k s t) : Stays Q k s t := storedAs_of_entry h.entries

theorem StoredAs.load (hQ : Lasting Q) (h : StoredAs Q k s) (hload : (s.entries k).load = some inv) :
    Q inv := by
  obtain ⟨stored, hstored, hfact⟩ := h
  obtain rfl : stored.withPayments (s.entries k).payments = inv := by
    simpa [Entry.load, hstored] using hload
  exact hQ.withPayments stored _ hfact

theorem storedAs_of_save (hQ : Lasting Q) (hfact : Q inv)
    (hrun : saveInvoice env k inv s = .ok (v, t)) : StoredAs Q k t :=
  ⟨_, saveInvoice_stored hrun, hQ.withPayments inv [] hfact⟩

/-- A release of the invoice itself ends with storing it. -/
theorem releaseWithin_storedAs {depth : ℕ} (hQ : Lasting Q) (hfact : Q inv)
    (hrun : releaseWithin env depth k inv actor s = .ok (v, t)) : StoredAs Q k t := by
  obtain ⟨stored, hstored, hcloses, hleft⟩ := releaseWithin_stores hrun
  exact ⟨stored, hstored, hQ.left inv stored hcloses hleft hfact⟩

/-! ## The group -/

theorem releaseMember_stays (hQ : Lasting Q) : Respects (Stays Q k) (releaseMember env id) := by
  intro s v t hrun
  by_cases hk : k = id
  · subst hk
    intro hs
    rw [releaseMember, loadInvoice_bind] at hrun
    obtain ⟨member, hload, hrun⟩ := hrun
    rcases onlyIf_ok.1 hrun with ⟨-, hrun⟩ | ⟨-, rfl⟩
    · obtain ⟨token, -, hrun⟩ := orPanic_bind.1 hrun
      obtain ⟨sums, u₁, -, hrun⟩ := bind_ok.1 hrun
      obtain ⟨_, u₂, -, hrun⟩ := bind_ok.1 hrun
      obtain ⟨_, u₃, -, hsave⟩ := bind_ok.1 hrun
      refine ⟨_, saveInvoice_stored hsave, ?_⟩
      refine hQ.left member _ (((Invoice.Closes.refl member).completed _ _).withPayments []) (.inl rfl) ?_
      exact hs.load hQ hload
    · exact hs
  · exact (releaseMember_outside hk hrun).stays

theorem releaseGroup_stays (hQ : Lasting Q) : Respects (Stays Q k) (releaseGroup env id) := by
  intro s v t hrun
  have hall : Respects (Stays Q k) (forM ((groupMembers s id).filter (· ≠ id)) (releaseMember env)) :=
    .forM fun _ _ => releaseMember_stays hQ
  exact hall s v t (releaseGroup_ok hrun)

/-! ## Forwarding -/

/-- What a nested release does to the fact. -/
structure NextStays (Q : Invoice → Prop) (k : ℕ) (next : ℕ → Invoice → Address → SplitM Unit) : Prop where
  others : ∀ id inv actor, k ≠ id → Respects (Stays Q k) (next id inv actor)
  own : ∀ inv actor s v t, Q inv → next k inv actor s = .ok (v, t) → StoredAs Q k t

section Forwarding

variable {next : ℕ → Invoice → Address → SplitM Unit}

theorem forwardToInvoice_stays (hQ : Lasting Q) (hnext : NextStays Q k next) :
    Respects (Stays Q k) (forwardToInvoice env next id x) := by
  intro s v t hrun
  obtain ⟨target, u₁, u₂, hload, hpush, hcumulative, hrun⟩ := forwardToInvoice_ok hrun
  by_cases hk : k = id
  · subst hk
    intro hs
    have hfact : Q (target.withFunded (target.funded + x)) := hQ.withFunded target _ (hs.load hQ hload)
    rcases hrun with ⟨-, -, hrun⟩ | ⟨-, hrun⟩
    · exact hnext.own _ _ u₂ v t hfact hrun
    · exact storedAs_of_save hQ hfact hrun
  · have hne : Fact (k ≠ id) := ⟨hk⟩
    have h₁ : Outside k s u₁ := framed_pushPayment.respects s _ u₁ hpush
    have h₂ : Outside k u₁ u₂ := framed_addCumulative.respects u₁ _ u₂ hcumulative
    have hbefore : Stays Q k s u₂ := (trans_of (Outside k) h₁ h₂).stays
    rcases hrun with ⟨-, -, hrun⟩ | ⟨-, hrun⟩
    · exact trans_of (Stays Q k) hbefore (hnext.others id _ _ hk u₂ v t hrun)
    · have hsave : Outside k u₂ t := framed_saveInvoice.respects u₂ _ t hrun
      exact trans_of (Stays Q k) hbefore hsave.stays

theorem forwardLeftover_stays (hQ : Lasting Q) (hnext : NextStays Q k next) (hk : k ≠ id) :
    Respects (Stays Q k) (forwardLeftover env next id inv x) := by
  intro s v t hrun
  have hne : Fact (k ≠ id) := ⟨hk⟩
  rcases forwardLeftover_cases hrun with rfl | ⟨addr, -, htransfer⟩ | ⟨-, -, targetId, -, hforward⟩
  · exact refl_of (Stays Q k) s
  · have hout : Outside k s t := framed_transfer.respects s _ t htransfer
    exact hout.stays
  · exact forwardToInvoice_stays hQ hnext s v t hforward

/-! ## Releases -/

theorem releaseFull_stays (hQ : Lasting Q) (hnext : NextStays Q k next) (hk : k ≠ id) :
    Respects (Stays Q k) (releaseFull env next id inv actor) := by
  intro s v t hrun
  have hne : Fact (k ≠ id) := ⟨hk⟩
  obtain ⟨platformFee, plan, failed, u₁, u₂, u₃, u₄, -, -, hpaid, hgroup, hinsurance, hforward, hfinish⟩ :=
    releaseFull_passes hrun
  have h₁ : Outside k s u₁ := framed_payPasses.respects s _ u₁ hpaid
  have h₃ : Outside k u₂ u₃ := framed_returnInsurance.respects u₂ _ u₃ hinsurance
  have h₅ : Outside k u₄ t := framed_finishRelease.respects u₄ _ t hfinish
  intro hs
  have h₂ : StoredAs Q k u₂ := releaseGroup_stays hQ u₁ _ u₂ hgroup (h₁.stays hs)
  exact h₅.stays (forwardLeftover_stays hQ hnext hk u₃ _ u₄ hforward (h₃.stays h₂))

end Forwarding

theorem nextStays_releaseWithin (hQ : Lasting Q) (depth : ℕ) : NextStays Q k (releaseWithin env depth) := by
  induction depth with
  | zero =>
      refine ⟨fun id inv actor _ s v t hrun => ?_, fun inv actor s v t _ hrun => ?_⟩
      · exact (throw_ok.1 hrun).elim
      · exact (throw_ok.1 hrun).elim
  | succ depth ih =>
      refine ⟨fun id inv actor hk s v t hrun => ?_, fun inv actor s v t hfact hrun => ?_⟩
      · obtain ⟨-, -, ⟨-, hrun⟩ | ⟨-, hrun⟩⟩ := releaseWithin_succ_ok.1 hrun
        · exact releaseFull_stays hQ ih hk s v t hrun
        · have hne : Fact (k ≠ id) := ⟨hk⟩
          have hout : Outside k s t := framed_releaseTranches.respects s _ t hrun
          exact hout.stays
      · exact releaseWithin_storedAs hQ hfact hrun

/-- A release, on whatever invoice, keeps the fact; of the invoice itself it has to hold of what is
released. -/
theorem releaseAs_stays (hQ : Lasting Q) (hown : k = id → Q inv) :
    Respects (Stays Q k) (releaseAs env id inv actor) := by
  intro s v t hrun hs
  by_cases hk : k = id
  · subst hk
    exact releaseWithin_storedAs hQ (hown rfl) hrun
  · exact (nextStays_releaseWithin hQ env.depth).others id inv actor hk s v t hrun hs

/-! ## Calls -/

theorem releaseInvoice_stays {preimage : Option (List ℕ)} (hQ : Lasting Q) :
    Respects (Stays Q k) (releaseInvoice env id preimage) := by
  intro s v t hrun hs
  have hstep : (⟨env, .releaseInvoice preimage⟩ : ReleaseStep).run id s = .ok (v, t) := hrun
  obtain ⟨inv, b, b', t', hload, -, hrelease, rfl⟩ := ReleaseStep.inner hstep
  have hown : k = id → Q inv := by
    rintro rfl
    exact hs.load hQ hload
  exact releaseAs_stays hQ hown (s.withLock b) v t' hrelease hs

theorem pay_stays {payer : Address} {amount : ℤ} {nonce : ℕ} {donate : Bool} (hQ : Lasting Q)
    (hk : k ≠ id) : Respects (Stays Q k) (pay env payer id amount nonce donate) := by
  intro s v t hrun
  rcases pay_outside hk hrun with hout | ⟨u, paid, hout, -, hrelease⟩
  · exact hout.stays
  · have hlast : Stays Q k u t := releaseAs_stays hQ (fun h => absurd h hk) u v t hrelease
    exact trans_of (Stays Q k) hout.stays hlast

end StellarSplit.Split
