import StellarSplit.Split.Shards
import StellarSplit.Split.Tranches

/-!
# The gates of a release

An invoice may ask for a preimage, an approval, a delay, a hold, a time, two
kinds of signatures, another invoice or an oracle before it is released. Each
call that releases invoices has its own list of what keeps it from doing so. A
call that releases an invoice, or pays its recipients, does so behind met gates
exactly when the gates it does not look at are met.
-/

namespace StellarSplit.Split

open Exec Function Machine

variable {env : Env} {s t u : Store} {v : Unit} {id j : ℕ} {inv : Invoice} {x : ℤ}

/-! ## Gates -/

inductive Gate where
  | conditionHash | approver | delay | hold | schedule | coSigners | cosigners | prerequisite | oracle
  deriving DecidableEq

/-- The gate is open for the stored invoice; the preimage is the one the caller shows. -/
def Gate.Met (env : Env) (s : Store) (j : ℕ) (preimage : Option (List ℕ)) (inv : Invoice) : Gate → Prop
  | .conditionHash => ∀ expected ∈ inv.releaseConditionHash, ∃ bytes ∈ preimage, env.sha256 bytes = expected
  | .approver => inv.approver.isNone = true ∨ inv.approved = true
  | .delay => ∀ delay ∈ (s.entries j).releaseDelay, ∃ fundedAt ∈ (s.entries j).fundedAtLedger,
      satAddU32 fundedAt delay ≤ env.sequence
  | .hold => ∀ heldUntil ∈ inv.heldUntil, heldUntil ≤ env.sequence
  | .schedule => ∀ scheduledAt ∈ inv.scheduledReleaseAt, scheduledAt ≤ env.now
  | .coSigners => inv.coSigners = [] ∨ inv.requiredSignatures ≤ inv.signatures.length
  | .cosigners => (s.entries j).cosigners.isSome = true → thresholdMet (s.entries j)
  | .prerequisite => ∀ prereqId ∈ inv.prerequisiteId,
      ∃ prereq ∈ (s.entries prereqId).invoice, prereq.status = .released
  | .oracle => inv.conditionOracle.isSome = true → inv.conditionMet = true

theorem Gate.met_congr {preimage : Option (List ℕ)} {gate : Gate} (h : t.entries = s.entries) :
    gate.Met env t j preimage inv ↔ gate.Met env s j preimage inv := by
  cases gate <;> simp only [Gate.Met, h]

/-- A gate that is part of what guards every automatic release. -/
theorem isGuarded_of_unmet {preimage : Option (List ℕ)} {gate : Gate}
    (hgate : gate = .coSigners ∨ gate = .cosigners ∨ gate = .prerequisite)
    (hunmet : ¬gate.Met env s j preimage inv) : isGuarded (s.entries j) inv = true := by
  rcases hgate with rfl | rfl | rfl
  · have hsome : inv.coSigners ≠ [] := fun h => hunmet (.inl h)
    simp [isGuarded, hsome]
  · have hsome : (s.entries j).cosigners.isSome = true := by
      by_contra hnone
      exact hunmet fun h => absurd h hnone
    simp [isGuarded, hsome]
  · have hsome : inv.prerequisiteId.isSome = true := by
      by_contra hnone
      rw [Option.not_isSome_iff_eq_none] at hnone
      refine hunmet fun p hp => ?_
      rw [hnone] at hp
      cases hp
    simp [isGuarded, hsome]

theorem oraclePending_of_unmet {preimage : Option (List ℕ)}
    (hunmet : ¬Gate.Met env s j preimage inv .oracle) : oraclePending inv = true := by
  have hboth : ¬(inv.conditionOracle.isSome = true → inv.conditionMet = true) := hunmet
  rw [Classical.not_imp] at hboth
  simp [oraclePending, hboth.1, hboth.2]

theorem conditionPending_of_oracle (h : oraclePending inv = true) : conditionPending inv = true := by
  unfold conditionPending
  rw [Bool.or_eq_true]
  exact .inl h

/-! ## Nothing is released -/

def Purpose.paysRecipient : Purpose → Bool
  | .payout | .stream => true
  | _ => false

/-- How far the release of an invoice has come. -/
def Invoice.stage (inv : Invoice) : InvoiceStatus × ℕ × ℕ :=
  (inv.status, inv.releasedBps, inv.milestonesReleased)

/-- No recipient of invoice `j` is paid. -/
def sparesRecipients (j : ℕ) (memo : Memo) : Prop :=
  ¬(memo.invoice = j ∧ memo.purpose.paysRecipient = true)

/-- The release of invoice `j` has come no further and none of its recipients was paid. -/
structure Unreleased (j : ℕ) (s t : Store) : Prop where
  stage : (t.entries j).invoice.map Invoice.stage = (s.entries j).invoice.map Invoice.stage
  tranches : (t.entries j).releasedTrancheIdx = (s.entries j).releasedTrancheIdx
  payouts : Grows (sparesRecipients j) s t

instance unreleased_refl : Std.Refl (Unreleased j) := ⟨fun s => ⟨rfl, rfl, refl_of (Grows _) s⟩⟩

instance unreleased_trans : IsTrans Store (Unreleased j) :=
  ⟨fun _ _ _ h₁ h₂ => ⟨h₂.stage.trans h₁.stage, h₂.tranches.trans h₁.tranches,
    trans_of (Grows _) h₁.payouts h₂.payouts⟩⟩

theorem Unreleased.congr (h : Unreleased j u t) (hentries : u.entries = s.entries)
    (hlog : u.log = s.log) : Unreleased j s t := by
  refine ⟨hentries ▸ h.stage, hentries ▸ h.tranches, ?_⟩
  obtain ⟨new, hnew, hspares⟩ := h.payouts
  exact ⟨new, hlog ▸ hnew, hspares⟩

/-- What a call does to its own invoice before it decides about a release. -/
structure Prepares (id : ℕ) (s t : Store) : Prop where
  others : ∀ k, k ≠ id → t.entries k = s.entries k
  stage : (t.entries id).invoice.map Invoice.stage = (s.entries id).invoice.map Invoice.stage
  guards : (t.entries id).guards = (s.entries id).guards
  tranches : (t.entries id).releasedTrancheIdx = (s.entries id).releasedTrancheIdx
  payouts : Grows (fun memo => memo.purpose.paysRecipient = false) s t

instance prepares_refl : Std.Refl (Prepares id) :=
  ⟨fun s => ⟨fun _ _ => rfl, rfl, rfl, rfl, refl_of (Grows _) s⟩⟩

instance prepares_trans : IsTrans Store (Prepares id) :=
  ⟨fun _ _ _ h₁ h₂ => ⟨fun k hk => (h₂.others k hk).trans (h₁.others k hk),
    h₂.stage.trans h₁.stage, h₂.guards.trans h₁.guards, h₂.tranches.trans h₁.tranches,
    trans_of (Grows _) h₁.payouts h₂.payouts⟩⟩

theorem Prepares.unreleased (h : Prepares id s t) : Unreleased id s t := by
  refine ⟨h.stage, h.tranches, ?_⟩
  obtain ⟨new, hlog, hnew⟩ := h.payouts
  refine ⟨new, hlog, fun m hm hpays => ?_⟩
  rw [hnew m hm] at hpays
  cases hpays.2

theorem moves_prepares {memo : Memo} (h : memo.purpose.paysRecipient = false) :
    Moves (Prepares id) memo :=
  ⟨fun s m hm => ⟨fun _ _ => rfl, rfl, rfl, rfl, (moves_grows h).move s m hm⟩⟩

instance moves_prepares_payment : Moves (Prepares id) ⟨id, .payment⟩ := moves_prepares rfl

instance moves_prepares_surplus : Moves (Prepares id) ⟨id, .surplus⟩ := moves_prepares rfl

instance moves_prepares_donation : Moves (Prepares id) ⟨id, .donation⟩ := moves_prepares rfl

instance moves_prepares_penalty : Moves (Prepares id) ⟨id, .penalty⟩ := moves_prepares rfl

instance countsVolume_prepares : CountsVolume (Prepares id) :=
  ⟨fun _ _ => ⟨fun _ _ => rfl, rfl, rfl, rfl, .of_log rfl⟩⟩

theorem prepares_setEntry {e : Entry}
    (hstage : e.invoice.map Invoice.stage = (s.entries id).invoice.map Invoice.stage)
    (hguards : e.guards = (s.entries id).guards)
    (htranches : e.releasedTrancheIdx = (s.entries id).releasedTrancheIdx) :
    Prepares id s (s.setEntry id e) := by
  refine ⟨fun k hk => Store.setEntry_ne s hk e, ?_, ?_, ?_, .of_log rfl⟩
  · rw [Store.setEntry_self, hstage]
  · rw [Store.setEntry_self, hguards]
  · rw [Store.setEntry_self, htranches]

instance notes_prepares : Notes (Prepares id) id := by
  refine ⟨fun s e hcore => prepares_setEntry ?_ ?_ ?_⟩
  · have hinvoice : e.core.invoice = (s.entries id).core.invoice := by rw [hcore]
    exact congrArg (Option.map Invoice.stage) hinvoice
  · have hguards : e.core.guards = (s.entries id).core.guards := by rw [hcore]
    exact hguards
  · have htranches : e.core.releasedTrancheIdx = (s.entries id).core.releasedTrancheIdx := by rw [hcore]
    exact htranches

instance credits_prepares : Credits (Prepares id) id := ⟨fun _ _ => prepares_setEntry rfl rfl rfl⟩

theorem prepares_save (hstage : (s.entries id).invoice.map Invoice.stage = some inv.stage)
    (hrun : saveInvoice env id inv s = .ok (v, t)) : Prepares id s t := by
  obtain ⟨-, rfl⟩ := saveInvoice_ok.1 hrun
  refine prepares_setEntry ?_ rfl rfl
  rw [hstage]
  rfl

theorem stage_load (hload : (s.entries id).load = some inv) :
    (s.entries id).invoice.map Invoice.stage = some inv.stage := by
  obtain ⟨stored, hstored, rfl⟩ := Option.map_eq_some_iff.1 hload
  rw [hstored]
  rfl

/-! ## Releases of other invoices -/

/-- Something holds invoice `j` back: its guards, or what `heldBack` looks at. -/
def Barred (heldBack : Invoice → Bool) (j : ℕ) (s : Store) : Prop :=
  ∀ inv ∈ (s.entries j).invoice, isGuarded (s.entries j) inv = true ∨ heldBack inv = true

/-- The terms of an invoice decide what holds it back. -/
def Steady (heldBack : Invoice → Bool) : Prop :=
  ∀ inv inv' : Invoice, inv'.terms = inv.terms → heldBack inv' = heldBack inv

theorem steady_false : Steady fun _ => false := fun _ _ _ => rfl

theorem steady_oraclePending : Steady oraclePending := by
  intro inv inv' hterms
  have hpending : oraclePending inv'.terms = oraclePending inv.terms := by rw [hterms]
  exact hpending

/-- An invoice that is held back stays so and is not released. -/
abbrev Spared (heldBack : Invoice → Bool) (j : ℕ) : Store → Store → Prop :=
  Under (Barred heldBack j) (Unreleased j)

/-- A call on another invoice. -/
structure Outside (j : ℕ) (s t : Store) : Prop where
  entries : t.entries j = s.entries j
  payouts : Grows (sparesRecipients j) s t

instance outside_refl : Std.Refl (Outside j) := ⟨fun s => ⟨rfl, refl_of (Grows _) s⟩⟩

instance outside_trans : IsTrans Store (Outside j) :=
  ⟨fun _ _ _ h₁ h₂ => ⟨h₂.entries.trans h₁.entries, trans_of (Grows _) h₁.payouts h₂.payouts⟩⟩

instance counts_outside : Counts (Outside j) := ⟨fun _ _ _ => ⟨rfl, .of_log rfl⟩⟩

instance countsVolume_outside : CountsVolume (Outside j) := ⟨fun _ _ => ⟨rfl, .of_log rfl⟩⟩

section Other

variable [hne : Fact (j ≠ id)]

instance moves_outside {purpose : Purpose} : Moves (Outside j) ⟨id, purpose⟩ := by
  refine ⟨fun s m hm => ⟨rfl, [m], rfl, fun m' hm' hpays => ?_⟩⟩
  obtain rfl := List.mem_singleton.1 hm'
  rw [hm] at hpays
  exact hne.out hpays.1.symm

instance notes_outside : Notes (Outside j) id :=
  ⟨fun s e _ => ⟨Store.setEntry_ne s hne.out e, .of_log rfl⟩⟩

instance credits_outside : Credits (Outside j) id :=
  ⟨fun s _ => ⟨Store.setEntry_ne s hne.out _, .of_log rfl⟩⟩

instance saves_outside : Saves (Outside j) id inv :=
  ⟨fun _ _ s => ⟨Store.setEntry_ne s hne.out _, .of_log rfl⟩⟩

end Other

theorem Outside.spared {heldBack : Invoice → Bool} (h : Outside j s t) : Spared heldBack j s t := by
  intro hbarred
  refine ⟨?_, ?_, ?_, h.payouts⟩
  · unfold Barred
    rw [h.entries]
    exact hbarred
  · rw [h.entries]
  · rw [h.entries]

theorem Prepares.outside (h : Prepares id s t) (hj : j ≠ id) : Outside j s t := by
  refine ⟨h.others j hj, ?_⟩
  obtain ⟨new, hlog, hnew⟩ := h.payouts
  refine ⟨new, hlog, fun m hm hpays => ?_⟩
  rw [hnew m hm] at hpays
  cases hpays.2

/-- What a nested release does to an invoice that its guards hold back. -/
def NextSpares (next : ℕ → Invoice → Address → SplitM Unit) : Prop :=
  ∀ {id inv actor s t} {v : Unit}, (s.entries id).group = none → next id inv actor s = .ok (v, t) →
    ∀ j, j ≠ id → Spared (fun _ => false) j s t

/-- What is saved of invoice `j` are its own terms at the stage they have reached. -/
theorem spared_save {heldBack : Invoice → Bool} (hprepares : Prepares j s u)
    (hload : (s.entries j).load = some inv) (hsteady : Steady heldBack)
    (hrun : saveInvoice env j (inv.withFunded x) u = .ok (v, t)) : Spared heldBack j s t := by
  intro hbarred
  have hstage : (u.entries j).invoice.map Invoice.stage = some (inv.withFunded x).stage := by
    rw [hprepares.stage, stage_load hload]
    rfl
  have hsaved := prepares_save hstage hrun
  have hboth : Prepares j s t := trans_of (Prepares j) hprepares hsaved
  refine ⟨?_, hboth.unreleased⟩
  intro stored hstored
  rw [saveInvoice_stored hrun] at hstored
  cases hstored
  obtain ⟨before, hbefore, rfl⟩ := Option.map_eq_some_iff.1 hload
  rcases hbarred before hbefore with hguarded | hback
  · left
    rw [← hguarded]
    exact isGuarded_congr hboth.guards before
  · right
    rw [← hback]
    exact hsteady before _ (by simp)

theorem forwardToInvoice_spares {next : ℕ → Invoice → Address → SplitM Unit} (hnext : NextSpares next)
    {leftover : ℤ} (hrun : forwardToInvoice env next id leftover s = .ok (v, t)) :
    Spared (fun _ => false) j s t := by
  obtain ⟨target, u₁, u₂, hload, hpush, hcumulative, hrun⟩ := forwardToInvoice_ok hrun
  have h₁ : Prepares id s u₁ := framed_pushPayment.respects s _ u₁ hpush
  have h₂ : Prepares id u₁ u₂ := framed_addCumulative.respects u₁ _ u₂ hcumulative
  have hprepares : Prepares id s u₂ := trans_of (Prepares id) h₁ h₂
  by_cases hj : j = id
  · subst hj
    intro hbarred
    obtain ⟨before, hbefore, rfl⟩ := Option.map_eq_some_iff.1 hload
    have hguarded : isGuarded (u₂.entries j) (before.withPayments (s.entries j).payments) = true := by
      rw [isGuarded_congr hprepares.guards]
      exact (hbarred before hbefore).resolve_right (by simp)
    obtain ⟨-, hunguarded, -⟩ | ⟨-, hrun⟩ := hrun
    · rw [hguarded] at hunguarded
      cases hunguarded
    · exact spared_save hprepares hload steady_false hrun hbarred
  · have hbefore : Spared (fun _ => false) j s u₂ := (hprepares.outside hj).spared
    rcases hrun with ⟨-, hunguarded, hrun⟩ | ⟨-, hrun⟩
    · exact trans_of (Spared _ j) hbefore (hnext (isGuarded_group hunguarded) hrun j hj)
    · have hne : Fact (j ≠ id) := ⟨hj⟩
      have hsave : Outside j u₂ t := framed_saveInvoice.respects u₂ _ t hrun
      exact trans_of (Spared _ j) hbefore hsave.spared

theorem forwardLeftover_spares {next : ℕ → Invoice → Address → SplitM Unit} (hnext : NextSpares next)
    {leftover : ℤ} (hj : j ≠ id) (hrun : forwardLeftover env next id inv leftover s = .ok (v, t)) :
    Spared (fun _ => false) j s t := by
  have hne : Fact (j ≠ id) := ⟨hj⟩
  rcases forwardLeftover_cases hrun with rfl | ⟨addr, -, htransfer⟩ | ⟨-, -, targetId, -, hforward⟩
  · exact refl_of (Spared _ j) s
  · have hout : Outside j s t := framed_transfer.respects s _ t htransfer
    exact hout.spared
  · exact forwardToInvoice_spares hnext hforward

theorem groupMembers_congr (h : Change Set.univ anyMemo s t) : groupMembers t id = groupMembers s id := by
  rw [groupMembers, groupMembers, h.group id, h.groups]

theorem releaseMember_outside (hj : j ≠ id) (hrun : releaseMember env id s = .ok (v, t)) :
    Outside j s t := by
  have hne : Fact (j ≠ id) := ⟨hj⟩
  have hframed : Framed (Outside j) (releaseMember env id) := by
    unfold releaseMember
    infer_instance
  exact hframed.respects s v t hrun

theorem releaseGroup_outside (hj : j ∉ groupMembers s id) (hrun : releaseGroup env id s = .ok (v, t)) :
    Outside j s t := by
  have hall : Respects (Outside j) (forM ((groupMembers s id).filter (· ≠ id)) (releaseMember env)) := by
    refine .forM fun k hk s v t hrun => releaseMember_outside ?_ hrun
    rintro rfl
    exact hj (List.mem_filter.1 hk).1
  exact hall s v t (releaseGroup_ok hrun)

/-- A full release leaves an invoice outside its group alone but for what it forwards. -/
theorem releaseFull_outside {next : ℕ → Invoice → Address → SplitM Unit} {actor : Address}
    (hgroup : j ∉ groupMembers s id) (hj : j ≠ id)
    (hrun : releaseFull env next id inv actor s = .ok (v, t)) :
    ∃ leftover u w failed fee, Outside j s u ∧ forwardLeftover env next id inv leftover u = .ok ((), w) ∧
      finishRelease env id inv failed fee w = .ok (v, t) ∧ Outside j w t := by
  have hne : Fact (j ≠ id) := ⟨hj⟩
  obtain ⟨platformFee, plan, failed, u₁, u₂, u₃, u₄, -, -, hpaid, hmembers, hinsurance, hforward,
    hfinish⟩ := releaseFull_passes hrun
  have h₁ : Outside j s u₁ := framed_payPasses.respects s _ u₁ hpaid
  have hchange : Change Set.univ anyMemo s u₁ := change_of_framed framed_payPasses hpaid
  have h₂ : Outside j u₁ u₂ := by
    apply releaseGroup_outside _ hmembers
    rw [groupMembers_congr hchange]
    exact hgroup
  have h₃ : Outside j u₂ u₃ := framed_returnInsurance.respects u₂ _ u₃ hinsurance
  have h₅ : Outside j u₄ t := framed_finishRelease.respects u₄ _ t hfinish
  have hbefore : Outside j s u₃ := trans_of (Outside j) h₁ (trans_of (Outside j) h₂ h₃)
  exact ⟨_, u₃, u₄, _, _, hbefore, hforward, hfinish, h₅⟩

theorem releaseFull_spares {next : ℕ → Invoice → Address → SplitM Unit} (hnext : NextSpares next)
    {actor : Address} (hgroup : j ∉ groupMembers s id) (hj : j ≠ id)
    (hrun : releaseFull env next id inv actor s = .ok (v, t)) : Spared (fun _ => false) j s t := by
  obtain ⟨leftover, u, w, failed, fee, hpaid, hforward, -, hfinish⟩ := releaseFull_outside hgroup hj hrun
  have hleft : Spared (fun _ => false) j u w := forwardLeftover_spares hnext hj hforward
  exact trans_of (Spared _ j) hpaid.spared (trans_of (Spared _ j) hleft hfinish.spared)

theorem nextSpares_releaseWithin (depth : ℕ) : NextSpares (releaseWithin env depth) := by
  induction depth with
  | zero =>
      intro id inv actor s t v _ hrun
      exact (throw_ok.1 hrun).elim
  | succ depth ih =>
      intro id inv actor s t v hgroup hrun j hj
      obtain ⟨-, -, ⟨-, hrun⟩ | ⟨-, hrun⟩⟩ := releaseWithin_succ_ok.1 hrun
      · have hnot : j ∉ groupMembers s id := by simp [groupMembers_none hgroup]
        exact releaseFull_spares ih hnot hj hrun
      · have hne : Fact (j ≠ id) := ⟨hj⟩
        have hout : Outside j s t := framed_releaseTranches.respects s _ t hrun
        exact hout.spared

theorem releaseAs_spares {actor : Address} (hgroup : j ∉ groupMembers s id) (hj : j ≠ id)
    (hrun : releaseAs env id inv actor s = .ok (v, t)) : Spared (fun _ => false) j s t := by
  rcases releaseAs_ok hrun with ⟨-, depth, hfull⟩ | ⟨-, htranches⟩
  · exact releaseFull_spares (nextSpares_releaseWithin depth) hgroup hj hfull
  · have hne : Fact (j ≠ id) := ⟨hj⟩
    have hout : Outside j s t := framed_releaseTranches.respects s _ t htranches
    exact hout.spared

theorem notMember_of_unguarded (h : isGuarded (s.entries id) inv = false) : j ∉ groupMembers s id := by
  simp [groupMembers_none (isGuarded_group h)]

/-! ## Calls on one invoice -/

/-- A call that prepares its invoice, credits it and settles the credit. -/
def SettledBy (env : Env) (heldBack : Invoice → Bool) (id : ℕ) (s t : Store) : Prop :=
  ∃ inv u x actor, (s.entries id).load = some inv ∧ Prepares id s u ∧
    settleCredit env id (inv.withFunded x) heldBack actor u = .ok ((), t)

theorem settleCredit_spares {heldBack : Invoice → Bool} {actor : Address} (hj : j ≠ id)
    (hrun : settleCredit env id inv heldBack actor s = .ok (v, t)) : Spared (fun _ => false) j s t := by
  obtain ⟨hfull, hrun⟩ | ⟨-, hrun⟩ := settleCredit_cases hrun
  · exact releaseAs_spares (notMember_of_unguarded hfull.2.1) hj hrun
  · have hne : Fact (j ≠ id) := ⟨hj⟩
    have hsave : Outside j s t := framed_saveInvoice.respects s _ t hrun
    exact hsave.spared

/-- What holds invoice `j` back in a call on invoice `id`. -/
def backFor (id j : ℕ) (back : Invoice → Bool) : Invoice → Bool := if j = id then back else fun _ => false

theorem SettledBy.unreleased {heldBack back : Invoice → Bool} (h : SettledBy env heldBack id s t)
    (hback : ∀ inv y, back inv = true → heldBack (inv.withFunded y) = true)
    (hsteady : Steady back) (hbarred : Barred (backFor id j back) j s) : Unreleased j s t := by
  obtain ⟨inv, u, x, actor, hload, hprepares, hrun⟩ := h
  by_cases hj : j = id
  · subst hj
    obtain ⟨before, hbefore, hinv⟩ := Option.map_eq_some_iff.1 hload
    have hheld : isGuarded (u.entries j) (inv.withFunded x) = true ∨ heldBack (inv.withFunded x) = true := by
      rcases hbarred before hbefore with hguarded | hheld
      · left
        rw [isGuarded_congr hprepares.guards, ← hguarded, ← hinv]
        rfl
      · right
        rw [backFor, if_pos rfl] at hheld
        apply hback
        rw [← hheld]
        apply hsteady
        rw [← hinv]
        rfl
    have hstage : (u.entries j).invoice.map Invoice.stage = some (inv.withFunded x).stage := by
      rw [hprepares.stage, stage_load hload]
      rfl
    obtain ⟨⟨-, hfree, hready⟩, -⟩ | ⟨-, hrun⟩ := settleCredit_cases hrun
    · simp [hfree, hready] at hheld
    · exact (trans_of (Prepares j) hprepares (prepares_save hstage hrun)).unreleased
  · rw [backFor, if_neg hj] at hbarred
    have hbefore : Spared (fun _ => false) j s u := (hprepares.outside hj).spared
    have hafter : Spared (fun _ => false) j u t := settleCredit_spares hj hrun
    exact (trans_of (Spared _ j) hbefore hafter hbarred).2

/-! ### Tokens and delegates -/

theorem creditConverted_settles {payer : Address} {heldBack : Invoice → Bool}
    (hload : (s.entries id).load = some inv) (hprepares : Prepares id s u)
    (hrun : creditConverted env id inv payer x heldBack u = .ok (v, t)) : SettledBy env heldBack id s t := by
  obtain ⟨-, u₁, u₂, hshard, hnotify, hsettle⟩ := creditConverted_passes hrun
  have h₁ : Prepares id u u₁ := framed_creditShard.respects u _ u₁ hshard
  have h₂ : Prepares id u₁ u₂ := framed_notifyInvoice.respects u₁ _ u₂ hnotify
  exact ⟨inv, u₂, _, payer, hload,
    trans_of (Prepares id) hprepares (trans_of (Prepares id) h₁ h₂), hsettle⟩

theorem swapIn_prepares {payer token invoiceToken : Address} {amount : ℤ}
    (hrun : swapIn env id payer token invoiceToken amount s = .ok (x, t)) : Prepares id s t := by
  have hswap : Framed (Prepares id) (swapIn env id payer token invoiceToken amount) := by
    unfold swapIn
    infer_instance
  exact hswap.respects s x t hrun

theorem payWithToken_settles {payer token : Address} {amount : ℤ} {nonce : ℕ}
    (hrun : payWithToken env payer id token amount nonce s = .ok (v, t)) :
    SettledBy env belowMinFunding id s t := by
  obtain ⟨inv, credited, u₁, u₂, hload, -, -, hnonce, htake, hcredit⟩ := payWithToken_passes hrun
  have h₁ : Prepares id s u₁ := framed_incrementNonce.respects s _ u₁ hnonce
  have h₂ : Prepares id u₁ u₂ := by
    unfold takeToken at htake
    split_ifs at htake with hsame
    · obtain ⟨_, w, hcollect, htake⟩ := bind_ok.1 htake
      obtain ⟨-, rfl⟩ := pure_ok.1 htake
      exact framed_collect.respects u₁ _ w hcollect
    · exact swapIn_prepares htake
  exact creditConverted_settles hload (trans_of (Prepares id) h₁ h₂) hcredit

theorem bridgePay_settles {payer token : Address} {amount : ℤ}
    (hrun : bridgePay env payer id token amount s = .ok (v, t)) :
    SettledBy env conditionPending id s t := by
  obtain ⟨inv, converted, u, hload, -, hswap, hcredit⟩ := bridgePay_passes hrun
  exact creditConverted_settles hload (swapIn_prepares hswap) hcredit

theorem creditDelegated_prepares {source payer : Address}
    (hrun : creditDelegated env id inv source payer x s = .ok (v, t)) : Prepares id s t := by
  have hframed : Framed (Prepares id) (creditDelegated env id inv source payer x) := by
    unfold creditDelegated
    infer_instance
  exact hframed.respects s v t hrun

theorem delegatePay_settles {delegate beneficiary : Address} {amount : ℤ}
    (hrun : delegatePay env delegate beneficiary id amount s = .ok (v, t)) :
    SettledBy env (fun _ => false) id s t := by
  obtain ⟨inv, u₁, u₂, hload, -, -, hcredit, hnotify, hsettle⟩ := delegatePay_passes hrun
  have h₂ : Prepares id u₁ u₂ := framed_notifyInvoice.respects u₁ _ u₂ hnotify
  exact ⟨inv, u₂, _, delegate, hload, trans_of (Prepares id) (creditDelegated_prepares hcredit) h₂,
    hsettle⟩

theorem payInvoiceDelegated_settles {executor onBehalfOf : Address} {amount : ℤ} {nonce : ℕ}
    (hrun : payInvoiceDelegated env executor id amount nonce onBehalfOf s = .ok (v, t)) :
    SettledBy env oraclePending id s t := by
  obtain ⟨inv, u₁, u₂, u₃, u₄, hload, -, -, -, -, hremove, hnonce, hcredit, hcount, hsettle⟩ :=
    payInvoiceDelegated_passes hrun
  have h₁ : Prepares id s u₁ := by
    obtain rfl := modifyEntry_ok.1 hremove
    exact prepares_setEntry rfl rfl rfl
  have h₂ : Prepares id u₁ u₂ := by
    simp only [consumeGlobalNonce, get_bind, require_bind, set_ok] at hnonce
    obtain ⟨-, rfl⟩ := hnonce
    exact ⟨fun _ _ => rfl, rfl, rfl, rfl, .of_log rfl⟩
  have h₄ : Prepares id u₃ u₄ := framed_countPayment.respects u₃ _ u₄ hcount
  exact ⟨inv, u₄, _, executor, hload, trans_of (Prepares id) h₁ (trans_of (Prepares id) h₂
    (trans_of (Prepares id) (creditDelegated_prepares hcredit) h₄)), hsettle⟩

theorem revealConfidentialPayment_settles {payer : Address} {value : ℤ} {blinding : Hash}
    (hrun : revealConfidentialPayment env id payer value blinding s = .ok (v, t)) :
    SettledBy env conditionPending id s t := by
  obtain ⟨inv, u₁, u₂, u₃, u₄, hload, -, -, hset, hcollect, hcumulative, hcontribution, hsettle⟩ :=
    revealConfidentialPayment_passes hrun
  have h₁ : Prepares id s u₁ := by
    obtain rfl := modifyEntry_ok.1 hset
    exact prepares_setEntry rfl rfl rfl
  have h₂ : Prepares id u₁ u₂ := framed_collect.respects u₁ _ u₂ hcollect
  have h₃ : Prepares id u₂ u₃ := framed_addCumulative.respects u₂ _ u₃ hcumulative
  have h₄ : Prepares id u₃ u₄ := framed_addContribution.respects u₃ _ u₄ hcontribution
  exact ⟨inv, u₄, _, payer, hload, trans_of (Prepares id) h₁ (trans_of (Prepares id) h₂
    (trans_of (Prepares id) h₃ h₄)), hsettle⟩

/-! ### Channels -/

theorem closeChannel_unreleased {payer : Address} (hbarred : Barred (backFor id j oraclePending) j s)
    (hrun : closeChannel env payer id s = .ok (v, t)) : Unreleased j s t := by
  obtain ⟨channel, inv, u, w, -, hload, -, -, hcredit, hreturn, hset⟩ := closeChannel_passes hrun
  have hcredited : Unreleased j s u := by
    rcases hcredit with ⟨-, hcredit⟩ | ⟨-, rfl⟩
    · obtain ⟨-, u₁, hshard, hsettle⟩ := creditChannel_passes hcredit
      have hprepares : Prepares id s u₁ := framed_creditShard.respects s _ u₁ hshard
      have hsettled : SettledBy env conditionPending id s u :=
        ⟨inv, u₁, _, payer, hload, hprepares, hsettle⟩
      exact hsettled.unreleased (fun _ _ h => conditionPending_of_oracle h) steady_oraclePending hbarred
    · exact refl_of (Unreleased j) s
  have hreturned : Prepares id u w := by
    rcases returnBalance_ok hreturn with ⟨-, rfl⟩ | ⟨-, token, -, rfl⟩
    · exact refl_of (Prepares id) u
    · exact (moves_prepares rfl).move u _ rfl
  have hclosed : Prepares id w t := by
    obtain rfl := modifyEntry_ok.1 hset
    exact prepares_setEntry rfl rfl rfl
  have htail : Prepares id u t := trans_of (Prepares id) hreturned hclosed
  have hrest : Unreleased j u t := by
    by_cases hj : j = id
    · subst hj
      exact htail.unreleased
    · have hout := htail.outside hj
      exact ⟨by rw [hout.entries], by rw [hout.entries], hout.payouts⟩
  exact trans_of (Unreleased j) hcredited hrest

/-! ### Pools -/

theorem creditPoolPayment_spares {payer : Address} {p : InvoicePayment} {back : Invoice → Bool}
    (hback : back = (fun _ => false) ∨ back = oraclePending ∧ p.invoiceId = j)
    (hrun : creditPoolPayment env payer p s = .ok (v, t)) : Spared back j s t := by
  obtain ⟨inv, u₁, u₂, hload, hpush, hcumulative, hsettle⟩ := creditPoolPayment_passes hrun
  have h₁ : Prepares p.invoiceId s u₁ := framed_pushPayment.respects s _ u₁ hpush
  have h₂ : Prepares p.invoiceId u₁ u₂ := framed_addCumulative.respects u₁ _ u₂ hcumulative
  have hprepares : Prepares p.invoiceId s u₂ := trans_of (Prepares p.invoiceId) h₁ h₂
  by_cases hj : j = p.invoiceId
  · subst hj
    have hsteady : Steady back := by
      rcases hback with rfl | ⟨rfl, -⟩
      · exact steady_false
      · exact steady_oraclePending
    intro hbarred
    obtain ⟨before, hbefore, rfl⟩ := Option.map_eq_some_iff.1 hload
    have hheld : isGuarded (u₂.entries p.invoiceId)
          (before.withPayments (s.entries p.invoiceId).payments) = true ∨
        conditionPending ((before.withPayments (s.entries p.invoiceId).payments).withFunded
          ((before.withPayments (s.entries p.invoiceId).payments).funded + p.amount)) = true := by
      rcases hbarred before hbefore with hguarded | hheld
      · left
        rw [isGuarded_congr hprepares.guards]
        exact hguarded
      · right
        rcases hback with rfl | ⟨rfl, -⟩
        · cases hheld
        · exact conditionPending_of_oracle hheld
    obtain ⟨⟨-, hfree, hready⟩, -⟩ | ⟨-, hsettle⟩ := settleCredit_cases hsettle
    · rcases hheld with hguarded | hpending
      · have hfree' : isGuarded (u₂.entries p.invoiceId)
            (before.withPayments (s.entries p.invoiceId).payments) = false := hfree
        exact absurd (hfree'.symm.trans hguarded) Bool.false_ne_true
      · exact absurd (hready.symm.trans hpending) Bool.false_ne_true
    · exact spared_save hprepares hload hsteady hsettle hbarred
  · rcases hback with rfl | ⟨-, hsame⟩
    · have hbefore : Spared (fun _ => false) j s u₂ := (hprepares.outside hj).spared
      exact trans_of (Spared _ j) hbefore (settleCredit_spares hj hsettle)
    · exact absurd hsame.symm hj

theorem poolPayInner_unreleased {payer : Address} {payments : List InvoicePayment}
    {back : Invoice → Bool}
    (hback : back = (fun _ => false) ∨ back = oraclePending ∧ ∀ p ∈ payments, p.invoiceId = j)
    (hbarred : Barred back j s) (hrun : poolPayInner env payer payments s = .ok (v, t)) :
    Unreleased j s t := by
  obtain ⟨first, firstInv, u₁, u₂, -, -, hcheck, hcollect, hcredit⟩ := poolPayInner_passes hrun
  obtain rfl := eq_of_framed hcheck
  have hcollected : Spared back j s u₂ := by
    have hout : Outside j s u₂ := by
      unfold collectPool at hcollect
      cases payments with
      | nil =>
          obtain ⟨-, rfl⟩ := pure_ok.1 hcollect
          exact refl_of (Outside j) s
      | cons p payments =>
          obtain ⟨-, rfl⟩ := collect_ok.1 hcollect
          refine ⟨rfl, [_], rfl, fun m hm hpays => ?_⟩
          obtain rfl := List.mem_singleton.1 hm
          cases hpays.2
    exact hout.spared
  have hall : Respects (Spared back j) (forM payments (creditPoolPayment env payer)) := by
    refine .forM fun p hp s v t hrun => creditPoolPayment_spares ?_ hrun
    exact hback.imp_right fun h => ⟨h.1, h.2 p hp⟩
  exact (trans_of (Spared back j) hcollected (hall u₂ v t hcredit) hbarred).2

/-! ### Direct payments -/

/-- What keeps a payment from releasing its invoice, whatever it pays. -/
def payHeld (env : Env) (e : Entry) (inv : Invoice) : Bool :=
  isGuarded e inv || oraclePending inv || e.releaseDelay.isSome || inv.heldUntil.isSome ||
    inv.scheduledReleaseAt.any (env.now < ·)

/-- Every gate but the preimage and the approval holds a payment back. -/
theorem payHeld_of_unmet {preimage : Option (List ℕ)} {gate : Gate}
    (hgate : gate ≠ .conditionHash ∧ gate ≠ .approver) (hunmet : ¬gate.Met env s j preimage inv) :
    payHeld env (s.entries j) inv = true := by
  have hcases : isGuarded (s.entries j) inv = true ∨ oraclePending inv = true ∨
      (s.entries j).releaseDelay.isSome = true ∨ inv.heldUntil.isSome = true ∨
      inv.scheduledReleaseAt.any (env.now < ·) = true := by
    cases gate with
    | conditionHash => exact absurd rfl hgate.1
    | approver => exact absurd rfl hgate.2
    | delay =>
        obtain ⟨delay, hdelay, -⟩ : ∃ delay ∈ (s.entries j).releaseDelay,
            ¬∃ fundedAt ∈ (s.entries j).fundedAtLedger, satAddU32 fundedAt delay ≤ env.sequence := by
          simpa only [Gate.Met, not_forall, exists_prop] using hunmet
        exact .inr (.inr (.inl (Option.isSome_iff_exists.2 ⟨delay, hdelay⟩)))
    | hold =>
        obtain ⟨heldUntil, hheld, -⟩ : ∃ heldUntil ∈ inv.heldUntil, ¬heldUntil ≤ env.sequence := by
          simpa only [Gate.Met, not_forall, exists_prop] using hunmet
        exact .inr (.inr (.inr (.inl (Option.isSome_iff_exists.2 ⟨heldUntil, hheld⟩))))
    | schedule =>
        obtain ⟨scheduledAt, hscheduled, hlate⟩ :
            ∃ scheduledAt ∈ inv.scheduledReleaseAt, ¬scheduledAt ≤ env.now := by
          simpa only [Gate.Met, not_forall, exists_prop] using hunmet
        refine .inr (.inr (.inr (.inr ?_)))
        rw [Option.mem_def.1 hscheduled]
        simpa using hlate
    | coSigners => exact .inl (isGuarded_of_unmet (.inl rfl) hunmet)
    | cosigners => exact .inl (isGuarded_of_unmet (.inr (.inl rfl)) hunmet)
    | prerequisite => exact .inl (isGuarded_of_unmet (.inr (.inr rfl)) hunmet)
    | oracle => exact .inr (.inl (oraclePending_of_unmet hunmet))
  unfold payHeld
  rcases hcases with h | h | h | h | h <;> simp [h]

theorem heldUntil_startHold (h : inv.heldUntil.isSome = true) :
    (startHold env inv).heldUntil.isSome = true := by
  unfold startHold
  cases inv.escrowHoldPeriod with
  | none => exact h
  | some hold => rfl

theorem startHold_stage : (startHold env inv).stage = inv.stage := by
  exact startHold_field Invoice.stage (fun _ => rfl) env

/-- What holds a payment back still does so after the payment is credited. -/
theorem payGuarded_of_held {e e' : Entry} {paid : Invoice} (hguards : e'.guards = e.guards)
    (hterms : paid.terms = inv.terms) (hhold : paid.heldUntil = inv.heldUntil)
    (h : payHeld env e inv = true) : payGuarded env e' (startHold env paid) = true := by
  have hheld : inv.heldUntil.isSome = true → (startHold env paid).heldUntil.isSome = true := by
    intro hsome
    rw [← hhold] at hsome
    exact heldUntil_startHold hsome
  have hsame : (startHold env paid).terms = inv.terms := (startHold_terms env paid).1.trans hterms
  generalize startHold env paid = held at hheld hsame
  have hdelay : e'.releaseDelay = e.releaseDelay := congrArg (fun g => g.2.2) hguards
  have hguarded : isGuarded e' held = isGuarded e inv := by
    have hboth : isGuarded e held.terms = isGuarded e inv.terms := by rw [hsame]
    rw [isGuarded_congr hguards]
    exact hboth
  have horacle : oraclePending held = oraclePending inv := steady_oraclePending inv held hsame
  have hschedule : held.scheduledReleaseAt = inv.scheduledReleaseAt := by
    have hboth : held.terms.scheduledReleaseAt = inv.terms.scheduledReleaseAt := by rw [hsame]
    exact hboth
  simp only [payHeld, Bool.or_eq_true] at h
  unfold payGuarded
  rw [hguarded, hdelay, hschedule]
  rcases h with (((h | h) | h) | h) | h
  · simp [h]
  · simp [conditionPending_of_oracle (horacle.trans h)]
  · simp [h]
  · simp [hheld h]
  · simp [h]

/-- Settling a payment of another invoice leaves this one alone, or releases the unguarded one. -/
theorem settlePayment_outside {target : ℤ} {actor : Address} (hj : j ≠ id)
    (hrun : settlePayment env id inv target actor s = .ok (v, t)) :
    Outside j s t ∨ ∃ u paid, Outside j s u ∧ isGuarded (u.entries id) paid = false ∧
      releaseAs env id paid actor u = .ok (v, t) := by
  have hne : Fact (j ≠ id) := ⟨hj⟩
  obtain ⟨-, u, hrecord, hend⟩ | ⟨-, hrun⟩ := settlePayment_cases hrun
  · have hrecorded : Outside j s u := framed_recordFunded.respects s _ u hrecord
    rcases hend with ⟨-, hrun⟩ | ⟨hunguarded, hrun⟩
    · have hsave : Outside j u t := framed_saveInvoice.respects u _ t hrun
      exact .inl (trans_of (Outside j) hrecorded hsave)
    · exact .inr ⟨u, _, hrecorded, isGuarded_of_payGuarded hunguarded, hrun⟩
  · exact .inl (framed_saveInvoice.respects s _ t hrun)

theorem creditPayment_outside {payer : Address} {amount target : ℤ} {donate : Bool} (hj : j ≠ id)
    (hrun : creditPayment env payer id inv amount target donate s = .ok (v, t)) :
    ∃ u paid, Outside j s u ∧ settlePayment env id paid target payer u = .ok (v, t) := by
  have hne : Fact (j ≠ id) := ⟨hj⟩
  obtain ⟨credited, premium, credit, paid, u₃, u₄, u₅, u₆, u₇, u₈, -, -, htake, -, hrecord, hcount, hnotify,
    hmilestones, hreceipt, hsettle⟩ := creditPayment_passes hrun
  have h₃ : Outside j s u₃ := framed_takePayment.respects s _ u₃ htake
  have h₄ : Outside j u₃ u₄ := framed_recordPayment.respects u₃ _ u₄ hrecord
  have h₅ : Outside j u₄ u₅ := framed_countPayment.respects u₄ _ u₅ hcount
  have h₆ : Outside j u₅ u₆ := framed_notifyInvoice.respects u₅ _ u₆ hnotify
  have h₇ : Outside j u₆ u₇ := framed_maybeReleaseMilestones.respects u₆ _ u₇ hmilestones
  have h₈ : Outside j u₇ u₈ := framed_invokeIfSet.respects u₇ _ u₈ hreceipt
  have hbefore : Outside j s u₅ := trans_of (Outside j) h₃ (trans_of (Outside j) h₄ h₅)
  have hafter : Outside j u₅ u₈ := trans_of (Outside j) h₆ (trans_of (Outside j) h₇ h₈)
  exact ⟨u₈, paid, trans_of (Outside j) hbefore hafter, hsettle⟩

/-- A payment of another invoice leaves this one alone, or releases the unguarded one. -/
theorem pay_outside {payer : Address} {amount : ℤ} {nonce : ℕ} {donate : Bool} (hj : j ≠ id)
    (hrun : pay env payer id amount nonce donate s = .ok (v, t)) :
    Outside j s t ∨ ∃ u paid, Outside j s u ∧ isGuarded (u.entries id) paid = false ∧
      releaseAs env id paid payer u = .ok (v, t) := by
  have hne : Fact (j ≠ id) := ⟨hj⟩
  obtain ⟨inv, target, credits, u₁, u₂, u₃, -, hcheck, -, hkyc, haccumulate, hcredits⟩ := pay_passes hrun
  have h₁ : Outside j s u₁ := framed_checkPayment.respects s _ u₁ hcheck
  have h₂ : Outside j u₁ u₂ := framed_checkKyc.respects u₁ _ u₂ hkyc
  have h₃ : Outside j u₂ u₃ := framed_accumulate.respects u₂ _ u₃ haccumulate
  have h₁₃ : Outside j s u₃ := trans_of (Outside j) h₁ (trans_of (Outside j) h₂ h₃)
  rcases hcredits with ⟨-, u₄, hlimits, hcredit⟩ | ⟨-, rfl⟩
  · have h₄ : Outside j u₃ u₄ := framed_checkLimits.respects u₃ _ u₄ hlimits
    obtain ⟨u₅, paid, h₅, hsettle⟩ := creditPayment_outside hj hcredit
    have h₁₅ : Outside j s u₅ := trans_of (Outside j) h₁₃ (trans_of (Outside j) h₄ h₅)
    rcases settlePayment_outside hj hsettle with hout | ⟨u, paid', hout, hfree, hrelease⟩
    · exact .inl (trans_of (Outside j) h₁₅ hout)
    · exact .inr ⟨u, paid', trans_of (Outside j) h₁₅ hout, hfree, hrelease⟩
  · exact .inl h₁₃

theorem pay_spares {payer : Address} {amount : ℤ} {nonce : ℕ} {donate : Bool} (hj : j ≠ id)
    (hrun : pay env payer id amount nonce donate s = .ok (v, t)) : Spared (fun _ => false) j s t := by
  rcases pay_outside hj hrun with hout | ⟨u, paid, hout, hfree, hrelease⟩
  · exact hout.spared
  · exact trans_of (Spared _ j) hout.spared (releaseAs_spares (notMember_of_unguarded hfree) hj hrelease)

theorem checkPayment_prepares {payer : Address} {amount : ℤ}
    (hrun : checkPayment env payer id amount s = .ok (inv, t)) : Prepares id s t := by
  obtain ⟨stored, hload, -, hinv⟩ := checkPayment_ok hrun
  rcases hinv with ⟨-, rfl⟩ | ⟨-, hsave⟩
  · exact refl_of (Prepares id) t
  · have hstage : (s.entries id).invoice.map Invoice.stage = some stored.resumed.stage := by
      rw [stage_load hload]
      rfl
    exact prepares_save hstage hsave

theorem creditPayment_prepares {payer : Address} {amount target : ℤ} {donate : Bool}
    (hnone : inv.milestones = []) (hheld : payHeld env (s.entries id) inv = true)
    (hstage : (s.entries id).invoice.map Invoice.stage = some inv.stage)
    (hrun : creditPayment env payer id inv amount target donate s = .ok (v, t)) : Prepares id s t := by
  obtain ⟨credited, premium, credit, paid, u₃, u₄, u₅, u₆, u₇, u₈, -, -, htake, -, hrecord, hcount, hnotify,
    hmilestones, hreceipt, hsettle⟩ := creditPayment_passes hrun
  have hnone' : (inv.credited (inv.funded + credited) premium credit).milestones = [] := hnone
  obtain ⟨rfl, rfl⟩ := maybeReleaseMilestones_ahead (milestoneAhead_of_none hnone') hmilestones
  have h₃ : Prepares id s u₃ := framed_takePayment.respects s _ u₃ htake
  have h₄ : Prepares id u₃ u₄ := framed_recordPayment.respects u₃ _ u₄ hrecord
  have h₅ : Prepares id u₄ u₅ := framed_countPayment.respects u₄ _ u₅ hcount
  have h₆ : Prepares id u₅ u₇ := framed_notifyInvoice.respects u₅ _ u₇ hnotify
  have h₈ : Prepares id u₇ u₈ := framed_invokeIfSet.respects u₇ _ u₈ hreceipt
  have hbefore : Prepares id s u₅ := trans_of (Prepares id) h₃ (trans_of (Prepares id) h₄ h₅)
  have hpaid : Prepares id s u₈ := trans_of (Prepares id) hbefore (trans_of (Prepares id) h₆ h₈)
  refine trans_of (Prepares id) hpaid ?_
  have hstage' : (u₈.entries id).invoice.map Invoice.stage =
      some (inv.credited (inv.funded + credited) premium credit).stage := by
    rw [hpaid.stage, hstage]
    rfl
  obtain ⟨-, u₉, hfunded, hend⟩ | ⟨-, hsettle⟩ := settlePayment_cases hsettle
  · have h₉ : Prepares id u₈ u₉ := framed_recordFunded.respects u₈ _ u₉ hfunded
    have hguards : (u₉.entries id).guards = (s.entries id).guards := h₉.guards.trans hpaid.guards
    have hguarded : payGuarded env (u₉.entries id)
        (startHold env (inv.credited (inv.funded + credited) premium credit)) = true :=
      payGuarded_of_held hguards rfl rfl hheld
    obtain ⟨-, hsettle⟩ | ⟨hunguarded, -⟩ := hend
    · refine trans_of (Prepares id) h₉ (prepares_save ?_ hsettle)
      rw [h₉.stage, hstage', startHold_stage]
    · rw [hguarded] at hunguarded
      cases hunguarded
  · exact prepares_save hstage' hsettle

theorem pay_prepares {payer : Address} {amount : ℤ} {nonce : ℕ} {donate : Bool}
    (hload : (s.entries id).load = some inv) (hnone : inv.milestones = [])
    (hheld : payHeld env (s.entries id) inv = true)
    (hrun : pay env payer id amount nonce donate s = .ok (v, t)) : Prepares id s t := by
  obtain ⟨paid, target, credits, u₁, u₂, u₃, -, hcheck, -, hkyc, haccumulate, hcredits⟩ := pay_passes hrun
  have h₁ : Prepares id s u₁ := checkPayment_prepares hcheck
  have h₂ : Prepares id u₁ u₂ := framed_checkKyc.respects u₁ _ u₂ hkyc
  have h₃ : Prepares id u₂ u₃ := framed_accumulate.respects u₂ _ u₃ haccumulate
  have h₁₃ : Prepares id s u₃ := trans_of (Prepares id) h₁ (trans_of (Prepares id) h₂ h₃)
  rcases hcredits with ⟨-, u₄, hlimits, hcredit⟩ | ⟨-, rfl⟩
  · have h₄ : Prepares id u₃ u₄ := framed_checkLimits.respects u₃ _ u₄ hlimits
    have h₁₄ : Prepares id s u₄ := trans_of (Prepares id) h₁₃ h₄
    refine trans_of (Prepares id) h₁₄ ?_
    obtain ⟨stored, hload', -, hpaid, -⟩ := checkPayment_still hcheck
    obtain rfl : inv = stored := Option.some_inj.1 (hload.symm.trans hload')
    have hheld' : payHeld env (u₄.entries id) inv = true := by
      have hdelay : (u₄.entries id).releaseDelay = (s.entries id).releaseDelay :=
        congrArg (fun g => g.2.2) h₁₄.guards
      rw [← hheld, payHeld, payHeld, isGuarded_congr h₁₄.guards, hdelay]
    have hstage : (u₄.entries id).invoice.map Invoice.stage = some inv.stage := by
      rw [h₁₄.stage, stage_load hload]
    rcases hpaid with rfl | rfl
    · exact creditPayment_prepares hnone hheld' hstage hcredit
    · have hnone' : inv.resumed.milestones = [] := hnone
      have hheld'' : payHeld env (u₄.entries id) inv.resumed = true := hheld'
      have hstage' : (u₄.entries id).invoice.map Invoice.stage = some inv.resumed.stage := hstage
      exact creditPayment_prepares hnone' hheld'' hstage' hcredit
  · exact h₁₃

/-! ### Releases -/

/-- The gates a release looks at on its own invoice. -/
def Gate.releaseChecked (e : Entry) : Gate → Bool
  | .conditionHash | .approver | .hold | .coSigners | .cosigners | .prerequisite => true
  | .delay => e.fundedAtLedger.isSome
  | .schedule | .oracle => false

theorem checkPreimage_met {preimage : Option (List ℕ)}
    (hrun : checkPreimage env inv preimage s = .ok (v, t)) :
    Gate.Met env s id preimage inv .conditionHash := by
  intro expected hexpected
  rw [checkPreimage, Option.mem_def.1 hexpected] at hrun
  simp only [orPanic_bind, require_ok] at hrun
  obtain ⟨bytes, hbytes, hhash, -⟩ := hrun
  exact ⟨bytes, hbytes, hhash⟩

theorem delay_met {preimage : Option (List ℕ)} (hsome : (s.entries id).fundedAtLedger.isSome = true)
    (helapsed : delayElapsed env (s.entries id) = true) : Gate.Met env s id preimage inv .delay := by
  intro delay hdelay
  obtain ⟨fundedAt, hfundedAt⟩ := Option.isSome_iff_exists.1 hsome
  rw [delayElapsed, Option.mem_def.1 hdelay, hfundedAt] at helapsed
  exact ⟨fundedAt, hfundedAt, of_decide_eq_true helapsed⟩

theorem checkPrerequisite_met {preimage : Option (List ℕ)}
    (hrun : checkPrerequisite inv s = .ok (v, t)) : Gate.Met env s id preimage inv .prerequisite := by
  intro prereqId hprereq
  rw [checkPrerequisite, Option.mem_def.1 hprereq] at hrun
  simp only [loadInvoice_bind, require_ok] at hrun
  obtain ⟨prereq, hload, hstatus, -⟩ := hrun
  obtain ⟨stored, hstored, rfl⟩ := Option.map_eq_some_iff.1 hload
  exact ⟨stored, hstored, hstatus⟩

theorem hold_met {preimage : Option (List ℕ)} (h : inv.heldUntil.getD 0 ≤ env.sequence) :
    Gate.Met env s id preimage inv .hold := by
  intro heldUntil hheld
  rw [Option.mem_def.1 hheld] at h
  exact h

/-- A release that gets through finds the gates it looks at open. -/
theorem releaseInvoiceInner_met {preimage : Option (List ℕ)} {gate : Gate}
    (hload : (s.entries id).load = some inv) (hgate : gate.releaseChecked (s.entries id) = true)
    (hrun : releaseInvoiceInner env id preimage s = .ok (v, t)) : gate.Met env s id preimage inv := by
  simp only [releaseInvoiceInner, requireFnNotPaused_bind, requireNotFrozen_bind, loadInvoice_bind] at hrun
  obtain ⟨-, -, inv', hload', hrun⟩ := hrun
  obtain rfl : inv = inv' := Option.some_inj.1 (hload.symm.trans hload')
  obtain ⟨_, u₁, hpreimage, hrun⟩ := bind_ok.1 hrun
  obtain rfl := eq_of_framed hpreimage
  simp only [require_bind] at hrun
  obtain ⟨-, -, -, -, hhold, hrun⟩ := hrun
  obtain ⟨_, u₂, hdispute, hrun⟩ := bind_ok.1 hrun
  obtain rfl := eq_of_framed hdispute
  simp only [ofResult_bind, getEntry_bind, require_bind] at hrun
  obtain ⟨_, -, _, -, -, hrun⟩ := hrun
  obtain ⟨_, u₃, hdelay, hrun⟩ := bind_ok.1 hrun
  obtain rfl := eq_of_framed hdelay
  obtain ⟨_, u₄, happroval, hrun⟩ := bind_ok.1 hrun
  obtain rfl := eq_of_framed happroval
  obtain ⟨_, u₅, hprereq, hrun⟩ := bind_ok.1 hrun
  obtain rfl := eq_of_framed hprereq
  obtain ⟨_, u₆, hgroup, hrun⟩ := bind_ok.1 hrun
  obtain rfl := eq_of_framed hgroup
  obtain ⟨_, u₇, hcosigners, -⟩ := bind_ok.1 hrun
  simp only [checkReleaseDelay, getEntry_bind, require_ok] at hdelay
  simp only [checkCosigners, require_bind, getEntry_bind, require_ok] at hcosigners
  cases gate with
  | conditionHash => exact checkPreimage_met hpreimage
  | approver => exact (require_ok.1 happroval).1
  | delay => exact delay_met hgate hdelay.1
  | hold => exact hold_met hhold
  | coSigners => exact hcosigners.1
  | cosigners => exact fun _ => hcosigners.2.1
  | prerequisite => exact checkPrerequisite_met hprereq
  | schedule => cases hgate
  | oracle => cases hgate

theorem releaseInvoiceInner_spares {preimage : Option (List ℕ)} (hgroup : j ∉ groupMembers s id)
    (hj : j ≠ id) (hrun : releaseInvoiceInner env id preimage s = .ok (v, t)) :
    Spared (fun _ => false) j s t := by
  obtain ⟨inv, -, -, hrelease⟩ := releaseInvoiceInner_ok hrun
  exact releaseAs_spares hgroup hj hrelease

theorem releaseTranche_outside {index : ℕ} (hj : j ≠ id)
    (hrun : releaseTranche env id index s = .ok (v, t)) : Outside j s t := by
  have hne : Fact (j ≠ id) := ⟨hj⟩
  have hmark : Framed (Outside j) (markTranche id index) :=
    .of (.modify fun s => ⟨Store.setEntry_ne s hj _, .of_log rfl⟩)
  have hstats : ∀ f, Framed (Outside j) (modifyStats f) := fun _ => .of (.modify fun _ => ⟨rfl, .of_log rfl⟩)
  exact framed_releaseTranche.respects s v t hrun

theorem releaseTranche_hold {index : ℕ} {preimage : Option (List ℕ)}
    (hload : (s.entries id).load = some inv)
    (hrun : releaseTranche env id index s = .ok (v, t)) : Gate.Met env s id preimage inv .hold := by
  simp only [releaseTranche, requireFnNotPaused_bind, loadInvoice_bind, require_bind] at hrun
  obtain ⟨-, inv', hload', -, -, -, hhold, -⟩ := hrun
  obtain rfl : inv = inv' := Option.some_inj.1 (hload.symm.trans hload')
  exact hold_met hhold

/-! ## Every call -/

inductive GateCall where
  | payment (call : PaymentCall)
  | release (id : ℕ) (preimage : Option (List ℕ))
  | releaseTranche (id index : ℕ)

def Gate.all : List Gate :=
  [.conditionHash, .approver, .delay, .hold, .schedule, .coSigners, .cosigners, .prerequisite, .oracle]

/-- The gates nobody looks at when another invoice forwards into this one. -/
def Gate.forwardSkips : List Gate := [.conditionHash, .approver, .delay, .hold, .schedule, .oracle]

/-- The gates most payments do not look at on the invoice they credit. -/
def Gate.creditSkips : List Gate := [.conditionHash, .approver, .delay, .hold, .schedule]

/-- The gates a payment does not look at on invoice `j`. Milestones are paid behind no gate at all. -/
def PaymentCall.gateSkips (s : Store) (j : ℕ) : PaymentCall → List Gate
  | .pay _ id _ _ _ =>
      if j = id then
        if ∀ inv ∈ (s.entries j).invoice, inv.milestones = [] then [.conditionHash, .approver] else Gate.all
      else Gate.forwardSkips
  | .payWithToken .. | .delegatePay .. => Gate.forwardSkips
  | .bridgePay _ id _ _ | .closeChannel _ id | .payInvoiceDelegated _ id _ _ _
  | .revealConfidentialPayment id _ _ _ => if j = id then Gate.creditSkips else Gate.forwardSkips
  | .poolPay payer payments =>
      if ∀ k ∈ (PaymentCall.poolPay payer payments).targets s, k = j then Gate.creditSkips
      else Gate.forwardSkips
  | .executePaymentBatch payer batchId =>
      if ∀ k ∈ (PaymentCall.executePaymentBatch payer batchId).targets s, k = j then Gate.creditSkips
      else Gate.forwardSkips
  | .contribute _ id _ => if j = id then Gate.all else []

namespace GateCall

def run (env : Env) : GateCall → SplitM Unit
  | .payment call => call.run env
  | .release id preimage => releaseInvoice env id preimage
  | .releaseTranche id index => Split.releaseTranche env id index

/-- The preimage the caller shows. -/
def preimage : GateCall → Option (List ℕ)
  | .release _ preimage => preimage
  | _ => none

/-- The gates a call does not look at on invoice `j`. -/
def skips (s : Store) (j : ℕ) : GateCall → List Gate
  | .payment call => call.gateSkips s j
  | .release id _ =>
      if j = id then Gate.all.filter fun gate => !gate.releaseChecked (s.entries id)
      else if j ∈ groupMembers s id then Gate.all else Gate.forwardSkips
  | .releaseTranche id _ => if j = id then Gate.all.filter (· ≠ .hold) else []

end GateCall

theorem Gate.mem_all (gate : Gate) : gate ∈ Gate.all := by
  cases gate <;> decide

section Unmet

variable {gate : Gate} {preimage : Option (List ℕ)} {back : Invoice → Bool}

theorem barred_of_load (hload : (s.entries j).load = some inv)
    (h : isGuarded (s.entries j) inv = true ∨ oraclePending inv = true ∧ back = oraclePending) :
    Barred back j s := by
  intro stored hstored
  obtain ⟨before, hbefore, rfl⟩ := Option.map_eq_some_iff.1 hload
  obtain rfl : before = stored := Option.some_inj.1 (hbefore.symm.trans hstored)
  rcases h with hguarded | ⟨hpending, rfl⟩
  · exact .inl hguarded
  · exact .inr hpending

theorem barred_of_forward (hload : (s.entries j).load = some inv) (hgate : gate ∉ Gate.forwardSkips)
    (hunmet : ¬gate.Met env s j preimage inv) : Barred back j s := by
  refine barred_of_load hload (.inl (isGuarded_of_unmet ?_ hunmet))
  cases gate <;> simp [Gate.forwardSkips] at hgate ⊢

theorem barred_of_credit (hload : (s.entries j).load = some inv) (hgate : gate ∉ Gate.creditSkips)
    (hunmet : ¬gate.Met env s j preimage inv) : Barred oraclePending j s := by
  by_cases horacle : gate = .oracle
  · subst horacle
    exact barred_of_load hload (.inr ⟨oraclePending_of_unmet hunmet, rfl⟩)
  · refine barred_of_load hload (.inl (isGuarded_of_unmet ?_ hunmet))
    cases gate <;> simp [Gate.creditSkips] at hgate horacle ⊢

theorem barred_of_single (hload : (s.entries j).load = some inv)
    (hgate : gate ∉ if j = id then Gate.creditSkips else Gate.forwardSkips)
    (hunmet : ¬gate.Met env s j preimage inv) : Barred (backFor id j oraclePending) j s := by
  unfold backFor
  split_ifs at hgate ⊢
  · exact barred_of_credit hload hgate hunmet
  · exact barred_of_forward hload hgate hunmet

/-- The pool pays for invoice `j` alone, or what is not skipped guards it. -/
theorem poolPay_unmet {payer : Address} {payments : List InvoicePayment}
    (hload : (s.entries j).load = some inv)
    (hgate : gate ∉ if ∀ k ∈ payments.map InvoicePayment.invoiceId, k = j then Gate.creditSkips
      else Gate.forwardSkips)
    (hunmet : ¬gate.Met env s j preimage inv)
    (hrun : poolPayInner env payer payments s = .ok (v, t)) : Unreleased j s t := by
  split_ifs at hgate with hsame
  · have honly : ∀ p ∈ payments, p.invoiceId = j := fun p hp => hsame _ (List.mem_map_of_mem hp)
    exact poolPayInner_unreleased (.inr ⟨rfl, honly⟩) (barred_of_credit hload hgate hunmet) hrun
  · exact poolPayInner_unreleased (.inl rfl) (barred_of_forward hload hgate hunmet) hrun

theorem executePaymentBatch_unmet {payer : Address} {batchId : ℕ}
    (hload : (s.entries j).load = some inv)
    (hgate : gate ∉ (PaymentCall.executePaymentBatch payer batchId).gateSkips s j)
    (hunmet : ¬gate.Met env s j preimage inv)
    (hrun : executePaymentBatch env payer batchId s = .ok (v, t)) : Unreleased j s t := by
  obtain ⟨batch, u, hbatch, -, -, -, -, hset, hinner⟩ := executePaymentBatch_passes hrun
  have hsame : u.entries = s.entries ∧ u.log = s.log := by
    obtain rfl := modify_ok.1 hset
    exact ⟨rfl, rfl⟩
  have htargets : (PaymentCall.executePaymentBatch payer batchId).targets s =
      batch.items.map InvoicePayment.invoiceId := by
    simp [PaymentCall.targets, hbatch]
  rw [PaymentCall.gateSkips, htargets] at hgate
  rw [← Gate.met_congr hsame.1] at hunmet
  rw [← hsame.1] at hload
  exact (poolPay_unmet hload hgate hunmet hinner).congr hsame.1 hsame.2

theorem contribute_outside {payer : Address} {amount : ℤ} {r : ℤ × ℤ} (hj : j ≠ id)
    (hrun : contribute env id payer amount s = .ok (r, t)) : Outside j s t := by
  have hne : Fact (j ≠ id) := ⟨hj⟩
  have hframed : Framed (Outside j) (contribute env id payer amount) := by
    unfold contribute
    infer_instance
  exact hframed.respects s r t hrun

theorem Outside.unreleased (h : Outside j s t) : Unreleased j s t :=
  ⟨by rw [h.entries], by rw [h.entries], h.payouts⟩

theorem payment_unreleased {call : PaymentCall} (hload : (s.entries j).load = some inv)
    (hgate : gate ∉ call.gateSkips s j) (hunmet : ¬gate.Met env s j preimage inv)
    (hrun : call.run env s = .ok (v, t)) : Unreleased j s t := by
  cases call with
  | pay payer id amount nonce donate =>
      by_cases hj : j = id
      · subst hj
        rw [PaymentCall.gateSkips, if_pos rfl] at hgate
        split_ifs at hgate with hnone
        · have hnone' : inv.milestones = [] := by
            obtain ⟨stored, hstored, rfl⟩ := Option.map_eq_some_iff.1 hload
            exact hnone stored hstored
          have hheld : payHeld env (s.entries j) inv = true := by
            refine payHeld_of_unmet ⟨?_, ?_⟩ hunmet
            · rintro rfl
              simp at hgate
            · rintro rfl
              simp at hgate
          exact (pay_prepares hload hnone' hheld hrun).unreleased
        · exact absurd (Gate.mem_all gate) hgate
      · rw [PaymentCall.gateSkips, if_neg hj] at hgate
        exact (pay_spares hj hrun (barred_of_forward hload hgate hunmet)).2
  | payWithToken payer id sourceToken amount nonce =>
      have hnever : ∀ inv y, (fun _ : Invoice => false) inv = true →
          belowMinFunding (inv.withFunded y) = true := fun _ _ h => absurd h Bool.false_ne_true
      exact (payWithToken_settles hrun).unreleased hnever steady_false
        (barred_of_forward hload hgate hunmet)
  | bridgePay payer id sourceToken amount =>
      exact (bridgePay_settles hrun).unreleased (fun _ _ h => conditionPending_of_oracle h)
        steady_oraclePending (barred_of_single hload hgate hunmet)
  | poolPay payer payments =>
      change poolPay env payer payments s = .ok (v, t) at hrun
      rw [poolPay_eq, requireNotPaused_bind, requireAuth_bind] at hrun
      exact poolPay_unmet hload hgate hunmet hrun.2.2
  | executePaymentBatch payer batchId => exact executePaymentBatch_unmet hload hgate hunmet hrun
  | closeChannel payer id => exact closeChannel_unreleased (barred_of_single hload hgate hunmet) hrun
  | contribute payer id amount =>
      obtain ⟨r, u, hcontribute, hpure⟩ := bind_ok.1 hrun
      obtain ⟨-, rfl⟩ := pure_ok.1 hpure
      rw [PaymentCall.gateSkips] at hgate
      split_ifs at hgate with hj
      · exact absurd (Gate.mem_all gate) hgate
      · exact (contribute_outside hj hcontribute).unreleased
  | delegatePay delegate beneficiary id amount =>
      exact (delegatePay_settles hrun).unreleased (fun _ _ h => h) steady_false
        (barred_of_forward hload hgate hunmet)
  | payInvoiceDelegated executor id amount nonce onBehalfOf =>
      exact (payInvoiceDelegated_settles hrun).unreleased (fun _ _ h => h) steady_oraclePending
        (barred_of_single hload hgate hunmet)
  | revealConfidentialPayment id payer value blinding =>
      exact (revealConfidentialPayment_settles hrun).unreleased
        (fun _ _ h => conditionPending_of_oracle h) steady_oraclePending
        (barred_of_single hload hgate hunmet)

end Unmet

/-- A gate the call looks at is open, or the call releases nothing of invoice `j`. -/
theorem gate_met_of_checked {call : GateCall} {gate : Gate} (hrun : call.run env s = .ok (v, t))
    (hload : (s.entries j).load = some inv) (hreleased : ¬Unreleased j s t)
    (hgate : gate ∉ call.skips s j) : gate.Met env s j call.preimage inv := by
  by_contra hunmet
  cases call with
  | payment call => exact hreleased (payment_unreleased hload hgate hunmet hrun)
  | release id preimage =>
      simp only [GateCall.run, releaseInvoice, bind_ok, acquireLock_ok, removeLock_ok] at hrun
      obtain ⟨_, u, ⟨-, hlocked⟩, _, w, hinner, rfl⟩ := hrun
      have hsame : u.entries = s.entries ∧ u.log = s.log ∧ u.groups = s.groups := by
        rw [hlocked]
        exact ⟨rfl, rfl, rfl⟩
      rw [← Gate.met_congr hsame.1] at hunmet
      rw [← hsame.1] at hload
      rw [GateCall.skips] at hgate
      split_ifs at hgate with hj hmember
      · subst hj
        have hchecked : gate.releaseChecked (u.entries j) = true := by
          rw [hsame.1]
          simpa [Gate.mem_all] using hgate
        exact hunmet (releaseInvoiceInner_met hload hchecked hinner)
      · exact absurd (Gate.mem_all gate) hgate
      · have hbarred : Barred (fun _ => false) j u := barred_of_forward hload hgate hunmet
        have hnot : j ∉ groupMembers u id := by
          rw [groupMembers, hsame.1, hsame.2.2]
          exact hmember
        have hspared : Unreleased j u w := (releaseInvoiceInner_spares hnot hj hinner hbarred).2
        obtain ⟨hstage, htranches, hpayouts⟩ := hspared.congr hsame.1 hsame.2.1
        exact hreleased ⟨hstage, htranches, hpayouts⟩
  | releaseTranche id index =>
      rw [GateCall.skips] at hgate
      split_ifs at hgate with hj
      · subst hj
        obtain rfl : gate = .hold := by simpa [Gate.mem_all] using hgate
        exact hunmet (releaseTranche_hold hload hrun)
      · exact hreleased (releaseTranche_outside hj hrun).unreleased

/-- A call that releases an invoice, or pays its recipients, does so behind met gates exactly when
the gates the call does not look at are met. -/
theorem gates_met_iff {call : GateCall} (hrun : call.run env s = .ok (v, t))
    (hload : (s.entries j).load = some inv) (hreleased : ¬Unreleased j s t) :
    (∀ gate : Gate, gate.Met env s j call.preimage inv) ↔
      ∀ gate ∈ call.skips s j, gate.Met env s j call.preimage inv := by
  constructor
  · intro hall gate _
    exact hall gate
  · intro hskipped gate
    by_cases hgate : gate ∈ call.skips s j
    · exact hskipped gate hgate
    · exact gate_met_of_checked hrun hload hreleased hgate

/-- An invoice whose release address 5 has to approve. -/
def approvedInvoice (approved : Bool) : Invoice :=
  { sampleInvoice with approver := some 5, approved := approved }

theorem full_payment_accepted (approved : Bool) :
    ∃ t, (GateCall.payment (.pay 20 1 100 0 false)).run (sampleEnv 10 0)
        (sampleStore (approvedInvoice approved) []) = .ok ((), t) ∧
      (t.entries 1).invoice.map Invoice.stage = some (.released, 0, 0) := by
  have hstage : ((commit ((GateCall.payment (.pay 20 1 100 0 false)).run (sampleEnv 10 0))
      (sampleStore (approvedInvoice approved) [])).entries 1).invoice.map Invoice.stage =
        some (.released, 0, 0) := by
    cases approved <;> decide +kernel
  rcases commit_cases ((GateCall.payment (.pay 20 1 100 0 false)).run (sampleEnv 10 0))
    (sampleStore (approvedInvoice approved) []) with ⟨a, hrun⟩ | ⟨-, hsame⟩
  · exact ⟨_, hrun, hstage⟩
  · rw [hsame] at hstage
    cases hstage

/-- The full payment of an approved invoice releases it. -/
theorem approved_payment_releases :
    ∃ t inv,
      (GateCall.payment (.pay 20 1 100 0 false)).run (sampleEnv 10 0)
          (sampleStore (approvedInvoice true) []) = .ok ((), t) ∧
        ((sampleStore (approvedInvoice true) []).entries 1).load = some inv ∧
        ¬Unreleased 1 (sampleStore (approvedInvoice true) []) t ∧
        ∀ gate : Gate, gate.Met (sampleEnv 10 0) (sampleStore (approvedInvoice true) []) 1 none inv := by
  obtain ⟨t, hrun, hstage⟩ := full_payment_accepted true
  have hreleased : ¬Unreleased 1 (sampleStore (approvedInvoice true) []) t := by
    intro h
    have hboth := h.stage.symm.trans hstage
    cases hboth
  refine ⟨t, _, hrun, rfl, hreleased, (gates_met_iff hrun rfl hreleased).2 ?_⟩
  intro gate hgate
  have hcases : gate = .conditionHash ∨ gate = .approver := by
    have hskips : (GateCall.payment (.pay 20 1 100 0 false)).skips
        (sampleStore (approvedInvoice true) []) 1 = [.conditionHash, .approver] := by decide
    rw [hskips] at hgate
    simpa using hgate
  rcases hcases with rfl | rfl
  · intro expected h
    cases h
  · exact .inr rfl

/-- The full payment releases the invoice without the approval as well. -/
theorem unapproved_payment_releases :
    ∃ t inv,
      (GateCall.payment (.pay 20 1 100 0 false)).run (sampleEnv 10 0)
          (sampleStore (approvedInvoice false) []) = .ok ((), t) ∧
        ((sampleStore (approvedInvoice false) []).entries 1).load = some inv ∧
        inv.status = .pending ∧
        (t.entries 1).invoice.map Invoice.stage = some (.released, 0, 0) ∧
        ¬Gate.Met (sampleEnv 10 0) (sampleStore (approvedInvoice false) []) 1 none inv .approver := by
  obtain ⟨t, hrun, hstage⟩ := full_payment_accepted false
  refine ⟨t, _, hrun, rfl, rfl, hstage, ?_⟩
  rintro (h | h) <;> cases h

end StellarSplit.Split
