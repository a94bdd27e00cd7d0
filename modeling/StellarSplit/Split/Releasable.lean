import StellarSplit.Split.ReleaseGates

/-!
# Asking whether an invoice can be released

A view walks through the gates of a release by hand and answers whether it
would go through. Of the gates the two have in common they say the same. The
view knows only pending invoices, does not take off what single recipients were
paid, and looks neither at the group nor at the switches of the contract.
-/

namespace StellarSplit.Split

open Exec Function Machine

variable {env : Env} {s t : Store} {v : Unit} {id : ℕ} {inv : Invoice} {preimage : Option (List ℕ)}

/-! ## The checks of a release -/

/-- What `_release_invoice_inner` looks at before it comes to `_release`. -/
def releaseChecks (env : Env) (id : ℕ) (preimage : Option (List ℕ)) : SplitM Invoice := do
  requireFnNotPaused env "release"
  requireNotFrozen env
  let inv ← loadInvoice id
  checkPreimage env inv preimage
  require (inv.frozen = false) (.panic "invoice is frozen")
  require (inv.adminFrozen = false) (.panic "invoice frozen by admin")
  require (inv.status ≠ .deleted) (.panic "InvoiceDeleted")
  require (inv.status = .pending ∨ inv.status = .partiallyReleased)
    (.panic "invoice is not pending or partially released")
  require (inv.heldUntil.getD 0 ≤ env.sequence) (.panic "EscrowHoldActive")
  checkDispute id inv
  let required ← ofResult (minRequired inv)
  let e ← getEntry id
  let paid ← ofResult (alreadyPaidAmount inv e.paidRecipients)
  require (satSubI128 required paid ≤ inv.funded) (.panic "minimum funding not reached")
  checkReleaseDelay env id
  checkApproval inv
  checkPrerequisite inv
  checkGroup id
  checkCosigners id inv
  pure inv

/-- `_release_invoice_inner` is its checks and then `_release`. -/
theorem releaseInvoiceInner_eq : releaseInvoiceInner env id preimage =
    (do let inv ← releaseChecks env id preimage
        releaseAs env id inv currentContract) := by
  simp only [releaseInvoiceInner, releaseChecks, bind_assoc, pure_bind]

/-- A release that comes as far as `_release`. -/
def ReachesRelease (env : Env) (id : ℕ) (preimage : Option (List ℕ)) (s : Store) : Prop :=
  ∃ inv t, (do acquireLock; releaseChecks env id preimage) s = .ok (inv, t)

/-! ## The view -/

/-- The dispute gate of the view. -/
def disputeSettled (e : Entry) (inv : Invoice) : Bool :=
  !inv.disputed ||
    match e.disputeRecord with
    | some status => status ≠ .active
    | none => false

/-- The prerequisite gate of the view. -/
def prerequisiteReleased (inv : Invoice) : SplitM Bool :=
  match inv.prerequisiteId with
  | none => pure true
  | some prereqId => do
      let prereq ← loadInvoice prereqId
      pure (prereq.status = .released)

def isInvoiceReleasable (env : Env) (id : ℕ) : SplitM Bool := do
  let inv ← loadInvoice id
  if inv.frozen = true ∨ inv.adminFrozen = true then pure false
  else if inv.status ≠ .pending then pure false
  else do
    let e ← getEntry id
    if disputeSettled e inv = false then pure false
    else if env.sequence < inv.heldUntil.getD 0 then pure false
    else do
      let required ← ofResult (minRequired inv)
      if inv.funded < required then pure false
      else if delayElapsed env e = false then pure false
      else if inv.approver.isSome = true ∧ inv.approved = false then pure false
      else do
        let released ← prerequisiteReleased inv
        if released = false then pure false
        else if inv.coSigners ≠ [] ∧ inv.signatures.length < inv.requiredSignatures then pure false
        else pure (decide (thresholdMet e))

/-! ## The gates -/

/-- The gates that the view and the release both look at are open. -/
structure SharedGates (env : Env) (s : Store) (id : ℕ) (inv : Invoice) : Prop where
  frozen : inv.frozen = false
  adminFrozen : inv.adminFrozen = false
  held : inv.heldUntil.getD 0 ≤ env.sequence
  dispute : disputeSettled (s.entries id) inv = true
  delay : delayElapsed env (s.entries id) = true
  approval : inv.approver.isNone = true ∨ inv.approved = true
  prerequisite : ∀ prereqId ∈ inv.prerequisiteId,
    ∃ prereq, (s.entries prereqId).load = some prereq ∧ prereq.status = .released
  coSigners : inv.coSigners = [] ∨ inv.requiredSignatures ≤ inv.signatures.length
  threshold : thresholdMet (s.entries id)

/-- Whether an invoice has reached its total. -/
def fundedIn (s : Store) (id : ℕ) : Option Bool :=
  (s.entries id).load.map fun inv => decide (inv.total ≤ inv.funded)

/-- Enough members of the invoice's group are funded. -/
def GroupOpen (s : Store) (id : ℕ) : Prop :=
  ∀ groupId ∈ (s.entries id).group, ∃ g, s.groups groupId = some g ∧
    ∃ funded, g.invoiceIds.mapM (fundedIn s) = some funded ∧ groupFunded g.mode funded = true

/-- What only the release looks at: the switches of the contract and the group, and for the status
and the funding the rules of its own. -/
structure ReleaseOpen (env : Env) (s : Store) (id : ℕ) (inv : Invoice) : Prop where
  unlocked : s.reLock = false
  running : FnRunning env "release"
  unfrozen : env.config.schemaCurrent = true ∧ env.config.upgradeFrozen = false
  status : inv.status = .pending ∨ inv.status = .partiallyReleased
  funding : ∃ required paid, minRequired inv = .ok required ∧
    alreadyPaidAmount inv (s.entries id).paidRecipients = .ok paid ∧
    satSubI128 required paid ≤ inv.funded
  group : GroupOpen s id

/-- What the view asks for the status and the funding. -/
def ViewOpen (inv : Invoice) : Prop :=
  inv.status = .pending ∧ ∃ required, minRequired inv = .ok required ∧ required ≤ inv.funded

/-- The preimage is the one the invoice asks for, if it asks for one. -/
def RightPreimage (env : Env) (inv : Invoice) (preimage : Option (List ℕ)) : Prop :=
  ∀ expected ∈ inv.releaseConditionHash, ∃ bytes ∈ preimage, env.sha256 bytes = expected

/-! ## What each check asks -/

section Checks

variable {β : Type} {k : Unit → SplitM β} {r : β × Store}

theorem checkPreimage_bind : (checkPreimage env inv preimage >>= k) s = .ok r ↔
    RightPreimage env inv preimage ∧ k () s = .ok r := by
  unfold checkPreimage RightPreimage
  cases hhash : inv.releaseConditionHash with
  | none =>
      simp only [pure_bind]
      constructor
      · exact fun h => ⟨fun _ hmem => (Option.not_mem_none _ hmem).elim, h⟩
      · exact fun h => h.2
  | some expected =>
      simp only [bind_assoc, orPanic_bind, require_bind]
      constructor
      · rintro ⟨bytes, hbytes, hsame, h⟩
        refine ⟨fun wanted hmem => ?_, h⟩
        cases hmem
        exact ⟨bytes, hbytes, hsame⟩
      · rintro ⟨hright, h⟩
        obtain ⟨bytes, hbytes, hsame⟩ := hright expected rfl
        exact ⟨bytes, hbytes, hsame, h⟩

theorem checkDispute_bind : (checkDispute id inv >>= k) s = .ok r ↔
    disputeSettled (s.entries id) inv = true ∧ k () s = .ok r := by
  unfold checkDispute disputeSettled
  cases inv.disputed with
  | false => simp only [Bool.false_eq_true, if_false, pure_bind, Bool.not_false, Bool.true_or, true_and]
  | true =>
      simp only [if_true, bind_assoc, getEntry_bind, orPanic_bind, require_bind, Bool.not_true,
        Bool.false_or]
      cases (s.entries id).disputeRecord with
      | none => simp
      | some status => simp

theorem checkReleaseDelay_bind : (checkReleaseDelay env id >>= k) s = .ok r ↔
    delayElapsed env (s.entries id) = true ∧ k () s = .ok r := by
  simp only [checkReleaseDelay, bind_assoc, getEntry_bind, require_bind]

theorem checkApproval_bind : (checkApproval inv >>= k) s = .ok r ↔
    (inv.approver.isNone = true ∨ inv.approved = true) ∧ k () s = .ok r := by
  simp only [checkApproval, require_bind]

theorem checkPrerequisite_bind : (checkPrerequisite inv >>= k) s = .ok r ↔
    (∀ prereqId ∈ inv.prerequisiteId,
      ∃ prereq, (s.entries prereqId).load = some prereq ∧ prereq.status = .released) ∧
      k () s = .ok r := by
  unfold checkPrerequisite
  cases inv.prerequisiteId with
  | none => simp
  | some prereqId =>
      simp only [bind_assoc, loadInvoice_bind, require_bind]
      constructor
      · rintro ⟨prereq, hload, hstatus, h⟩
        refine ⟨fun other hother => ?_, h⟩
        cases hother
        exact ⟨prereq, hload, hstatus⟩
      · rintro ⟨hmet, h⟩
        obtain ⟨prereq, hload, hstatus⟩ := hmet prereqId rfl
        exact ⟨prereq, hload, hstatus, h⟩

theorem memberFunded_ok {b : Bool} : memberFunded id s = .ok (b, t) ↔ fundedIn s id = some b ∧ s = t := by
  simp only [memberFunded, loadInvoice_bind, pure_ok, fundedIn, Option.map_eq_some_iff]
  constructor
  · rintro ⟨inv, hload, hfunded, rfl⟩
    exact ⟨⟨inv, hload, hfunded⟩, rfl⟩
  · rintro ⟨⟨inv, hload, hfunded⟩, rfl⟩
    exact ⟨inv, hload, hfunded, rfl⟩

theorem mapM_memberFunded_ok {ids : List ℕ} {funded : List Bool} :
    ids.mapM memberFunded s = .ok (funded, t) ↔ ids.mapM (fundedIn s) = some funded ∧ s = t := by
  induction ids generalizing funded with
  | nil => simp
  | cons m ids ih =>
      rw [List.mapM_cons, List.mapM_cons]
      simp only [Option.bind_eq_bind, Option.bind_eq_some_iff, Option.pure_def, Option.some.injEq]
      constructor
      · intro h
        obtain ⟨b, u, hmember, h⟩ := bind_ok.1 h
        obtain ⟨hfirst, rfl⟩ := memberFunded_ok.1 hmember
        obtain ⟨rest, u, hrest, h⟩ := bind_ok.1 h
        obtain ⟨hfunded, hsame⟩ := pure_ok.1 h
        obtain ⟨hrest, hu⟩ := ih.1 (hsame ▸ hrest)
        exact ⟨⟨b, hfirst, rest, hrest, hfunded⟩, hu⟩
      · rintro ⟨⟨b, hfirst, rest, hrest, hfunded⟩, rfl⟩
        refine bind_ok.2 ⟨b, s, memberFunded_ok.2 ⟨hfirst, rfl⟩, ?_⟩
        exact bind_ok.2 ⟨rest, s, ih.2 ⟨hrest, rfl⟩, pure_ok.2 ⟨hfunded, rfl⟩⟩

theorem checkGroupFunded_ok {groupId : ℕ} : checkGroupFunded groupId s = .ok (v, t) ↔
    (∃ g, s.groups groupId = some g ∧
      ∃ funded, g.invoiceIds.mapM (fundedIn s) = some funded ∧ groupFunded g.mode funded = true) ∧
      s = t := by
  simp only [checkGroupFunded, loadGroup, bind_assoc, get_bind, orPanic_bind, pure_bind]
  constructor
  · rintro ⟨g, hg, h⟩
    obtain ⟨funded, u, hmembers, h⟩ := bind_ok.1 h
    obtain ⟨hfunded, rfl⟩ := mapM_memberFunded_ok.1 hmembers
    obtain ⟨henough, hsame⟩ := require_ok.1 h
    have hmode : groupMode s groupId = g.mode := by rw [groupMode, hg, Option.map_some, Option.getD_some]
    rw [hmode] at henough
    exact ⟨⟨g, hg, funded, hfunded, henough⟩, hsame⟩
  · rintro ⟨⟨g, hg, funded, hfunded, henough⟩, rfl⟩
    have hmode : groupMode s groupId = g.mode := by rw [groupMode, hg, Option.map_some, Option.getD_some]
    refine ⟨g, hg, bind_ok.2 ⟨funded, s, mapM_memberFunded_ok.2 ⟨hfunded, rfl⟩, ?_⟩⟩
    rw [hmode]
    exact require_ok.2 ⟨henough, rfl⟩

theorem checkGroup_bind : (checkGroup id >>= k) s = .ok r ↔ GroupOpen s id ∧ k () s = .ok r := by
  simp only [checkGroup, bind_assoc, getEntry_bind]
  unfold GroupOpen
  cases (s.entries id).group with
  | none => simp
  | some groupId =>
      simp only [Option.toList_some, List.forM_cons, List.forM_nil, bind_assoc, pure_bind]
      constructor
      · intro h
        obtain ⟨_, u, hgroup, h⟩ := bind_ok.1 h
        obtain ⟨hopen, rfl⟩ := checkGroupFunded_ok.1 hgroup
        refine ⟨fun other hother => ?_, h⟩
        cases hother
        exact hopen
      · rintro ⟨hopen, h⟩
        exact bind_ok.2 ⟨(), s, checkGroupFunded_ok.2 ⟨hopen groupId rfl, rfl⟩, h⟩

theorem checkCosigners_bind : (checkCosigners id inv >>= k) s = .ok r ↔
    (inv.coSigners = [] ∨ inv.requiredSignatures ≤ inv.signatures.length) ∧
      thresholdMet (s.entries id) ∧ k () s = .ok r := by
  simp only [checkCosigners, bind_assoc, getEntry_bind, require_bind]

end Checks

/-- The checks of a release pass when the shared gates and those of its own are open. -/
theorem reachesRelease_iff (hload : (s.entries id).load = some inv)
    (hpreimage : RightPreimage env inv preimage) :
    ReachesRelease env id preimage s ↔ SharedGates env s id inv ∧ ReleaseOpen env s id inv := by
  have hlock : ∀ {x : SplitM Invoice} {r : Invoice × Store},
      (acquireLock >>= fun _ => x) s = .ok r ↔ s.reLock = false ∧ x (s.withLock true) = .ok r := by
    intro x r
    rw [bind_ok]
    constructor
    · rintro ⟨_, u, hacquire, h⟩
      obtain ⟨hfree, rfl⟩ := acquireLock_ok.1 hacquire
      exact ⟨hfree, h⟩
    · rintro ⟨hfree, h⟩
      exact ⟨(), _, acquireLock_ok.2 ⟨hfree, rfl⟩, h⟩
  unfold ReachesRelease
  simp only [hlock, releaseChecks, requireFnNotPaused_bind, requireNotFrozen_bind, loadInvoice_bind,
    checkPreimage_bind, require_bind, checkDispute_bind, ofResult_bind, getEntry_bind,
    checkReleaseDelay_bind, checkApproval_bind, checkPrerequisite_bind, checkGroup_bind,
    checkCosigners_bind, pure_ok, Store.withLock_entries]
  constructor
  · rintro ⟨_, t, hfree, hrunning, hunfrozen, stored, hstored, -, hfrozen, hadmin, -, hstatus, hheld,
      hdispute, required, hrequired, paid, hpaid, hfunded, hdelay, happroval, hprereq, hgroup, hsigners,
      hthreshold, -⟩
    rw [hload] at hstored
    cases hstored
    exact ⟨⟨hfrozen, hadmin, hheld, hdispute, hdelay, happroval, hprereq, hsigners, hthreshold⟩,
      ⟨hfree, hrunning, hunfrozen, hstatus, ⟨required, paid, hrequired, hpaid, hfunded⟩, hgroup⟩⟩
  · rintro ⟨hshared, hopen⟩
    obtain ⟨required, paid, hrequired, hpaid, hfunded⟩ := hopen.funding
    have hdeleted : inv.status ≠ .deleted := by
      rcases hopen.status with hstatus | hstatus <;> simp [hstatus]
    exact ⟨inv, s.withLock true, hopen.unlocked, hopen.running, hopen.unfrozen, inv, hload, hpreimage,
      hshared.frozen, hshared.adminFrozen, hdeleted, hopen.status, hshared.held, hshared.dispute,
      required, hrequired, paid, hpaid, hfunded, hshared.delay, hshared.approval, hshared.prerequisite,
      hopen.group, hshared.coSigners, hshared.threshold, rfl, rfl⟩

/-- A gate of the view that answers no. -/
theorem gate_ok {c : Prop} [Decidable c] {x : SplitM Bool} :
    (if c then pure false else x) s = .ok (true, t) ↔ ¬c ∧ x s = .ok (true, t) := by
  split_ifs with hc <;> simp [hc]

theorem prerequisiteReleased_bind {x : SplitM Bool} :
    (do let released ← prerequisiteReleased inv
        if released = false then pure false else x) s = .ok (true, t) ↔
      (∀ prereqId ∈ inv.prerequisiteId,
        ∃ prereq, (s.entries prereqId).load = some prereq ∧ prereq.status = .released) ∧
        x s = .ok (true, t) := by
  unfold prerequisiteReleased
  cases inv.prerequisiteId with
  | none => simp
  | some prereqId =>
      simp only [bind_assoc, loadInvoice_bind, pure_bind, gate_ok, decide_eq_false_iff_not, not_not]
      constructor
      · rintro ⟨prereq, hload, hstatus, h⟩
        refine ⟨fun other hother => ?_, h⟩
        cases hother
        exact ⟨prereq, hload, hstatus⟩
      · rintro ⟨hmet, h⟩
        obtain ⟨prereq, hload, hstatus⟩ := hmet prereqId rfl
        exact ⟨prereq, hload, hstatus, h⟩

/-- The view answers yes when the shared gates are open and it is content with status and funding. -/
theorem isInvoiceReleasable_iff (hload : (s.entries id).load = some inv) :
    isInvoiceReleasable env id s = .ok (true, s) ↔ SharedGates env s id inv ∧ ViewOpen inv := by
  simp only [isInvoiceReleasable, loadInvoice_bind, gate_ok, getEntry_bind, ofResult_bind,
    prerequisiteReleased_bind, pure_ok, decide_eq_true_eq, not_or, not_lt, ne_eq, Bool.not_eq_true,
    Bool.not_eq_false, not_not, and_true]
  constructor
  · rintro ⟨stored, hstored, ⟨hfrozen, hadmin⟩, hpending, hdispute, hheld, required, hrequired, hfunded,
      hdelay, happroval, hprereq, hsigners, hthreshold⟩
    rw [hload] at hstored
    cases hstored
    refine ⟨⟨hfrozen, hadmin, hheld, hdispute, hdelay, ?_, hprereq, ?_, hthreshold⟩, hpending, required,
      hrequired, hfunded⟩
    · cases happrover : inv.approver with
      | none => exact .inl rfl
      | some approver => exact .inr (by simpa [happrover] using happroval)
    · by_cases hnone : inv.coSigners = []
      · exact .inl hnone
      · exact .inr (not_lt.1 fun hless => hsigners ⟨hnone, hless⟩)
  · rintro ⟨hshared, hpending, required, hrequired, hfunded⟩
    refine ⟨inv, hload, ⟨hshared.frozen, hshared.adminFrozen⟩, hpending, hshared.dispute, hshared.held,
      required, hrequired, hfunded, hshared.delay, ?_, hshared.prerequisite, ?_, hshared.threshold⟩
    · rintro ⟨hsome, hnot⟩
      rcases hshared.approval with hnone | happroved
      · rw [Option.isNone_iff_eq_none] at hnone
        simp [hnone] at hsome
      · simp [happroved] at hnot
    · rintro ⟨hsome, hless⟩
      rcases hshared.coSigners with hnone | henough
      · exact hsome hnone
      · exact absurd hless (not_lt.2 henough)

/-! ## Where they differ -/

/-- The release goes on where the view says no: the invoice is partially released, or it lacks what
single recipients were paid already. -/
def ReleasesMore (env : Env) (s : Store) (id : ℕ) (inv : Invoice) : Prop :=
  ReleaseOpen env s id inv ∧ (inv.status = .partiallyReleased ∨
    ∃ required, minRequired inv = .ok required ∧ inv.funded < required)

/-- The view says yes where the release is held back: by a switch of the contract, by the group, or
since what single recipients were paid adds to the minimum. -/
def ReleasesLess (env : Env) (s : Store) (id : ℕ) (inv : Invoice) : Prop :=
  ViewOpen inv ∧ (s.reLock = true ∨ ¬FnRunning env "release" ∨ env.config.upgradeFrozen = true ∨
    ¬GroupOpen s id ∨ ∀ required paid, minRequired inv = .ok required →
      alreadyPaidAmount inv (s.entries id).paidRecipients = .ok paid →
      inv.funded < satSubI128 required paid)

theorem releasesMore_iff :
    ReleasesMore env s id inv ↔ ReleaseOpen env s id inv ∧ ¬ViewOpen inv := by
  unfold ReleasesMore ViewOpen
  refine and_congr_right fun hopen => ?_
  obtain ⟨required, paid, hrequired, -, -⟩ := hopen.funding
  constructor
  · rintro (hstatus | ⟨other, hother, hless⟩) ⟨hpending, least, hleast, hfunded⟩
    · rw [hstatus] at hpending
      cases hpending
    · rw [hleast] at hother
      cases hother
      exact absurd hless (not_lt.2 hfunded)
  · intro hnot
    rcases hopen.status with hpending | hpartial
    · refine .inr ⟨required, hrequired, ?_⟩
      by_contra hless
      exact hnot ⟨hpending, required, hrequired, not_lt.1 hless⟩
    · exact .inl hpartial

theorem releasesLess_iff :
    ReleasesLess env s id inv ↔ ViewOpen inv ∧ ¬ReleaseOpen env s id inv := by
  unfold ReleasesLess
  refine and_congr_right fun hview => ?_
  obtain ⟨hpending, required, hrequired, -⟩ := hview
  constructor
  · rintro (hlocked | hstopped | hfrozen | hgroup | hless) hopen
    · rw [hopen.unlocked] at hlocked
      cases hlocked
    · exact hstopped hopen.running
    · rw [hopen.unfrozen.2] at hfrozen
      cases hfrozen
    · exact hgroup hopen.group
    · obtain ⟨least, paid, hleast, hpaid, hfunded⟩ := hopen.funding
      exact absurd (hless least paid hleast hpaid) (not_lt.2 hfunded)
  · intro hnot
    by_contra hnone
    simp only [not_or, Bool.not_eq_true, not_not, not_forall, not_lt] at hnone
    obtain ⟨hfree, hrunning, hunfrozen, hgroup, least, paid, hleast, hpaid, hfunded⟩ := hnone
    exact hnot ⟨hfree, hrunning, ⟨hrunning.1, hunfrozen⟩, .inl hpending,
      ⟨least, paid, hleast, hpaid, hfunded⟩, hgroup⟩

/-- The view agrees with the release exactly when one of the gates they share is closed or neither
of the two goes further than the other. -/
theorem view_agrees_iff (hload : (s.entries id).load = some inv)
    (hpreimage : RightPreimage env inv preimage) :
    (isInvoiceReleasable env id s = .ok (true, s) ↔ ReachesRelease env id preimage s) ↔
      (SharedGates env s id inv → ¬ReleasesMore env s id inv ∧ ¬ReleasesLess env s id inv) := by
  rw [isInvoiceReleasable_iff hload, reachesRelease_iff hload hpreimage, releasesMore_iff,
    releasesLess_iff]
  tauto

/-- Fully paid, and without a gate. -/
def paidStore : Store :=
  sampleStore { sampleInvoice with funded := 100 } [{ payer := 7, amount := 100 }]

theorem view_agrees_on_paidStore :
    isInvoiceReleasable (sampleEnv 10 100) 1 paidStore = .ok (true, paidStore) ↔
      ReachesRelease (sampleEnv 10 100) 1 none paidStore := by
  have hload : (paidStore.entries 1).load =
      some { sampleInvoice with funded := 100, payments := [{ payer := 7, amount := 100 }] } := rfl
  refine (view_agrees_iff hload ?_).2 fun _ => ⟨?_, ?_⟩
  · intro expected hexpected
    cases hexpected
  · rintro ⟨-, hstatus | ⟨required, hrequired, hless⟩⟩
    · cases hstatus
    · cases hrequired
      revert hless
      decide
  · rintro ⟨-, hlocked | hstopped | hfrozen | hgroup | hless⟩
    · cases hlocked
    · exact hstopped (by unfold FnRunning; decide)
    · cases hfrozen
    · exact hgroup fun groupId hmem => by cases hmem
    · have hshort := hless 100 0 rfl rfl
      revert hshort
      decide

/-- After a release that could not pay recipient 11. -/
def retryStore : Store := commit (releaseInvoice (refusingEnv 10 100 11) 1 none) paidStore

/-- The failed payout can be tried again by a release, and the view says that it cannot. -/
theorem retry_denied_by_view :
    (retryStore.entries 1).invoice.map Invoice.status = some .partiallyReleased ∧
      ¬(isInvoiceReleasable (sampleEnv 11 100) 1 retryStore = .ok (true, retryStore) ↔
        ReachesRelease (sampleEnv 11 100) 1 none retryStore) := by
  refine ⟨by decide +kernel, fun hagree => ?_⟩
  have hview : (isInvoiceReleasable (sampleEnv 11 100) 1 retryStore).toOption.map Prod.fst =
      some false := by decide +kernel
  have hchecks : ((do acquireLock; releaseChecks (sampleEnv 11 100) 1 none) retryStore).isOk = true := by
    decide +kernel
  obtain ⟨r, hrun⟩ := isOk_iff.1 hchecks
  have hreach : ReachesRelease (sampleEnv 11 100) 1 none retryStore := ⟨r.1, r.2, hrun⟩
  rw [hagree.2 hreach] at hview
  cases hview

end StellarSplit.Split
