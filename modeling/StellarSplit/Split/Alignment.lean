import StellarSplit.Split.Creation
import StellarSplit.Split.Lock

/-!
# One entry for each recipient

An invoice keeps ten lists beside its recipients. Creation, clones and
rollovers keep them aligned as long as their own arguments are; a renewal
drops the claims, and adding or removing a recipient leaves six of the lists as
they were. For whom an entry was made is tracked beside the run.
-/

namespace StellarSplit.Split

open Exec Function Machine

variable {env : Env} {s t u : Store} {id : ℕ} {inv : Invoice} {v : Unit}

/-! ## Aligned lists -/

/-- The lists that may be empty. -/
inductive Setting where
  | baseAmounts | swapTokens | splitRules | priorities | ratios | recipientMaxPayouts
deriving DecidableEq

/-- How many entries a list has. -/
def Invoice.size (inv : Invoice) : Setting → ℕ
  | .baseAmounts => inv.baseAmounts.length
  | .swapTokens => inv.swapTokens.length
  | .splitRules => inv.splitRules.length
  | .priorities => inv.priorities.length
  | .ratios => inv.ratios.length
  | .recipientMaxPayouts => inv.recipientMaxPayouts.length

/-- The recipients for whom the entries of a list were made, in order. -/
abbrev Owners := Setting → List Address

structure Aligned (inv : Invoice) (owners : Owners) : Prop where
  amounts : inv.amounts.length = inv.recipients.length
  tokens : inv.tokens.length = inv.recipients.length
  claimed : inv.claimed.length = inv.recipients.length
  settings : ∀ k, inv.size k = 0 ∨ inv.size k = inv.recipients.length ∧ owners k = inv.recipients
  distinct : inv.recipients.Nodup

/-- Every stored invoice is aligned and has a recipient, and its id was handed out. -/
structure AllAligned (s : Store) (owners : ℕ → Owners) : Prop where
  aligned : ∀ id inv, (s.entries id).invoice = some inv → Aligned inv (owners id)
  inhabited : ∀ id inv, (s.entries id).invoice = some inv → inv.recipients ≠ []
  known : ∀ id inv, (s.entries id).invoice = some inv → id ≤ s.counter

variable {owners : ℕ → Owners} {own : Owners}

theorem AllAligned.load (h : AllAligned s owners) (hload : (s.entries id).load = some inv) :
    Aligned inv (owners id) ∧ inv.recipients ≠ [] ∧ id ≤ s.counter := by
  obtain ⟨stored, hstored, rfl⟩ := Option.map_eq_some_iff.1 hload
  have haligned := h.aligned id stored hstored
  exact ⟨⟨haligned.amounts, haligned.tokens, haligned.claimed, haligned.settings,
    haligned.distinct⟩, h.inhabited id stored hstored, h.known id stored hstored⟩

/-- An invoice was written under an id, and nothing else. -/
structure Wrote (id : ℕ) (inv : Invoice) (s t : Store) : Prop where
  others : ∀ j, j ≠ id → t.entries j = s.entries j
  invoice : (t.entries id).invoice = some inv
  known : id ≤ t.counter
  counter : s.counter ≤ t.counter

theorem Stored.wrote (h : Stored id inv s t) : Wrote id inv s t := by
  refine ⟨h.others, h.invoice, ?_, ?_⟩
  · rw [h.fresh, h.counter]
  · rw [h.counter]
    exact Nat.le_succ _

theorem wrote_save (hid : id ≤ s.counter) (hsave : saveInvoice env id inv s = .ok (v, t)) :
    Wrote id (inv.withPayments []) s t := by
  obtain ⟨-, rfl⟩ := saveInvoice_ok.1 hsave
  refine ⟨fun j hj => Store.setEntry_ne s hj _, ?_, hid, le_rfl⟩
  rw [Store.setEntry_self]

theorem AllAligned.wrote (h : AllAligned s owners) (hwrote : Wrote id inv s t)
    (haligned : Aligned inv own) (hsome : inv.recipients ≠ []) :
    AllAligned t (update owners id own) := by
  have hcase : ∀ j inv', (t.entries j).invoice = some inv' →
      (j = id ∧ inv' = inv) ∨ (j ≠ id ∧ (s.entries j).invoice = some inv') := by
    intro j inv' hj
    by_cases hid : j = id
    · subst hid
      rw [hwrote.invoice] at hj
      exact .inl ⟨rfl, (Option.some.inj hj).symm⟩
    · rw [hwrote.others j hid] at hj
      exact .inr ⟨hid, hj⟩
  refine ⟨?_, ?_, ?_⟩ <;> intro j inv' hj
  · rcases hcase j inv' hj with ⟨rfl, rfl⟩ | ⟨hid, hold⟩
    · rw [update_self]
      exact haligned
    · rw [update_of_ne hid]
      exact h.aligned j inv' hold
  · rcases hcase j inv' hj with ⟨rfl, rfl⟩ | ⟨hid, hold⟩
    · exact hsome
    · exact h.inhabited j inv' hold
  · rcases hcase j inv' hj with ⟨rfl, rfl⟩ | ⟨hid, hold⟩
    · exact hwrote.known
    · exact (h.known j inv' hold).trans hwrote.counter

theorem AllAligned.rewrote (h : AllAligned s owners) (hwrote : Wrote id inv s t)
    (haligned : Aligned inv (owners id)) (hsome : inv.recipients ≠ []) : AllAligned t owners := by
  have hnew := h.wrote hwrote haligned hsome
  rw [update_eq_self] at hnew
  exact hnew

/-! ## Creation -/

theorem applyOverfundingPolicy_ok {policy : OverfundingPolicy}
    (hinv : (s.entries id).invoice = some inv) (hpolicy : inv.overfundingPolicy = .cap)
    (hrun : applyOverfundingPolicy env id policy s = .ok (v, t)) :
    t.counter = s.counter ∧ (∀ j, j ≠ id → t.entries j = s.entries j) ∧
      ∃ payments, (t.entries id).invoice =
        some ((inv.withOverfundingPolicy policy).withPayments payments) := by
  rcases onlyIf_ok.1 hrun with ⟨-, hrun⟩ | ⟨hcap, rfl⟩
  · obtain ⟨loaded, hload, hsave⟩ := loadInvoice_bind.1 hrun
    obtain ⟨stored, hstored, rfl⟩ := Option.map_eq_some_iff.1 hload
    rw [hinv] at hstored
    cases hstored
    obtain ⟨-, rfl⟩ := saveInvoice_ok.1 hsave
    refine ⟨rfl, fun j hj => Store.setEntry_ne s hj _, [], ?_⟩
    rw [Store.setEntry_self]
    rfl
  · obtain rfl : policy = .cap := not_ne_iff.1 hcap
    refine ⟨rfl, fun _ _ => rfl, inv.payments, ?_⟩
    rw [hinv, ← hpolicy]
    rfl

/-- The part of a creation that the entry points share. -/
theorem createAndConfigure_ok {draft : Invoice} {policy : OverfundingPolicy} {extras : CreationExtras}
    (hrun : (do
      let id ← createInvoiceInner env draft extras
      applyOverfundingPolicy env id policy
      applyCosignerConfig id extras
      pure id) s = .ok (id, t)) :
    id = s.counter + 1 ∧ Checked draft ∧ draft.payoutTokens.length = draft.recipients.length ∧
      ∃ payments, Wrote id (((draft.created draft.payoutTokens).withOverfundingPolicy
        policy).withPayments payments) s t := by
  obtain ⟨newId, u₁, hinner, hrun⟩ := bind_ok.1 hrun
  obtain ⟨_, u₂, hpolicy, hrun⟩ := bind_ok.1 hrun
  obtain ⟨_, u₃, hcosigners, hrun⟩ := bind_ok.1 hrun
  obtain ⟨rfl, rfl⟩ := pure_ok.1 hrun
  obtain ⟨hchecked, hlen, hstored⟩ := createInvoiceInner_ok hinner
  obtain ⟨hcounter, hothers, payments, hinvoice⟩ :=
    applyOverfundingPolicy_ok hstored.invoice rfl hpolicy
  have hafter := framed_applyCosignerConfig_beside.respects u₂ _ u₃ hcosigners
  have hend : u₃.counter = s.counter + 1 := by
    rw [hafter.counter, hcounter, hstored.counter]
  refine ⟨hstored.fresh, hchecked, hlen, payments, fun j hj => ?_, ?_, ?_, ?_⟩
  · rw [hafter.others j hj, hothers j hj, hstored.others j hj]
  · rw [hafter.invoice]
    exact hinvoice
  · rw [hstored.fresh, hend]
  · rw [hend]
    exact Nat.le_succ _

theorem Wrote.beside (hbefore : Beside id s u) (h : Wrote id inv u t) : Wrote id inv s t := by
  refine ⟨fun j hj => (h.others j hj).trans (hbefore.others j hj), h.invoice, h.known, ?_⟩
  rw [← hbefore.counter]
  exact h.counter

theorem createInvoice_ok {draft : Invoice} {extras : CreationExtras}
    (hrun : createInvoice env draft extras s = .ok (id, t)) :
    id = s.counter + 1 ∧ Checked draft ∧ ∃ tokens payments, tokens = (draft.withTokens []).payoutTokens ∧
      tokens.length = draft.recipients.length ∧
      Wrote id ((((draft.withTokens []).created tokens).withOverfundingPolicy
        draft.overfundingPolicy).withPayments payments) s t := by
  obtain ⟨_, u₁, hcreator, hrun⟩ := bind_ok.1 hrun
  obtain ⟨_, u₂, hratios, hrun⟩ := bind_ok.1 hrun
  obtain ⟨hid, hchecked, hlen, payments, hwrote⟩ := createAndConfigure_ok hrun
  have hbefore : Beside id s u₂ := by
    have hvalid : Framed (Beside id) (onlyIf (draft.ratios ≠ [])
        (ofResult (validateRatios draft.ratios (max draft.ratioDenominator 1)) : SplitM Unit)) :=
      inferInstance
    have h₁ : Beside id s u₁ := framed_checkCreator.respects s _ u₁ hcreator
    exact h₁.trans (hvalid.respects u₁ _ u₂ hratios)
  have hchecked' : Checked draft := ⟨hchecked.amounts, hchecked.recipients, hchecked.priorities,
    hchecked.maxPayouts, hchecked.splitRules⟩
  refine ⟨?_, hchecked', _, payments, rfl, hlen, hwrote.beside hbefore⟩
  rw [hid, hbefore.counter]

/-- A creation whose arguments are aligned stores an aligned invoice. -/
theorem AllAligned.create {draft : Invoice} {extras : CreationExtras} (h : AllAligned s owners)
    (hdistinct : draft.recipients.Nodup)
    (hswap : draft.swapTokens = [] ∨ draft.swapTokens.length = draft.recipients.length)
    (hratios : draft.ratios = [] ∨ draft.ratios.length = draft.recipients.length)
    (hrun : createInvoice env draft extras s = .ok (id, t)) :
    AllAligned t (update owners (s.counter + 1) fun _ => draft.recipients) := by
  obtain ⟨rfl, hchecked, tokens, payments, -, hlen, hwrote⟩ := createInvoice_ok hrun
  have hfits : ∀ {α : Type} {xs : List α}, xs = [] ∨ xs.length = draft.recipients.length →
      xs.length = 0 ∨ xs.length = draft.recipients.length ∧ draft.recipients = draft.recipients := by
    rintro α xs (rfl | hxs)
    · exact .inl rfl
    · exact .inr ⟨hxs, rfl⟩
  refine h.wrote hwrote ⟨hchecked.amounts, hlen, List.length_map _, fun k => ?_, hdistinct⟩
    hchecked.recipients
  cases k with
  | baseAmounts => exact .inr ⟨hchecked.amounts, rfl⟩
  | swapTokens => exact hfits hswap
  | splitRules => exact hfits hchecked.splitRules
  | priorities => exact hfits hchecked.priorities
  | ratios => exact hfits hratios
  | recipientMaxPayouts => exact hfits hchecked.maxPayouts

/-! ## Clones -/

theorem selectByIndices_length {α : Type} {src : List α} {indices : List ℕ}
    (h : ∀ i ∈ indices, i < src.length) : (selectByIndices src indices).length = indices.length := by
  induction indices with
  | nil => rfl
  | cons i indices ih =>
      have hi : i < src.length := h i (by simp)
      have hrest := ih fun j hj => h j (List.mem_cons_of_mem i hj)
      unfold selectByIndices at hrest ⊢
      rw [List.filterMap_cons_some (List.getElem?_eq_getElem hi), List.length_cons, hrest,
        List.length_cons]

/-- The recipients of the clone are those of the source, or the selected ones; otherwise their
number is another. -/
def FollowsSource (selection : Option (List ℕ)) (source recipients : List Address) : Prop :=
  match selection with
  | some indices =>
      recipients = selectByIndices source indices ∧ ∀ i ∈ indices, i < source.length
  | none => recipients = source ∨ recipients.length ≠ source.length

theorem cloneVector_nil {α : Type} (selection : Option (List ℕ)) (n m : ℕ) :
    (cloneVector selection n m ([] : List α)).length = 0 := by
  unfold cloneVector
  split
  · split_ifs
    · simp [selectByIndices]
    · rfl
    · rfl
  · split_ifs <;> rfl

/-- The entries of a clone are those of its recipients. -/
theorem cloneVector_follows {α : Type} {xs : List α} {own source recipients : List Address}
    {selection : Option (List ℕ)}
    (hxs : xs.length = 0 ∨ xs.length = source.length ∧ own = source)
    (hfollows : xs.length = 0 ∨ FollowsSource selection source recipients) :
    (cloneVector selection source.length recipients.length xs).length = 0 ∨
      (cloneVector selection source.length recipients.length xs).length = recipients.length ∧
        cloneVector selection source.length recipients.length own = recipients := by
  rcases hxs with hempty | ⟨hlen, rfl⟩
  · obtain rfl := List.length_eq_zero_iff.1 hempty
    exact .inl (cloneVector_nil _ _ _)
  · rcases hfollows with hempty | hfollows
    · obtain rfl := List.length_eq_zero_iff.1 hempty
      exact .inl (cloneVector_nil _ _ _)
    · cases selection with
      | some indices =>
          obtain ⟨rfl, hrange⟩ := hfollows
          right
          simp only [cloneVector, hlen, ↓reduceIte, and_true]
          rw [selectByIndices_length (hlen ▸ hrange), selectByIndices_length hrange]
      | none =>
          by_cases hsame : own.length = recipients.length
          · right
            have heq : recipients = own := hfollows.resolve_right (fun hne => hne hsame.symm)
            simp [cloneVector, hlen, hsame, heq]
          · left
            simp [cloneVector, hlen, hsame]

theorem cloneRatios_follows {α : Type} {xs : List α} {own source recipients : List Address}
    {selection : Option (List ℕ)}
    (hxs : xs.length = 0 ∨ xs.length = source.length ∧ own = source)
    (hfollows : xs.length = 0 ∨ FollowsSource selection source recipients) :
    (cloneRatios selection recipients.length xs).length = 0 ∨
      (cloneRatios selection recipients.length xs).length = recipients.length ∧
        cloneRatios selection recipients.length own = recipients := by
  cases selection with
  | some indices =>
      left
      simp [cloneRatios]
  | none =>
      have hvector := cloneVector_follows hxs hfollows
      simpa [cloneRatios, cloneVector] using hvector

/-- For whom the entries of a clone were made: they go the way of the entries. -/
def clonedOwners (selection : Option (List ℕ)) (source recipients : List Address)
    (owners : Owners) : Owners
  | .baseAmounts => recipients
  | .ratios => cloneRatios selection recipients.length (owners .ratios)
  | k => cloneVector selection source.length recipients.length (owners k)

theorem checkIndices_ok {n : ℕ} {indices : List ℕ}
    (hrun : checkIndices n (some indices) s = .ok (v, t)) : ∀ i ∈ indices, i < n := by
  simp only [checkIndices, Option.toList_some, List.forM_cons, List.forM_nil] at hrun
  obtain ⟨_, u, hrun, -⟩ := bind_ok.1 hrun
  simp only [require_bind] at hrun
  exact hrun.2.1

theorem cloneInvoiceImpl_ok {creator : Address} {sourceId : ℕ} {overrides : CloneOverrides}
    {selection : Option (List ℕ)}
    (hrun : cloneInvoiceImpl env creator sourceId overrides selection s = .ok (id, t)) :
    ∃ source token deadline overflow, (s.entries sourceId).load = some source ∧
      (∀ indices, selection = some indices → ∀ i ∈ indices, i < source.recipients.length) ∧
      cloneRecipients source overrides selection ≠ [] ∧
      (cloneRecipients source overrides selection).length =
        (cloneAmounts source overrides selection).length ∧
      (cloneRecipients source overrides selection).Nodup ∧
      Stored id (source.cloned sourceId selection (cloneRecipients source overrides selection)
        (cloneAmounts source overrides selection) token deadline overflow) s t := by
  simp only [cloneInvoiceImpl, requireNotPaused_bind, requireAuth_bind, loadInvoice_bind,
    require_bind] at hrun
  obtain ⟨-, -, source, hload, -, -, hrun⟩ := hrun
  obtain ⟨_, u₁, hindices, hrun⟩ := bind_ok.1 hrun
  obtain ⟨_, u₂, hvalid, hrun⟩ := bind_ok.1 hrun
  obtain ⟨overflow, -, hrun⟩ := ofResult_bind.1 hrun
  obtain ⟨token, -, hrun⟩ := orPanic_bind.1 hrun
  obtain ⟨newId, u₃, hnext, hrun⟩ := bind_ok.1 hrun
  obtain ⟨_, u₄, hledger, hrun⟩ := bind_ok.1 hrun
  obtain ⟨_, u₅, hsave, hrun⟩ := bind_ok.1 hrun
  obtain ⟨rfl, rfl⟩ := pure_ok.1 hrun
  have hreads : Framed Eq (checkIndices source.recipients.length selection) := by
    unfold checkIndices
    infer_instance
  obtain rfl : s = u₁ := hreads.respects s _ u₁ hindices
  simp only [validateClonedState, require_bind, require_ok] at hvalid
  obtain ⟨hsome, hlen, -, hdistinct, -, rfl⟩ := hvalid
  obtain ⟨hid, rfl⟩ := nextId_ok hnext
  have hbefore : Beside newId { s with counter := s.counter + 1 } u₄ :=
    framed_setCreatedLedger_beside.respects _ _ u₄ hledger
  refine ⟨source, token, _, overflow, hload, ?_, hsome, hlen, hdistinct, stored_save hid hbefore hsave⟩
  rintro indices rfl
  exact checkIndices_ok hindices

/-- A clone whose recipients follow the source stores an aligned invoice. -/
theorem AllAligned.clone {creator : Address} {sourceId : ℕ} {overrides : CloneOverrides}
    {selection : Option (List ℕ)} {source : Invoice} (h : AllAligned s owners)
    (hload : (s.entries sourceId).load = some source)
    (hfollows : selection = none →
      (∀ k, k ≠ .baseAmounts → source.size k = 0) ∨
      FollowsSource none source.recipients (cloneRecipients source overrides none))
    (hrun : cloneInvoiceImpl env creator sourceId overrides selection s = .ok (id, t)) :
    AllAligned t (update owners (s.counter + 1) (clonedOwners selection source.recipients
      (cloneRecipients source overrides selection) (owners sourceId))) := by
  obtain ⟨source', token, deadline, overflow, hload', hindices, hsome, hlen, hdistinct, hstored⟩ :=
    cloneInvoiceImpl_ok hrun
  rw [hload] at hload'
  cases hload'
  obtain ⟨haligned, -, -⟩ := h.load hload
  obtain rfl := hstored.fresh
  have hcase : ∀ k, k ≠ .baseAmounts → source.size k = 0 ∨ FollowsSource selection source.recipients
      (cloneRecipients source overrides selection) := by
    intro k hk
    cases selection with
    | some indices => exact .inr ⟨rfl, hindices indices rfl⟩
    | none =>
        rcases hfollows rfl with hempty | hfollows
        · exact .inl (hempty k hk)
        · exact .inr hfollows
  refine h.wrote hstored.wrote ⟨hlen.symm, List.length_map _, List.length_map _, fun k => ?_, hdistinct⟩
    hsome
  cases k with
  | baseAmounts => exact .inr ⟨hlen.symm, rfl⟩
  | swapTokens =>
      exact cloneVector_follows (haligned.settings .swapTokens) (hcase .swapTokens (by simp))
  | splitRules =>
      exact cloneVector_follows (haligned.settings .splitRules) (hcase .splitRules (by simp))
  | priorities =>
      exact cloneVector_follows (haligned.settings .priorities) (hcase .priorities (by simp))
  | ratios => exact cloneRatios_follows (haligned.settings .ratios) (hcase .ratios (by simp))
  | recipientMaxPayouts =>
      exact cloneVector_follows (haligned.settings .recipientMaxPayouts)
        (hcase .recipientMaxPayouts (by simp))

/-! ## Rollover and edits -/

/-- The base amounts of a successor are new; the other entries are those of the old invoice. -/
def succeededOwners (recipients : List Address) (owners : Owners) : Owners
  | .baseAmounts => recipients
  | k => owners k

theorem AllAligned.rollover {caller : Address} {newId deadline : ℕ} (h : AllAligned s owners)
    {old : Invoice} (hload : (s.entries id).load = some old)
    (hrun : rolloverInvoice env caller id deadline s = .ok (newId, t)) :
    AllAligned t
      (update owners (s.counter + 1) (succeededOwners old.recipients (owners id))) := by
  obtain ⟨haligned, hsome, hid⟩ := h.load hload
  obtain ⟨old', tokens, hload', -, -, -, hchecked, hlen, hrolled⟩ := rolloverInvoice_ok hid hrun
  rw [hload] at hload'
  cases hload'
  obtain rfl := hrolled.fresh
  have hne : id ≠ s.counter + 1 := by omega
  have hsuccessor : Aligned (((old.rolledOver deadline).created tokens).withFunded old.funded)
      (succeededOwners old.recipients (owners id)) := by
    refine ⟨haligned.amounts, hlen, List.length_map _, fun k => ?_, haligned.distinct⟩
    cases k with
    | baseAmounts => exact .inr ⟨haligned.amounts, rfl⟩
    | swapTokens => exact haligned.settings .swapTokens
    | splitRules => exact haligned.settings .splitRules
    | priorities => exact haligned.settings .priorities
    | ratios => exact haligned.settings .ratios
    | recipientMaxPayouts => exact haligned.settings .recipientMaxPayouts
  -- first the successor, then the old invoice
  obtain ⟨mid, hmid⟩ : ∃ mid : Store, mid =
      ({ s with counter := s.counter + 1 } : Store).setEntry (s.counter + 1)
        (t.entries (s.counter + 1)) := ⟨_, rfl⟩
  have hself : mid.entries (s.counter + 1) = t.entries (s.counter + 1) := by
    rw [hmid, Store.setEntry_self]
  have hothers : ∀ j, j ≠ s.counter + 1 → mid.entries j = s.entries j := by
    intro j hj
    rw [hmid, Store.setEntry_ne _ hj]
  have hcounter : mid.counter = s.counter + 1 := by
    rw [hmid]
    rfl
  have hmiddle : AllAligned mid
      (update owners (s.counter + 1) (succeededOwners old.recipients (owners id))) := by
    refine h.wrote ⟨hothers, ?_, hcounter.ge, ?_⟩ hsuccessor hsome
    · rw [hself, hrolled.successor]
    · rw [hcounter]
      exact Nat.le_succ _
  have hwrote : Wrote id ((old.completed .refunded env.now).withPayments []) mid t := by
    refine ⟨fun j hj => ?_, ?_, ?_, ?_⟩
    · by_cases hj' : j = s.counter + 1
      · rw [hj', hself]
      · rw [hrolled.others j hj hj', hothers j hj']
    · rw [hrolled.old]
    · rw [hrolled.counter]
      exact hid.trans (Nat.le_succ _)
    · rw [hrolled.counter, hcounter]
  refine hmiddle.rewrote hwrote ?_ hsome
  rw [update_of_ne hne]
  exact ⟨haligned.amounts, haligned.tokens, haligned.claimed, haligned.settings, haligned.distinct⟩

theorem rolloverInvoice_load {caller : Address} {newId deadline : ℕ}
    (hrun : rolloverInvoice env caller id deadline s = .ok (newId, t)) :
    ∃ old, (s.entries id).load = some old := by
  simp only [rolloverInvoice, requireNotPaused_bind, requireAuth_bind, loadInvoice_bind] at hrun
  obtain ⟨-, -, old, hload, -⟩ := hrun
  exact ⟨old, hload⟩

theorem adjustSplit_ok {caller : Address} {newAmounts : List ℤ}
    (hrun : adjustSplit env caller id newAmounts s = .ok (v, t)) :
    ∃ inv, (s.entries id).load = some inv ∧ newAmounts.length = inv.recipients.length ∧
      saveInvoice env id (inv.withAmounts newAmounts) s = .ok (v, t) := by
  simp only [adjustSplit, requireNotPaused_bind, requireAuth_bind, loadInvoice_bind,
    require_bind] at hrun
  obtain ⟨-, -, inv, hload, -, -, hrun⟩ := hrun
  obtain ⟨_, u, hauth, hrun⟩ := bind_ok.1 hrun
  have hreads : Framed Eq (authorizeSplit env inv caller) := by
    unfold authorizeSplit
    split <;> infer_instance
  obtain rfl : s = u := hreads.respects s _ u hauth
  simp only [require_bind] at hrun
  obtain ⟨-, hlen, -, hsave⟩ := hrun
  exact ⟨inv, hload, hlen, hsave⟩

theorem AllAligned.adjust {caller : Address} {newAmounts : List ℤ} (h : AllAligned s owners)
    (hrun : adjustSplit env caller id newAmounts s = .ok (v, t)) : AllAligned t owners := by
  obtain ⟨inv, hload, hlen, hsave⟩ := adjustSplit_ok hrun
  obtain ⟨haligned, hsome, hid⟩ := h.load hload
  refine h.rewrote (wrote_save hid hsave) ⟨hlen, haligned.tokens, haligned.claimed, ?_, ?_⟩ hsome
  · exact haligned.settings
  · exact haligned.distinct

/-- The address a recipient has after a rotation. -/
def rotated (oldAddress newAddress r : Address) : Address := if r = oldAddress then newAddress else r

theorem rotated_nodup {oldAddress newAddress : Address} {recipients : List Address}
    (hdistinct : recipients.Nodup) (hnew : newAddress = oldAddress ∨ newAddress ∉ recipients) :
    (recipients.map (rotated oldAddress newAddress)).Nodup := by
  apply List.Nodup.map_on ?_ hdistinct
  intro r hr r' hr' heq
  unfold rotated at heq
  rcases hnew with rfl | hnew
  · split_ifs at heq with h₁ h₂ <;> simp_all
  · split_ifs at heq with h₁ h₂ h₂
    · exact h₁.trans h₂.symm
    · exact absurd (heq ▸ hr') hnew
    · exact absurd (heq ▸ hr) hnew
    · exact heq

theorem rotateRecipientAddress_ok {oldAddress newAddress : Address}
    (hrun : rotateRecipientAddress env id oldAddress newAddress s = .ok (v, t)) :
    ∃ inv, (s.entries id).load = some inv ∧ oldAddress ∈ inv.recipients ∧
      saveInvoice env id (inv.withRotated oldAddress newAddress) s = .ok (v, t) := by
  obtain ⟨_, u, hpaused, hrun⟩ := bind_ok.1 hrun
  have hreads : Framed Eq (checkNotPaused env) := by
    unfold checkNotPaused
    infer_instance
  obtain rfl : s = u := hreads.respects s _ u hpaused
  simp only [requireAuth_bind, loadInvoice_bind, require_bind] at hrun
  obtain ⟨-, inv, hload, -, hmem, hsave⟩ := hrun
  exact ⟨inv, hload, hmem, hsave⟩

theorem AllAligned.rotate {oldAddress newAddress : Address} (h : AllAligned s owners)
    (hload : (s.entries id).load = some inv)
    (hnew : newAddress = oldAddress ∨ newAddress ∉ inv.recipients)
    (hsave : saveInvoice env id (inv.withRotated oldAddress newAddress) s = .ok (v, t)) :
    AllAligned t (update owners id fun k => (owners id k).map (rotated oldAddress newAddress)) := by
  obtain ⟨haligned, hsome, hid⟩ := h.load hload
  have hlen : (inv.recipients.map (rotated oldAddress newAddress)).length = inv.recipients.length :=
    List.length_map _
  refine h.wrote (wrote_save hid hsave) ⟨?_, ?_, ?_, fun k => ?_, ?_⟩ ?_
  · exact haligned.amounts.trans hlen.symm
  · exact haligned.tokens.trans hlen.symm
  · exact haligned.claimed.trans hlen.symm
  · rcases haligned.settings k with hempty | ⟨hsize, howners⟩
    · exact .inl hempty
    · right
      refine ⟨hsize.trans hlen.symm, ?_⟩
      rw [howners]
      rfl
  · exact rotated_nodup haligned.distinct hnew
  · intro hnil
    exact hsome (List.map_eq_nil_iff.1 hnil)

/-! ## Runs -/

/-- The calls that write invoices or change their recipients. -/
inductive AlignOp where
  | create (draft : Invoice) (extras : CreationExtras)
  | clone (creator : Address) (sourceId : ℕ) (overrides : CloneOverrides)
  | clonePartial (creator : Address) (sourceId : ℕ) (indices : List ℕ) (overrides : CloneOverrides)
  | renew (creator : Address) (oldId deadline : ℕ)
  | rollover (caller : Address) (id deadline : ℕ)
  | addRecipient (caller : Address) (id : ℕ) (recipient : Address) (amount : ℤ)
  | rebalance (creator : Address) (id : ℕ) (removeAddress : Address)
  | adjustSplit (caller : Address) (id : ℕ) (newAmounts : List ℤ)
  | rotate (id : ℕ) (oldAddress newAddress : Address)

def alignStep (c : Env × AlignOp) : SplitM Unit :=
  match c.2 with
  | .create draft extras => ignore (createInvoice c.1 draft extras)
  | .clone creator sourceId overrides => ignore (cloneInvoice c.1 creator sourceId overrides)
  | .clonePartial creator sourceId indices overrides =>
      ignore (cloneInvoicePartial c.1 creator sourceId indices overrides)
  | .renew creator oldId deadline => ignore (renewInvoice c.1 creator oldId deadline)
  | .rollover caller id deadline => ignore (rolloverInvoice c.1 caller id deadline)
  | .addRecipient caller id recipient amount => addRecipient c.1 caller id recipient amount
  | .rebalance creator id removeAddress => rebalanceRecipients c.1 creator id removeAddress
  | .adjustSplit caller id newAmounts => adjustSplit c.1 caller id newAmounts
  | .rotate id oldAddress newAddress => rotateRecipientAddress c.1 id oldAddress newAddress

/-- For whom the entries are made in a call that returns: a new invoice takes them from its
recipients or from the invoice it follows, a rotation renames, and no other call moves them. -/
def nextOwners (s : Store) (owners : ℕ → Owners) : AlignOp → ℕ → Owners
  | .create draft _ => update owners (s.counter + 1) fun _ => draft.recipients
  | .clone _ sourceId overrides =>
      match (s.entries sourceId).load with
      | some source => update owners (s.counter + 1) (clonedOwners none source.recipients
          (cloneRecipients source overrides none) (owners sourceId))
      | none => owners
  | .clonePartial _ sourceId indices overrides =>
      match (s.entries sourceId).load with
      | some source => update owners (s.counter + 1) (clonedOwners (some indices) source.recipients
          (cloneRecipients source overrides (some indices)) (owners sourceId))
      | none => owners
  | .renew _ id _ | .rollover _ id _ =>
      match (s.entries id).load with
      | some old => update owners (s.counter + 1) (succeededOwners old.recipients (owners id))
      | none => owners
  | .rotate id oldAddress newAddress =>
      update owners id fun k => (owners id k).map (rotated oldAddress newAddress)
  | .addRecipient _ _ _ _ | .rebalance _ _ _ | .adjustSplit _ _ _ => owners

def ownersAfter : Store → (ℕ → Owners) → List (Env × AlignOp) → ℕ → Owners
  | _, owners, [] => owners
  | s, owners, c :: calls =>
      match alignStep c s with
      | .ok (_, t) => ownersAfter t (nextOwners s owners c.2) calls
      | .error _ => ownersAfter s owners calls

/-- What is asked of a call: creations bring distinct recipients and lists that fit, clones and
rotations do not replace a recipient by another one with the same entries, and nobody renews an
invoice or adds or removes a recipient. -/
def AlignedCall (s : Store) (c : Env × AlignOp) : Prop :=
  match c.2 with
  | .create draft _ => draft.recipients.Nodup ∧
      (draft.swapTokens = [] ∨ draft.swapTokens.length = draft.recipients.length) ∧
      (draft.ratios = [] ∨ draft.ratios.length = draft.recipients.length)
  | .clone _ sourceId overrides => ∀ source, (s.entries sourceId).load = some source →
      (∀ k, k ≠ .baseAmounts → source.size k = 0) ∨
        FollowsSource none source.recipients (cloneRecipients source overrides none)
  | .rotate id oldAddress newAddress => ∀ inv, (s.entries id).load = some inv →
      newAddress = oldAddress ∨ newAddress ∉ inv.recipients
  | .clonePartial _ _ _ _ | .rollover _ _ _ | .adjustSplit _ _ _ => True
  | .renew _ _ _ | .addRecipient _ _ _ _ | .rebalance _ _ _ => False

theorem AllAligned.step {c : Env × AlignOp} (h : AllAligned s owners) (hcall : AlignedCall s c)
    (hrun : alignStep c s = .ok (v, t)) : AllAligned t (nextOwners s owners c.2) := by
  obtain ⟨env, op⟩ := c
  cases op with
  | create draft extras =>
      obtain ⟨id, hrun⟩ := ignore_ok.1 hrun
      obtain ⟨hdistinct, hswap, hratios⟩ := hcall
      exact h.create hdistinct hswap hratios hrun
  | clone creator sourceId overrides =>
      obtain ⟨id, hrun⟩ := ignore_ok.1 hrun
      obtain ⟨source, -, -, -, hload, -⟩ := cloneInvoiceImpl_ok hrun
      simp only [nextOwners, hload]
      exact h.clone hload (fun _ => hcall source hload) hrun
  | clonePartial creator sourceId indices overrides =>
      obtain ⟨id, hrun⟩ := ignore_ok.1 hrun
      obtain ⟨-, hrun⟩ := require_bind.1 hrun
      obtain ⟨source, -, -, -, hload, -⟩ := cloneInvoiceImpl_ok hrun
      simp only [nextOwners, hload]
      exact h.clone hload (fun hnone => by cases hnone) hrun
  | renew creator oldId deadline => exact hcall.elim
  | rollover caller id deadline =>
      obtain ⟨newId, hrun⟩ := ignore_ok.1 hrun
      obtain ⟨old, hload⟩ := rolloverInvoice_load hrun
      simp only [nextOwners, hload]
      exact h.rollover hload hrun
  | addRecipient caller id recipient amount => exact hcall.elim
  | rebalance creator id removeAddress => exact hcall.elim
  | adjustSplit caller id newAmounts => exact h.adjust hrun
  | rotate id oldAddress newAddress =>
      obtain ⟨inv, hload, -, hsave⟩ := rotateRecipientAddress_ok hrun
      exact h.rotate hload (hcall inv hload) hsave

theorem AllAligned.run {calls : List (Env × AlignOp)} (h : AllAligned s owners)
    (hcalls : Along AlignedCall alignStep s calls) :
    AllAligned (runAll alignStep s calls) (ownersAfter s owners calls) := by
  induction calls generalizing s owners with
  | nil => exact h
  | cons c calls ih =>
      obtain ⟨hcall, hrest⟩ := hcalls
      rw [runAll_cons]
      cases hrun : alignStep c s with
      | ok r =>
          have hnext := h.step (hcall ⟨r, hrun⟩) hrun
          simp only [ownersAfter, hrun]
          rw [commit_ok hrun] at hrest ⊢
          exact ih hnext hrest
      | error e =>
          simp only [ownersAfter, hrun]
          rw [commit_error hrun] at hrest ⊢
          exact ih h hrest

/-- In every run from an empty contract whose calls are as asked, every list of every invoice has
one entry for each recipient, made for that recipient, or is one of those that may be empty and
is, and the recipients are distinct. -/
theorem recipients_stay_aligned (owners : ℕ → Owners) {calls : List (Env × AlignOp)}
    (hempty : ∀ id, (s.entries id).invoice = none)
    (hcalls : Along AlignedCall alignStep s calls) {id : ℕ} {inv : Invoice}
    (hinv : ((runAll alignStep s calls).entries id).invoice = some inv) :
    Aligned inv (ownersAfter s owners calls id) := by
  have hfirst : AllAligned s owners := by
    refine ⟨?_, ?_, ?_⟩ <;> intro j inv' hj <;> rw [hempty j] at hj <;> cases hj
  exact (hfirst.run hcalls).aligned id inv hinv

/-- Three recipients with priorities and ratios. -/
def threeWay : Invoice :=
  { sampleInvoice with
    recipients := [10, 11, 12]
    amounts := [50, 50, 20]
    tokens := []
    priorities := [1, 2, 3]
    ratioDenominator := 10000
    ratios := [5000, 3000, 2000] }

/-- An invoice is created, a recipient moves to another address, and two of the recipients are
cloned in the other order. -/
def movedAndCloned : List (Env × AlignOp) :=
  [(sampleEnv 10 0, .create threeWay {}), (sampleEnv 11 0, .rotate 1 11 21),
    (sampleEnv 12 0, .clonePartial 2 1 [2, 1] {})]

theorem moved_and_cloned_aligned :
    ∃ inv, ((runAll alignStep {} movedAndCloned).entries 2).invoice = some inv ∧
      inv.recipients = [12, 21] ∧ inv.priorities = [3, 2] ∧
      Aligned inv (ownersAfter {} (fun _ _ => []) movedAndCloned 2) := by
  have hlists : ((runAll alignStep {} movedAndCloned).entries 2).invoice.map
      (fun inv => (inv.recipients, inv.priorities)) = some ([12, 21], [3, 2]) := by decide +kernel
  have hcreated : ((commit (alignStep (sampleEnv 10 0, .create threeWay {})) {}).entries 1).load.map
      Invoice.recipients = some [10, 11, 12] := by decide +kernel
  obtain ⟨inv, hinv, hpair⟩ := Option.map_eq_some_iff.1 hlists
  have hcalls : Along AlignedCall alignStep {} movedAndCloned := by
    refine ⟨fun _ => ⟨by decide, by decide, by decide⟩, fun _ inv' hload => ?_, fun _ => trivial,
      trivial⟩
    rw [hload] at hcreated
    rw [Option.some.inj hcreated]
    decide
  refine ⟨inv, hinv, congrArg Prod.fst hpair, congrArg Prod.snd hpair, ?_⟩
  exact recipients_stay_aligned _ (fun _ => rfl) hcalls hinv

/-- The recipients and the lengths of the base amounts and the claims decide. -/
theorem exists_not_aligned {o : Option Invoice} (recipients : List Address) (base claimed : ℕ)
    (ho : o.map (fun inv => (inv.recipients, inv.baseAmounts.length, inv.claimed.length)) =
      some (recipients, base, claimed))
    (hbad : ¬(base = 0 ∨ base = recipients.length) ∨ claimed ≠ recipients.length ∨
      ¬recipients.Nodup) : ∃ inv ∈ o, ∀ own, ¬Aligned inv own := by
  obtain ⟨inv, rfl, hinv⟩ := Option.map_eq_some_iff.1 ho
  cases hinv
  refine ⟨inv, rfl, fun own h => ?_⟩
  rcases hbad with hbad | hbad | hbad
  · exact hbad ((h.settings .baseAmounts).imp_right And.left)
  · exact hbad h.claimed
  · exact hbad h.distinct

/-- Base amounts for three of four recipients or for three of two, no claims after a renewal, and
one recipient twice after a rotation. -/
theorem edited_invoices_not_aligned :
    (∃ inv ∈ ((runAll alignStep {} [(sampleEnv 10 0, .create threeWay {}),
      (sampleEnv 11 0, .addRecipient 2 1 13 30)]).entries 1).invoice, ∀ own, ¬Aligned inv own) ∧
    (∃ inv ∈ ((runAll alignStep {} [(sampleEnv 10 0, .create threeWay {}),
      (sampleEnv 11 0, .rebalance 2 1 11)]).entries 1).invoice, ∀ own, ¬Aligned inv own) ∧
    (∃ inv ∈ ((runAll alignStep {} [(sampleEnv 10 0, .create threeWay {}),
      (sampleEnv 1001 0, .renew 2 1 2000)]).entries 2).invoice, ∀ own, ¬Aligned inv own) ∧
    (∃ inv ∈ ((runAll alignStep {} [(sampleEnv 10 0, .create threeWay {}),
      (sampleEnv 11 0, .rotate 1 11 12)]).entries 1).invoice, ∀ own, ¬Aligned inv own) := by
  refine ⟨?_, ?_, ?_, ?_⟩
  · exact exists_not_aligned [10, 11, 12, 13] 3 4 (by decide +kernel) (by decide)
  · exact exists_not_aligned [10, 12] 3 2 (by decide +kernel) (by decide)
  · exact exists_not_aligned [10, 11, 12] 3 0 (by decide +kernel) (by decide)
  · exact exists_not_aligned [10, 12, 12] 3 3 (by decide +kernel) (by decide)

end StellarSplit.Split
