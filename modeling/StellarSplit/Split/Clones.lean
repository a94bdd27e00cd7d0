import Mathlib.Data.List.Perm.Subperm
import StellarSplit.Split.Alignment

/-!
# Clones carry no money

A clone starts unfunded, and the lists beside its recipients are selected with
them. What it carries over from the source beside that (the bonus pool, the
insurance fund and the bids) the contract has received once, for the source.
-/

namespace StellarSplit.Split

open Exec Function Machine

variable {env : Env} {s t : Store} {id sourceId : ℕ} {source : Invoice} {creator : Address}
  {overrides : CloneOverrides} {selection : Option (List ℕ)} {α : Type}

/-! ## A fresh clone -/

/-- The money an invoice says the contract holds for it. -/
def Invoice.carried (inv : Invoice) : ℤ :=
  inv.funded + inv.bonusPool + inv.insuranceFund + (inv.bids.map Bid.amount).sum

/-- What the contract has received in a token between two states. -/
def received (tok : Address) (s t : Store) : ℤ :=
  tally (fun m => m.dst = currentContract ∧ m.token = tok) t.log -
    tally (fun m => m.dst = currentContract ∧ m.token = tok) s.log

/-- The place in the source of the entry `k` of a clone. -/
def origin (selection : Option (List ℕ)) (k : ℕ) : Option ℕ :=
  match selection with
  | some indices => indices[k]?
  | none => some k

/-- A list beside the recipients of a clone is empty or has the selected entry for each. -/
def Selected (selection : Option (List ℕ)) (n : ℕ) (src dst : List α) : Prop :=
  dst = [] ∨ dst.length = n ∧ ∀ k < n, ∃ i ∈ origin selection k, dst[k]? = src[i]?

/-- The lists of an invoice pass the checks of creation on them. -/
structure PassesCreation (inv : Invoice) : Prop where
  priorities : inv.priorities = [] ∨ inv.priorities.length = inv.recipients.length
  maxPayouts : inv.recipientMaxPayouts = [] ∨ inv.recipientMaxPayouts.length = inv.recipients.length
  splitRules : inv.splitRules = [] ∨ validateSplitRules inv.splitRules inv.amounts.length = .ok ()
  ratios : inv.ratios = [] ∨ validateRatios inv.ratios (max inv.ratioDenominator 1) = .ok ()

/-- A fresh invoice that carries no money but what `inflow` brought. -/
structure FreshClone (selection : Option (List ℕ)) (source clone : Invoice) (inflow : ℤ) : Prop where
  status : clone.status = .pending
  unfunded : clone.funded = 0
  backed : clone.carried ≤ inflow
  swapTokens : Selected selection clone.recipients.length source.swapTokens clone.swapTokens
  splitRules : Selected selection clone.recipients.length source.splitRules clone.splitRules
  priorities : Selected selection clone.recipients.length source.priorities clone.priorities
  maxPayouts :
    Selected selection clone.recipients.length source.recipientMaxPayouts clone.recipientMaxPayouts
  ratios : Selected selection clone.recipients.length source.ratios clone.ratios
  checks : PassesCreation clone

/-! ## What a clone asks of its source -/

/-- A list of the source that has not one entry for each of its recipients, but one for each
recipient of the clone, is copied as it is: the entries have to be the selected ones by chance. -/
def FitsSelection (selection : Option (List ℕ)) (sourceLen newLen : ℕ) (src : List α) : Prop :=
  ∀ indices, selection = some indices → src.length ≠ sourceLen → src.length = newLen →
    ∀ k < newLen, ∃ i ∈ indices[k]?, src[k]? = src[i]?

/-- The source carries no money, and its lists stay valid in the clone. -/
structure CloneSafe (s : Store) (sourceId : ℕ) (source : Invoice) (overrides : CloneOverrides)
    (selection : Option (List ℕ)) : Prop where
  known : sourceId ≠ s.counter + 1
  money : source.bonusPool + source.insuranceFund + (source.bids.map Bid.amount).sum ≤ 0
  swapTokens : FitsSelection selection source.recipients.length
    (cloneRecipients source overrides selection).length source.swapTokens
  splitRules : FitsSelection selection source.recipients.length
    (cloneRecipients source overrides selection).length source.splitRules
  priorities : FitsSelection selection source.recipients.length
    (cloneRecipients source overrides selection).length source.priorities
  maxPayouts : FitsSelection selection source.recipients.length
    (cloneRecipients source overrides selection).length source.recipientMaxPayouts
  rules : cloneVector selection source.recipients.length
        (cloneRecipients source overrides selection).length source.splitRules = [] ∨
    validateSplitRules (cloneVector selection source.recipients.length
        (cloneRecipients source overrides selection).length source.splitRules)
      (cloneRecipients source overrides selection).length = .ok ()
  shares : selection = none →
    source.ratios.length = (cloneRecipients source overrides selection).length →
      source.ratios = [] ∨ validateRatios source.ratios (max source.ratioDenominator 1) = .ok ()

/-! ## The lists of a clone -/

theorem selectByIndices_getElem? {src : List α} {indices : List ℕ} (h : ∀ i ∈ indices, i < src.length)
    {k : ℕ} (hk : k < indices.length) :
    ∃ i ∈ indices[k]?, (selectByIndices src indices)[k]? = src[i]? := by
  induction indices generalizing k with
  | nil => exact absurd hk (by simp)
  | cons i indices ih =>
      have hi : i < src.length := h i (by simp)
      have hselect : selectByIndices src (i :: indices) = src.get ⟨i, hi⟩ :: selectByIndices src indices := by
        unfold selectByIndices
        rw [List.filterMap_cons_some (List.getElem?_eq_getElem hi)]
        rfl
      rw [hselect]
      cases k with
      | zero => exact ⟨i, by simp, by simp [hi]⟩
      | succ k =>
          have hrest := ih (fun j hj => h j (List.mem_cons_of_mem i hj)) (Nat.lt_of_succ_lt_succ hk)
          simpa only [List.getElem?_cons_succ] using hrest

/-- A list of the clone is the selected one exactly when it fits. -/
theorem cloneVector_selected_iff {src : List α} {sourceLen newLen : ℕ} (hnew : 0 < newLen)
    (hindices : ∀ indices, selection = some indices →
      newLen = indices.length ∧ ∀ i ∈ indices, i < sourceLen) :
    Selected selection newLen src (cloneVector selection sourceLen newLen src) ↔
      FitsSelection selection sourceLen newLen src := by
  cases selection with
  | none =>
      refine ⟨fun _ indices h => (by cases h), fun _ => ?_⟩
      unfold cloneVector
      dsimp only
      split_ifs with hlen
      · exact .inr ⟨hlen, fun k _ => ⟨k, rfl, rfl⟩⟩
      · exact .inl rfl
  | some indices =>
      obtain ⟨hcount, hrange⟩ := hindices indices rfl
      unfold cloneVector
      dsimp only
      split_ifs with hsource hlen
      · refine ⟨fun _ indices' h hne => absurd hsource hne, fun _ => .inr ⟨?_, fun k hk => ?_⟩⟩
        · rw [selectByIndices_length (hsource ▸ hrange), hcount]
        · exact selectByIndices_getElem? (hsource ▸ hrange) (hcount ▸ hk)
      · constructor
        · rintro (hnil | ⟨-, hselected⟩) indices' h _ _
          · rw [hnil] at hlen
            exact absurd hlen.symm hnew.ne'
          · cases h
            exact hselected
        · exact fun hfits => .inr ⟨hlen, hfits indices rfl hsource hlen⟩
      · exact ⟨fun _ _ _ _ h => absurd h hlen, fun _ => .inl rfl⟩

theorem cloneRatios_selected {src : List α} {newLen : ℕ} :
    Selected selection newLen src (cloneRatios selection newLen src) := by
  unfold cloneRatios
  split_ifs with h
  · obtain ⟨hnone, hlen⟩ := h
    obtain rfl := Option.isNone_iff_eq_none.1 hnone
    exact .inr ⟨hlen, fun k _ => ⟨k, rfl, rfl⟩⟩
  · exact .inl rfl

/-! ## Cloning -/

/-- `clone_invoice`, or `clone_invoice_partial` with the indices of a selection. -/
def cloneBy (env : Env) (creator : Address) (sourceId : ℕ) (overrides : CloneOverrides) :
    Option (List ℕ) → SplitM ℕ
  | none => cloneInvoice env creator sourceId overrides
  | some indices => cloneInvoicePartial env creator sourceId indices overrides

theorem cloneBy_impl (hrun : cloneBy env creator sourceId overrides selection s = .ok (id, t)) :
    cloneInvoiceImpl env creator sourceId overrides selection s = .ok (id, t) := by
  cases selection with
  | none => exact hrun
  | some indices => exact (require_bind.1 hrun).2

theorem cloneInvoiceImpl_log
    (hrun : cloneInvoiceImpl env creator sourceId overrides selection s = .ok (id, t)) :
    t.log = s.log := by
  have hindices : ∀ n, Framed (Grows fun _ => False) (checkIndices n selection) := by
    intro n
    unfold checkIndices
    infer_instance
  have hnext : Framed (Grows fun _ => False) nextId := by
    refine .of fun s n t hrun => ?_
    obtain ⟨-, rfl⟩ := nextId_ok hrun
    exact .of_log rfl
  have hledger : ∀ n, Framed (Grows fun _ => False) (setCreatedLedger env n) :=
    fun _ => framed_note fun _ => rfl
  have hframed : Framed (Grows fun _ => False)
      (cloneInvoiceImpl env creator sourceId overrides selection) := by
    unfold cloneInvoiceImpl validateClonedState
    infer_instance
  obtain ⟨new, hlog, hnone⟩ := hframed.respects s id t hrun
  cases new with
  | nil => exact hlog
  | cons m new => exact (hnone m (by simp)).elim

theorem cloneRecipients_length (hrange : ∀ indices, selection = some indices →
      ∀ i ∈ indices, i < source.recipients.length) (indices : List ℕ) (h : selection = some indices) :
    (cloneRecipients source overrides selection).length = indices.length := by
  subst h
  exact selectByIndices_length (hrange indices rfl)

/-- The clone of an invoice is fresh, and its source left alone, if and only if the source carries
no money and its lists stay valid. -/
theorem clone_fresh_iff (hload : (s.entries sourceId).load = some source)
    (hrun : cloneBy env creator sourceId overrides selection s = .ok (id, t)) :
    ((∃ clone, (t.entries id).invoice = some clone ∧
          FreshClone selection source clone (received source.fundingToken s t)) ∧
        t.entries sourceId = s.entries sourceId) ↔
      CloneSafe s sourceId source overrides selection := by
  have hlog := cloneInvoiceImpl_log (cloneBy_impl hrun)
  obtain ⟨source', token, deadline, overflow, hload', hindices, hsome, hlen, -, hstored⟩ :=
    cloneInvoiceImpl_ok (cloneBy_impl hrun)
  obtain rfl : source' = source := Option.some.inj (hload'.symm.trans hload)
  have hinflow : received source'.fundingToken s t = 0 := by
    unfold received
    rw [hlog, sub_self]
  have hnew : 0 < (cloneRecipients source' overrides selection).length := List.length_pos_iff.2 hsome
  have hfits : ∀ {β : Type} (src : List β), Selected selection
      (cloneRecipients source' overrides selection).length src
      (cloneVector selection source'.recipients.length
        (cloneRecipients source' overrides selection).length src) ↔
      FitsSelection selection source'.recipients.length
        (cloneRecipients source' overrides selection).length src :=
    fun src => cloneVector_selected_iff hnew fun indices h =>
      ⟨cloneRecipients_length hindices indices h, hindices indices h⟩
  constructor
  · rintro ⟨⟨clone, hclone, hfresh⟩, hsame⟩
    obtain rfl := Option.some.inj (hclone.symm.trans hstored.invoice)
    rw [hinflow] at hfresh
    refine ⟨?_, ?_, (hfits _).1 hfresh.swapTokens, (hfits _).1 hfresh.splitRules,
      (hfits _).1 hfresh.priorities, (hfits _).1 hfresh.maxPayouts, ?_, ?_⟩
    · intro hid
      -- the clone would stand in the place of its source, one level deeper
      rw [← hstored.fresh] at hid
      subst hid
      obtain ⟨stored, hinvoice, hsource⟩ := Option.map_eq_some_iff.1 hload
      rw [hsame, hinvoice] at hclone
      have hdepth := congrArg Invoice.cloneDepth (Option.some.inj hclone)
      have hsource' := congrArg Invoice.cloneDepth hsource
      change stored.cloneDepth = source'.cloneDepth + 1 at hdepth
      change stored.cloneDepth = source'.cloneDepth at hsource'
      omega
    · have hcarried := hfresh.backed
      change 0 + source'.bonusPool + source'.insuranceFund + (source'.bids.map Bid.amount).sum ≤ 0
        at hcarried
      linarith
    · have hchecked := hfresh.checks.splitRules
      change _ = [] ∨ validateSplitRules _ (cloneAmounts source' overrides selection).length = .ok ()
        at hchecked
      rw [← hlen] at hchecked
      exact hchecked
    · intro hnone hratios
      have hcopy : cloneRatios selection (cloneRecipients source' overrides selection).length
          source'.ratios = source'.ratios := by
        unfold cloneRatios
        rw [if_pos ⟨Option.isNone_iff_eq_none.2 hnone, hratios⟩]
      have hchecked := hfresh.checks.ratios
      change cloneRatios selection _ source'.ratios = [] ∨
        validateRatios (cloneRatios selection _ source'.ratios) _ = .ok () at hchecked
      rw [hcopy] at hchecked
      exact hchecked
  · intro hsafe
    have hapart : sourceId ≠ id := by
      rw [hstored.fresh]
      exact hsafe.known
    refine ⟨⟨_, hstored.invoice, rfl, rfl, ?_, (hfits _).2 hsafe.swapTokens,
      (hfits _).2 hsafe.splitRules, (hfits _).2 hsafe.priorities, (hfits _).2 hsafe.maxPayouts,
      cloneRatios_selected, ?_⟩, hstored.others sourceId hapart⟩
    · rw [hinflow]
      change 0 + source'.bonusPool + source'.insuranceFund + (source'.bids.map Bid.amount).sum ≤ 0
      linarith [hsafe.money]
    · refine ⟨?_, ?_, ?_, ?_⟩
      · exact ((hfits _).2 hsafe.priorities).imp_right And.left
      · exact ((hfits _).2 hsafe.maxPayouts).imp_right And.left
      · change _ = [] ∨ validateSplitRules _ (cloneAmounts source' overrides selection).length = .ok ()
        rw [← hlen]
        exact hsafe.rules
      · change cloneRatios selection _ source'.ratios = [] ∨
          validateRatios (cloneRatios selection _ source'.ratios) _ = .ok ()
        unfold cloneRatios
        split_ifs with hcopy
        · exact hsafe.shares (Option.isNone_iff_eq_none.1 hcopy.1) hcopy.2
        · exact .inl rfl

/-! ## Sources that creation has checked -/

def SplitRule.percent : SplitRule → ℕ
  | .percentage bps => bps
  | _ => 0

def SplitRule.Valid : SplitRule → Prop
  | .fixed amount => 0 < amount
  | .percentage bps => bps ≤ 10000
  | .tiered threshold bps => 0 ≤ threshold ∧ bps ≤ 10000

theorem validateSplitRule_ok {rule : SplitRule} {total n : ℕ} (h : validateSplitRule total rule = .ok n) :
    rule.Valid ∧ n = total + rule.percent := by
  cases rule with
  | fixed amount =>
      simp only [validateSplitRule] at h
      split_ifs at h with hpositive
      cases h
      exact ⟨hpositive, rfl⟩
  | percentage bps =>
      simp only [validateSplitRule, checkedAddU32] at h
      by_cases hbps : bps ≤ 10000
      · by_cases hword : total + bps ≤ u32Max
        · rw [if_pos hbps, if_pos hword] at h
          cases h
          exact ⟨hbps, rfl⟩
        · rw [if_pos hbps, if_neg hword] at h
          cases h
      · rw [if_neg hbps] at h
        cases h
  | tiered threshold bps =>
      simp only [validateSplitRule] at h
      split_ifs at h with hneg hbps
      cases h
      exact ⟨⟨not_lt.1 hneg, hbps⟩, rfl⟩

theorem validateSplitRule_of_valid {rule : SplitRule} {total : ℕ} (h : rule.Valid)
    (hfits : total + rule.percent ≤ 10000) :
    validateSplitRule total rule = .ok (total + rule.percent) := by
  cases rule with
  | fixed amount => exact if_pos h
  | percentage bps =>
      have hbps : bps ≤ 10000 := h
      have hword : total + bps ≤ u32Max := le_trans hfits (by decide)
      simp only [validateSplitRule, checkedAddU32]
      rw [if_pos hbps, if_pos hword]
      rfl
  | tiered threshold bps =>
      simp only [validateSplitRule]
      rw [if_neg (not_lt.2 h.1), if_pos h.2]
      rfl

theorem validateSplitRules_fold {rules : List SplitRule} {total n : ℕ}
    (h : rules.foldlM validateSplitRule total = .ok n) :
    (∀ rule ∈ rules, rule.Valid) ∧ n = total + (rules.map SplitRule.percent).sum := by
  induction rules generalizing total with
  | nil =>
      cases h
      exact ⟨by simp, by simp⟩
  | cons rule rules ih =>
      rw [List.foldlM_cons] at h
      obtain ⟨sum, hrule, h⟩ := except_bind_ok.1 h
      obtain ⟨hvalid, rfl⟩ := validateSplitRule_ok hrule
      obtain ⟨hrest, rfl⟩ := ih h
      refine ⟨?_, by rw [List.map_cons, List.sum_cons, add_assoc]⟩
      intro r hr
      rcases List.mem_cons.1 hr with rfl | hr
      · exact hvalid
      · exact hrest r hr

theorem validateSplitRules_of_valid {rules : List SplitRule} {total : ℕ}
    (hvalid : ∀ rule ∈ rules, rule.Valid)
    (hfits : total + (rules.map SplitRule.percent).sum ≤ 10000) :
    rules.foldlM validateSplitRule total = .ok (total + (rules.map SplitRule.percent).sum) := by
  induction rules generalizing total with
  | nil => rfl
  | cons rule rules ih =>
      rw [List.map_cons, List.sum_cons, ← add_assoc] at hfits ⊢
      have hrule : validateSplitRule total rule = .ok (total + rule.percent) :=
        validateSplitRule_of_valid (hvalid rule (by simp)) (le_trans (Nat.le_add_right _ _) hfits)
      rw [List.foldlM_cons, hrule]
      exact ih (fun r hr => hvalid r (List.mem_cons_of_mem rule hr)) hfits

theorem range_filterMap_getElem? (src : List α) : (List.range src.length).filterMap (src[·]?) = src := by
  induction src with
  | nil => rfl
  | cons a src ih =>
      have hfirst : (a :: src)[0]? = some a := rfl
      rw [List.length_cons, List.range_succ_eq_map, List.filterMap_cons_some hfirst, List.filterMap_map]
      exact congrArg (a :: ·) ih

/-- What distinct indices select adds up to no more than the whole. -/
theorem sum_selectByIndices_le {src : List α} {indices : List ℕ} (hnodup : indices.Nodup)
    (h : ∀ i ∈ indices, i < src.length) (f : α → ℕ) :
    ((selectByIndices src indices).map f).sum ≤ (src.map f).sum := by
  have hsub : indices.Subperm (List.range src.length) :=
    List.Nodup.subperm hnodup fun i hi => List.mem_range.2 (h i hi)
  obtain ⟨l, hperm, hsublist⟩ := hsub
  have hselect := hsublist.filterMap (src[·]?)
  rw [range_filterMap_getElem?] at hselect
  unfold selectByIndices
  calc ((indices.filterMap (src[·]?)).map f).sum
      = ((l.filterMap (src[·]?)).map f).sum := ((hperm.symm.filterMap _).map f).sum_eq
    _ ≤ (src.map f).sum := (hselect.map f).sum_le_sum fun _ _ => Nat.zero_le _

theorem mem_of_mem_selectByIndices {src : List α} {indices : List ℕ} {a : α}
    (h : a ∈ selectByIndices src indices) : a ∈ src := by
  obtain ⟨i, -, hi⟩ := List.mem_filterMap.1 h
  exact List.mem_of_getElem? hi

/-- Rules that passed creation pass it again when some of them are selected. -/
theorem validateSplitRules_select {rules : List SplitRule} {indices : List ℕ} {n : ℕ}
    (hnodup : indices.Nodup) (hrange : ∀ i ∈ indices, i < rules.length)
    (h : validateSplitRules rules n = .ok ()) :
    validateSplitRules (selectByIndices rules indices) indices.length = .ok () := by
  unfold validateSplitRules at h ⊢
  split_ifs at h with hcount
  obtain ⟨total, hfold, htotal⟩ := except_bind_ok.1 h
  split_ifs at htotal with hfits
  obtain ⟨hvalid, rfl⟩ := validateSplitRules_fold hfold
  have hsum := sum_selectByIndices_le hnodup hrange SplitRule.percent
  have hselected : (selectByIndices rules indices).foldlM validateSplitRule 0 =
      .ok (0 + ((selectByIndices rules indices).map SplitRule.percent).sum) :=
    validateSplitRules_of_valid (fun r hr => hvalid r (mem_of_mem_selectByIndices hr)) (by omega)
  rw [if_neg (not_not.2 (selectByIndices_length hrange)), hselected]
  exact if_pos (by omega)

/-- An invoice whose lists passed creation and that carries no money can be cloned. -/
theorem CloneSafe.of_created {indices : List ℕ} (hknown : sourceId ≤ s.counter)
    (hmoney : source.bonusPool + source.insuranceFund + (source.bids.map Bid.amount).sum ≤ 0)
    (hnodup : indices.Nodup) (hrange : ∀ i ∈ indices, i < source.recipients.length)
    (hswap : source.swapTokens = [] ∨ source.swapTokens.length = source.recipients.length)
    (hcounts : source.amounts.length = source.recipients.length) (hpasses : PassesCreation source) :
    CloneSafe s sourceId source overrides (some indices) := by
  have hfits : ∀ {β : Type} (src : List β), src = [] ∨ src.length = source.recipients.length →
      FitsSelection (some indices) source.recipients.length
        (cloneRecipients source overrides (some indices)).length src := by
    rintro β src (rfl | hlen) indices' _ hne hnew k hk
    · rw [← hnew] at hk
      exact absurd hk (Nat.not_lt_zero k)
    · exact absurd hlen hne
  have hrules : source.splitRules = [] ∨ source.splitRules.length = source.recipients.length := by
    rcases hpasses.splitRules with hnil | hvalid
    · exact .inl hnil
    · unfold validateSplitRules at hvalid
      split_ifs at hvalid with hcount
      exact .inr ((not_not.1 hcount).trans hcounts)
  refine ⟨by omega, hmoney, hfits _ hswap, hfits _ hrules, hfits _ hpasses.priorities,
    hfits _ hpasses.maxPayouts, ?_, fun h => by cases h⟩
  have hlength : (cloneRecipients source overrides (some indices)).length = indices.length :=
    selectByIndices_length hrange
  rcases hpasses.splitRules with hnil | hvalid
  · left
    rw [hnil]
    exact List.length_eq_zero_iff.1 (cloneVector_nil _ _ _)
  · rcases hrules with hnil | hcount
    · left
      rw [hnil]
      exact List.length_eq_zero_iff.1 (cloneVector_nil _ _ _)
    · right
      rw [hlength]
      unfold cloneVector
      dsimp only
      rw [if_pos hcount]
      exact validateSplitRules_select hnodup (hcount ▸ hrange) hvalid

/-! ## Two clones -/

/-- Recipient 10 gets 40 and recipient 11 gets 60 percent. -/
def ruledInvoice : Invoice :=
  { sampleInvoice with splitRules := [.percentage 4000, .percentage 6000] }

/-- The clone for the recipients in the other order is fresh. -/
theorem ruled_clone_fresh :
    ∃ t, cloneBy (sampleEnv 10 0) 2 1 {} (some [1, 0]) (sampleStore ruledInvoice []) = .ok (2, t) ∧
      (∃ clone, (t.entries 2).invoice = some clone ∧
        FreshClone (some [1, 0]) (ruledInvoice.withPayments []) clone
          (received 9 (sampleStore ruledInvoice []) t)) ∧
      t.entries 1 = (sampleStore ruledInvoice []).entries 1 := by
  have hload : ((sampleStore ruledInvoice []).entries 1).load = some (ruledInvoice.withPayments []) := rfl
  have hsafe : CloneSafe (sampleStore ruledInvoice []) 1 (ruledInvoice.withPayments []) {}
      (some [1, 0]) := by
    refine .of_created (le_refl 1) (by decide) (by decide) (by decide) (.inl rfl) rfl
      ⟨.inl rfl, .inl rfl, .inr ?_, .inl rfl⟩
    decide +kernel
  obtain ⟨t, hrun⟩ : ∃ t, cloneBy (sampleEnv 10 0) 2 1 {} (some [1, 0]) (sampleStore ruledInvoice []) =
      .ok (2, t) := ⟨_, rfl⟩
  exact ⟨t, hrun, (clone_fresh_iff hload hrun).2 hsafe⟩

/-- The creator has put 25 into the bonus pool of invoice 1; its clone says it holds 25 more. -/
theorem cloned_bonus_pool_unbacked :
    ∃ t clone, cloneBy (sampleEnv 10 25) 2 1 {} none
        (sampleStore { sampleInvoice with bonusPool := 25 } []) = .ok (2, t) ∧
      (t.entries 2).invoice = some clone ∧ clone.carried = 25 ∧
      received 9 (sampleStore { sampleInvoice with bonusPool := 25 } []) t = 0 :=
  ⟨_, _, rfl, rfl, by decide +kernel, by decide +kernel⟩

end StellarSplit.Split
