import StellarSplit.Split.Alignment
import StellarSplit.Split.Planning
import StellarSplit.Split.PlainRelease
import StellarSplit.Split.Terms

/-!
# Invoices with ratios

The validator reads the denominator as 32 bits and adds the ratios up to the largest word, and
the release divides by the whole denominator. What it divides is the recipient's own amount.
The invoices whose ratios are paid out of the funding all the same are described here.
-/

namespace StellarSplit.Split.Ratios

open Exec Function Machine Proportion PlainRelease

variable {env : Env} {s t : Store} {v : Unit} {id i denominator : ℕ} {inv draft : Invoice}
  {paidSet : List Address} {locked : Address → Bool} {effective platformFee d : ℤ} {ratios : List ℕ}

/-! ## The validator -/

/-- The ratios are below the denominator and make it up. -/
def SumsTo (ratios : List ℕ) (denominator : ℕ) : Prop :=
  ratios ≠ [] ∧ (∀ r ∈ ratios, r < denominator) ∧ ratios.sum = denominator

/-- The low 32 bits of the denominator and the saturated sum decide as the numbers themselves do. -/
def NarrowingAgrees (ratios : List ℕ) (denominator : ℕ) : Prop :=
  denominator < u32Max ∨
    if ratios.sum = denominator then
      denominator = u32Max ∨ (denominator % 2 ^ 32 = u32Max ∧ u32Max ∉ ratios)
    else
      ratios = [] ∨ (∃ r ∈ ratios, denominator % 2 ^ 32 ≤ r) ∨ min ratios.sum u32Max ≠ denominator % 2 ^ 32

/-- A denominator that is no larger than the largest word, unless the sum goes beyond that word. -/
theorem validateRatios_small (hdenominator : denominator ≤ u32Max) (hsum : ratios.sum ≤ u32Max ∨ denominator < u32Max) :
    validateRatios ratios denominator = .ok () ↔ SumsTo ratios denominator := by
  have hlow : denominator % 2 ^ 32 = denominator := Nat.mod_eq_of_lt (by unfold u32Max at hdenominator; omega)
  have hmin : min ratios.sum u32Max = denominator ↔ ratios.sum = denominator := by omega
  rw [validateRatios_ok, hlow, hmin, SumsTo]

/-- Ratios that make up a denominator of more than 32 bits. -/
theorem validateRatios_large (hwords : ∀ r ∈ ratios, r ≤ u32Max) (hdenominator : u32Max < denominator)
    (hsum : ratios.sum = denominator) :
    validateRatios ratios denominator = .ok () ↔ denominator % 2 ^ 32 = u32Max ∧ u32Max ∉ ratios := by
  have hne : ratios ≠ [] := by
    rintro rfl
    rw [List.sum_nil] at hsum
    omega
  have hmin : min ratios.sum u32Max = u32Max := by omega
  rw [validateRatios_ok, hmin]
  constructor
  · rintro ⟨-, hbelow, hlow⟩
    exact ⟨hlow.symm, fun hmem => (hbelow _ hmem).ne hlow⟩
  · rintro ⟨hlow, hnot⟩
    refine ⟨hne, fun r hr => ?_, hlow.symm⟩
    rw [hlow]
    exact lt_of_le_of_ne (hwords r hr) fun heq => hnot (heq ▸ hr)

theorem validateRatios_exact_iff (hwords : ∀ r ∈ ratios, r ≤ u32Max) :
    (validateRatios ratios denominator = .ok () ↔ SumsTo ratios denominator) ↔
      NarrowingAgrees ratios denominator := by
  unfold NarrowingAgrees
  rcases lt_or_ge denominator u32Max with hsmall | hlarge
  · exact iff_of_true (validateRatios_small hsmall.le (.inr hsmall)) (.inl hsmall)
  rw [or_iff_right hlarge.not_gt]
  by_cases hsum : ratios.sum = denominator
  · rw [if_pos hsum]
    rcases hlarge.eq_or_lt with hword | hlarge
    · exact iff_of_true (validateRatios_small hword.ge (.inl (hsum.trans hword.symm).le)) (.inl hword.symm)
    · have hne : ratios ≠ [] := by
        rintro rfl
        rw [List.sum_nil] at hsum
        omega
      have hexact : SumsTo ratios denominator := ⟨hne, fun r hr => (hwords r hr).trans_lt hlarge, hsum⟩
      rw [iff_true_right hexact, validateRatios_large hwords hlarge hsum, or_iff_right hlarge.ne']
  · rw [if_neg hsum, iff_false_right fun h : SumsTo ratios denominator => hsum h.2.2, validateRatios_ok]
    simp only [not_and_or, not_forall, not_lt, not_not, exists_prop, ne_eq]

/-! ## The shares of a release -/

/-- An invoice whose ratios passed the validator, with the checks of a creation on its amounts. -/
structure Ratioed (inv : Invoice) : Prop where
  accepted : validateRatios inv.ratios (max inv.ratioDenominator 1) = .ok ()
  denominator : inv.ratioDenominator ≤ u64Max
  length : inv.amounts.length = inv.recipients.length
  amounts : ∀ a ∈ inv.amounts, 0 < a
  total : inv.total ≤ i128Max

theorem Ratioed.denominator_pos (h : Ratioed inv) : 0 < inv.ratioDenominator := by
  obtain ⟨hne, hbelow, hsum⟩ := validateRatios_ok.1 h.accepted
  by_contra hzero
  have hone : max inv.ratioDenominator 1 % 2 ^ 32 = 1 := by
    rw [Nat.eq_zero_of_not_pos hzero]
    rfl
  rw [hone] at hbelow hsum
  have hnone : inv.ratios.sum = 0 := List.sum_eq_zero fun r hr => Nat.lt_one_iff.1 (hbelow r hr)
  omega

theorem Ratioed.below (h : Ratioed inv) : ∀ r ∈ inv.ratios, r < inv.ratioDenominator := by
  have hpos := h.denominator_pos
  intro r hr
  have hlt := ((validateRatios_ok.1 h.accepted).2.1 r hr).trans_le (Nat.mod_le _ _)
  omega

theorem Ratioed.word (h : Ratioed inv) : ∀ a ∈ inv.amounts, 0 ≤ a ∧ a ≤ i128Max := fun a ha =>
  ⟨(h.amounts a ha).le, (List.single_le_sum (fun b hb => (h.amounts b hb).le) a ha).trans h.total⟩

/-- What the ratios ask for: the parts of the funding, and the rest for the last recipient. -/
def ratioShares (inv : Invoice) : List ℤ :=
  partsWithRest inv.funded inv.ratioDenominator (inv.ratios.map fun r : ℕ => (r : ℤ))

theorem proportionalShare_ratio {a x : ℤ} {last : ℕ} (h : Ratioed inv) (ha : inv.amounts[i]? = some a) :
    proportionalShare inv effective last i a d = .ok x ↔
      ∃ ratio, inv.ratios[i]? = some ratio ∧ a * ratio ≤ u128Max ∧ x = part a inv.ratioDenominator ratio := by
  have hne : inv.ratios ≠ [] := (validateRatios_ok.1 h.accepted).1
  have hword : (inv.ratioDenominator : ℤ) ≤ i128Max := by
    have hsmall : (u64Max : ℤ) ≤ i128Max := by decide
    exact le_trans (by exact_mod_cast h.denominator) hsmall
  rw [proportionalShare, if_pos hne, except_bind_ok]
  refine exists_congr fun ratio => ?_
  rw [unwrap_ok]
  refine and_congr_right fun hratio => ?_
  have hlt := h.below ratio (List.mem_of_getElem? hratio)
  exact checkedProportion_iff (h.word a (List.mem_of_getElem? ha))
    ⟨Int.natCast_nonneg _, by exact_mod_cast hlt.le⟩ ⟨by exact_mod_cast h.denominator_pos, hword⟩

/-- Every recipient has a ratio, and the plan gives each one who was not paid before what the ratio
asks for. -/
def PlansRatios (inv : Invoice) (paidSet : List Address) (locked : Address → Bool) (effective : ℤ) : Prop :=
  inv.ratios.length = inv.recipients.length ∧
    ∃ slots, Planned inv paidSet locked effective 0 0 inv.recipients slots ∧
      ∀ (i : ℕ) (x : Slot), slots[i]? = some x → x.recipient ∉ paidSet →
        (ratioShares inv)[i]? = some x.whole ∧ 0 ≤ x.whole

/-- Every recipient has a ratio, and the product of each unpaid one's amount and ratio fits the word and
lies less than one denominator above the share of the funding. -/
structure FundsRatios (inv : Invoice) (paidSet : List Address) : Prop where
  each : inv.ratios.length = inv.recipients.length
  products : ∀ (i : ℕ) (r : Address) (a : ℤ) (ratio : ℕ) (share : ℤ), inv.recipients[i]? = some r → r ∉ paidSet →
    inv.amounts[i]? = some a → inv.ratios[i]? = some ratio → (ratioShares inv)[i]? = some share →
      a * ratio ≤ u128Max ∧ share * inv.ratioDenominator ≤ a * ratio ∧
        a * ratio < (share + 1) * inv.ratioDenominator

theorem Ratioed.length_ratioShares (h : Ratioed inv) : (ratioShares inv).length = inv.ratios.length := by
  have hne : inv.ratios ≠ [] := (validateRatios_ok.1 h.accepted).1
  rw [ratioShares, length_partsWithRest (by simpa using hne), List.length_map]

/-- The plan gives a recipient the part of its own amount. -/
theorem Ratioed.share_eq {slots : List Slot} {x : Slot} (h : Ratioed inv)
    (hplanned : Planned inv paidSet locked effective 0 0 inv.recipients slots) (hx : slots[i]? = some x)
    (hunpaid : x.recipient ∉ paidSet) :
    ∃ (a : ℤ) (ratio : ℕ), inv.recipients[i]? = some x.recipient ∧ inv.amounts[i]? = some a ∧
      inv.ratios[i]? = some ratio ∧ a * ratio ≤ u128Max ∧ x.whole = part a inv.ratioDenominator ratio ∧
        x.capped = cappedShare inv i x.whole := by
  obtain ⟨hr, hshare⟩ := hplanned.get hx
  obtain ⟨a, before, ha, hwhole, hcapped⟩ := hshare hunpaid
  rw [Nat.zero_add] at ha hwhole hcapped
  obtain ⟨ratio, hratio, hfits, hpart⟩ := (proportionalShare_ratio h ha).1 hwhole
  exact ⟨a, ratio, hr, ha, hratio, hfits, hpart, hcapped⟩

/-- The amount, the ratio and the share asked for of a recipient. -/
theorem Ratioed.get (h : Ratioed inv) (heach : inv.ratios.length = inv.recipients.length) {r : Address}
    (hr : inv.recipients[i]? = some r) :
    ∃ (a : ℤ) (ratio : ℕ) (share : ℤ), inv.amounts[i]? = some a ∧ inv.ratios[i]? = some ratio ∧
      (ratioShares inv)[i]? = some share := by
  obtain ⟨hi, -⟩ := List.getElem?_eq_some_iff.1 hr
  have hamount : i < inv.amounts.length := by rwa [h.length]
  have hratio : i < inv.ratios.length := by rwa [heach]
  have hshare : i < (ratioShares inv).length := by rwa [h.length_ratioShares]
  exact ⟨_, _, _, List.getElem?_eq_getElem hamount, List.getElem?_eq_getElem hratio, List.getElem?_eq_getElem hshare⟩

theorem plansRatios_iff (h : Ratioed inv) : PlansRatios inv paidSet locked effective ↔ FundsRatios inv paidSet := by
  have hpos : (0 : ℤ) < inv.ratioDenominator := by exact_mod_cast h.denominator_pos
  constructor
  · rintro ⟨heach, slots, hplanned, hall⟩
    refine ⟨heach, fun i r a ratio share hr hunpaid ha hratio hshare => ?_⟩
    have hslot : (slots.map Slot.recipient)[i]? = some r := by rw [hplanned.recipients, hr]
    rw [List.getElem?_map] at hslot
    obtain ⟨x, hx, rfl⟩ := Option.map_eq_some_iff.1 hslot
    obtain ⟨a', ratio', -, ha', hratio', hfits, hpart, -⟩ := h.share_eq hplanned hx hunpaid
    obtain rfl := Option.some.inj (ha.symm.trans ha')
    obtain rfl := Option.some.inj (hratio.symm.trans hratio')
    obtain rfl := Option.some.inj (hshare.symm.trans (hall i x hx hunpaid).1)
    exact ⟨hfits, (eq_part_iff hpos).1 hpart⟩
  · rintro ⟨heach, hproducts⟩
    have hshares : ∀ (i : ℕ) (r : Address), inv.recipients[i]? = some r → r ∉ paidSet → ∃ amount whole,
        inv.amounts[0 + i]? = some amount ∧ ∀ before, proportionalShare inv effective
          (lastUnpaidIdx inv.recipients paidSet) (0 + i) amount before = .ok whole := by
      intro i r hr hunpaid
      obtain ⟨a, ratio, share, ha, hratio, hshare⟩ := h.get heach hr
      obtain ⟨hfits, -⟩ := hproducts i r a ratio share hr hunpaid ha hratio hshare
      rw [Nat.zero_add]
      exact ⟨a, _, ha, fun before => (proportionalShare_ratio h ha).2 ⟨ratio, hratio, hfits, rfl⟩⟩
    obtain ⟨slots, hplanned⟩ := exists_planned locked effective 0 0 hshares
    refine ⟨heach, slots, hplanned, fun i x hx hunpaid => ?_⟩
    obtain ⟨a, ratio, hr, ha, hratio, -, hpart, -⟩ := h.share_eq hplanned hx hunpaid
    obtain ⟨-, -, share, -, -, hshare⟩ := h.get heach hr
    obtain ⟨-, hunits⟩ := hproducts i _ a ratio share hr hunpaid ha hratio hshare
    rw [(eq_part_iff hpos).2 hunits, ← hpart] at hshare
    refine ⟨hshare, ?_⟩
    rw [hpart]
    exact part_nonneg (h.amounts a (List.mem_of_getElem? ha)).le hpos.le (Int.natCast_nonneg _)

/-- An invoice that is funded by its total is never paid by its ratios: each part is less than the
recipient's amount, and the shares asked for make up all the amounts. -/
theorem not_fundsRatios_of_total (h : Ratioed inv) (htotal : inv.funded = inv.total) : ¬FundsRatios inv [] := by
  rintro ⟨heach, hproducts⟩
  have hpos : (0 : ℤ) < inv.ratioDenominator := by exact_mod_cast h.denominator_pos
  have hlength : (ratioShares inv).length = inv.amounts.length := by rw [h.length_ratioShares, heach, h.length]
  have hless : ∀ p ∈ (ratioShares inv).zip inv.amounts, p.1 < p.2 := by
    intro p hp
    obtain ⟨i, hi⟩ := List.mem_iff_getElem?.1 hp
    obtain ⟨hshare, ha⟩ := List.getElem?_zip_eq_some.1 hi
    obtain ⟨hbound, -⟩ := List.getElem?_eq_some_iff.1 ha
    have hrecipient : i < inv.recipients.length := by rwa [← h.length]
    obtain ⟨-, ratio, -, -, hratio, -⟩ := h.get heach (List.getElem?_eq_getElem hrecipient)
    obtain ⟨-, hle, -⟩ := hproducts i _ p.2 ratio p.1 (List.getElem?_eq_getElem hrecipient) List.not_mem_nil ha
      hratio hshare
    have hbelow : (ratio : ℤ) < inv.ratioDenominator := by exact_mod_cast h.below ratio (List.mem_of_getElem? hratio)
    have hlt := hle.trans_lt (mul_lt_mul_of_pos_left hbelow (h.amounts p.2 (List.mem_of_getElem? ha)))
    exact lt_of_mul_lt_mul_right hlt hpos.le
  have hne : (ratioShares inv).zip inv.amounts ≠ [] := by
    have hsome := List.length_pos_iff.2 (validateRatios_ok.1 h.accepted).1
    rw [← List.length_pos_iff, List.length_zip, ← hlength, min_self, h.length_ratioShares]
    exact hsome
  have hsum := List.sum_lt_sum_of_ne_nil hne Prod.fst Prod.snd hless
  rw [List.map_fst_zip hlength.le, List.map_snd_zip hlength.ge, ratioShares, sum_partsWithRest, htotal] at hsum
  exact lt_irrefl _ hsum

/-! ## Creation -/

theorem checkCreation_amounts {extras : CreationExtras} (hrun : checkCreation env draft extras s = .ok (v, t)) :
    draft.amounts.length = draft.recipients.length ∧ (∀ a ∈ draft.amounts, 0 < a) ∧ draft.total ≤ i128Max := by
  obtain ⟨_, _, -, hrun⟩ := bind_ok.1 hrun
  obtain ⟨_, _, -, hrun⟩ := bind_ok.1 hrun
  obtain ⟨_, _, hamounts, -⟩ := bind_ok.1 hrun
  simp only [checkAmounts, require_bind] at hamounts
  exact ⟨hamounts.1.symm, hamounts.2.2.1, hamounts.2.2.2.1⟩

/-- What the contract stores of the parameters of a creation that concern the ratios. -/
structure Keeps (draft inv : Invoice) : Prop where
  recipients : inv.recipients = draft.recipients
  amounts : inv.amounts = draft.amounts
  ratios : inv.ratios = draft.ratios
  denominator : inv.ratioDenominator = draft.ratioDenominator

theorem Keeps.ratioed {extras : CreationExtras} (h : Keeps draft inv)
    (haccepted : validateRatios draft.ratios (max draft.ratioDenominator 1) = .ok ())
    (hdenominator : draft.ratioDenominator ≤ u64Max) (hrun : checkCreation env draft extras s = .ok (v, t)) :
    Ratioed inv := by
  obtain ⟨hlength, hamounts, htotal⟩ := checkCreation_amounts hrun
  refine ⟨?_, ?_, ?_, ?_, ?_⟩
  · rwa [h.ratios, h.denominator]
  · rwa [h.denominator]
  · rwa [h.amounts, h.recipients]
  · rwa [h.amounts]
  · rwa [Invoice.total, h.amounts]

theorem keeps_load {stored : Invoice} (hstored : (t.entries id).invoice = some stored)
    (hload : (t.entries id).load = some inv) (h : Keeps draft stored) : Keeps draft inv := by
  obtain ⟨found, hfound, rfl⟩ := Option.map_eq_some_iff.1 hload
  obtain rfl := Option.some.inj (hstored.symm.trans hfound)
  exact ⟨h.recipients, h.amounts, h.ratios, h.denominator⟩

/-! ## Templates -/

/-- The recipients of a template with a ratio in basis points for each. -/
structure InvoiceTemplateRecord where
  recipients : List Address
  ratios : List ℕ
  token : Address
  parallel : recipients.length = ratios.length
  sum : ratios.foldl satAddU32 0 = 10000

/-- The templates of each creator by id, and the last id given out. -/
structure Templates where
  records : Address → ℕ → Option InvoiceTemplateRecord := fun _ _ => none
  lastId : Address → ℕ := fun _ => 0

def newTemplate (recipients : List Address) (ratios : List ℕ) (token : Address) : Result InvoiceTemplateRecord :=
  if hparallel : recipients.length = ratios.length then
    if hsum : ratios.foldl satAddU32 0 = 10000 then .ok ⟨recipients, ratios, token, hparallel, hsum⟩
    else .error (.panic "ratios must sum to 10000 basis points")
  else .error (.panic "recipients and ratios must have the same length")

def createTemplate (env : Env) (creator : Address) (recipients : List Address) (ratios : List ℕ) (token : Address) :
    Call Templates SplitFault ℕ := do
  requireAuth env.toLedger creator
  require (recipients ≠ []) (.panic "must have at least one recipient")
  let template ← ofResult (newTemplate recipients ratios token)
  require (env.calls token "decimals" = true ∧ env.calls token "balance" = true) (.error .unauthorisedToken)
  let templates ← get
  let next ← orPanic (checkedAddU64 (templates.lastId creator) 1) "attempt to add with overflow"
  set { templates with
    records := update templates.records creator (update (templates.records creator) next (some template))
    lastId := update templates.lastId creator next }
  pure next

/-- The amount of a recipient of `invoice_from_template`. -/
def templateAmount (totalAmount : ℤ) (ratio : ℕ) : Result ℤ :=
  match checkedMulI128 totalAmount ratio with
  | some product =>
      if 0 < product.tdiv 10000 then .ok (product.tdiv 10000)
      else .error (.panic "computed amount for a recipient is zero; increase total_amount")
  | none => .error .overflow

/-- The parameters of the creation: the ratios are passed on beside the amounts they gave. -/
def InvoiceTemplateRecord.parameters (template : InvoiceTemplateRecord) (creator : Address) (amounts : List ℤ)
    (deadline : ℕ) : Invoice where
  creator := creator
  recipients := template.recipients
  amounts := amounts
  tokens := []
  fundingToken := template.token
  deadline := deadline
  ratioDenominator := 10000
  ratios := template.ratios

def invoiceFromTemplate (env : Env) (templates : Templates) (creator : Address) (templateId : ℕ) (totalAmount : ℤ)
    (deadline : ℕ) : SplitM ℕ := do
  requireAuth env.toLedger creator
  require (0 < totalAmount) (.panic "total_amount must be positive")
  let template ← orPanic (templates.records creator templateId) "template not found"
  let amounts ← ofResult (template.ratios.mapM (templateAmount totalAmount))
  createInvoiceInner env (template.parameters creator amounts deadline) {}

section Template

variable {templates : Templates} {creator : Address} {templateId deadline : ℕ} {totalAmount : ℤ} {amounts : List ℤ}

theorem templateAmount_eq {ratio : ℕ} {x : ℤ} (htotal : 0 < totalAmount) (h : templateAmount totalAmount ratio = .ok x) :
    x = part totalAmount 10000 ratio ∧ 0 < ratio := by
  unfold templateAmount checkedMulI128 at h
  by_cases hin : InI128 (totalAmount * ratio)
  · rw [if_pos hin] at h
    dsimp only at h
    rw [Int.tdiv_eq_ediv_of_nonneg (by positivity)] at h
    split_ifs at h with hpos
    refine ⟨(Except.ok.inj h).symm, Nat.pos_of_ne_zero ?_⟩
    rintro rfl
    simp at hpos
  · rw [if_neg hin] at h
    cases h

theorem templateAmounts_eq (htotal : 0 < totalAmount) (h : ratios.mapM (templateAmount totalAmount) = .ok amounts) :
    amounts = ratios.map (fun r : ℕ => part totalAmount 10000 r) ∧ ∀ r ∈ ratios, 0 < r := by
  induction ratios generalizing amounts with
  | nil =>
      obtain rfl := Except.ok.inj h
      exact ⟨rfl, fun r hr => absurd hr List.not_mem_nil⟩
  | cons r ratios ih =>
      rw [List.mapM_cons] at h
      obtain ⟨x, hx, h⟩ := except_bind_ok.1 h
      obtain ⟨rest, hrest, h⟩ := except_bind_ok.1 h
      obtain rfl := Except.ok.inj h
      obtain ⟨rfl, hpos⟩ := templateAmount_eq htotal hx
      obtain ⟨rfl, hall⟩ := ih hrest
      exact ⟨rfl, List.forall_mem_cons.2 ⟨hpos, hall⟩⟩

/-- The ratios of two or more recipients of a template pass the validator. -/
theorem template_accepted {template : InvoiceTemplateRecord} (hpos : ∀ r ∈ template.ratios, 0 < r)
    (htwo : 2 ≤ template.ratios.length) : validateRatios template.ratios (max 10000 1) = .ok () := by
  have hsum : template.ratios.sum = 10000 := by
    have htotal := template.sum
    rw [foldl_satAddU32 (Nat.zero_le _), Nat.zero_add, u32Max] at htotal
    omega
  refine (validateRatios_small (by decide) (.inr (by decide))).2 ⟨?_, fun r hr => ?_, hsum⟩
  · rw [← List.length_pos_iff]
    omega
  · have hrest : 0 < (template.ratios.erase r).sum := by
      have hlength := List.length_erase_of_mem hr
      obtain ⟨x, hx⟩ := List.exists_mem_of_length_pos (by omega : 0 < (template.ratios.erase r).length)
      exact (hpos x (List.mem_of_mem_erase hx)).trans_le (List.single_le_sum (fun _ _ => Nat.zero_le _) x hx)
    have hsplit := List.sum_erase hr
    omega

/-- An invoice from a template pays the ratio of an amount that is the ratio of the total already. -/
theorem invoiceFromTemplate_ratioed
    (hrun : invoiceFromTemplate env templates creator templateId totalAmount deadline s = .ok (id, t))
    (hload : (t.entries id).load = some inv) :
    ∃ template, templates.records creator templateId = some template ∧ inv.ratios = template.ratios ∧
      inv.ratioDenominator = 10000 ∧ inv.amounts = inv.ratios.map (fun r : ℕ => part totalAmount 10000 r) ∧
      inv.ratios.length = inv.recipients.length ∧ (2 ≤ inv.ratios.length → Ratioed inv) := by
  simp only [invoiceFromTemplate, requireAuth_bind, require_bind, orPanic_bind, ofResult_bind] at hrun
  obtain ⟨-, htotal, template, htemplate, amounts, hamounts, hinner⟩ := hrun
  obtain ⟨-, -, hstored⟩ := createInvoiceInner_ok hinner
  have hkeeps : Keeps (template.parameters creator amounts deadline) inv :=
    keeps_load hstored.invoice hload ⟨rfl, rfl, rfl, rfl⟩
  obtain ⟨heq, hpos⟩ := templateAmounts_eq htotal hamounts
  obtain ⟨_, u, hchecks, -⟩ := bind_ok.1 hinner
  refine ⟨template, htemplate, hkeeps.ratios, hkeeps.denominator, ?_, ?_, fun htwo => ?_⟩
  · rw [hkeeps.amounts, hkeeps.ratios]
    exact heq
  · rw [hkeeps.ratios, hkeeps.recipients]
    exact template.parallel.symm
  · rw [hkeeps.ratios] at htwo
    exact hkeeps.ratioed (template_accepted hpos htwo) (by decide : 10000 ≤ u64Max) hchecks

/-- The only template of creator 2, with half for each of two recipients. -/
def halfTemplates : Templates where
  records := fun creator id => if (creator, id) = (2, 1) then some ⟨[3, 4], [5000, 5000], 7, rfl, rfl⟩ else none

theorem invoiceFromTemplate_halves :
    ∃ inv, ((commit (invoiceFromTemplate (sampleEnv 10 0) halfTemplates 2 1 100 1000) {}).entries 1).load = some inv ∧
      inv.amounts = inv.ratios.map fun r : ℕ => part 100 10000 r := by
  have hrun := ok_commit (x := invoiceFromTemplate (sampleEnv 10 0) halfTemplates 2 1 100 1000) (s := {}) (a := 1)
    (by decide +kernel)
  obtain ⟨inv, hload⟩ := Option.isSome_iff_exists.1 (by decide +kernel :
    ((commit (invoiceFromTemplate (sampleEnv 10 0) halfTemplates 2 1 100 1000) {}).entries 1).load.isSome)
  obtain ⟨-, -, -, -, hamounts, -⟩ := invoiceFromTemplate_ratioed hrun hload
  exact ⟨inv, hload, hamounts⟩

end Template

/-! ## Which ratios are paid -/

/-- When the validator decides by the ratios as they are, and when a release pays them out of the funding,
which it never does for an invoice that is funded by its total. -/
theorem ratios_paid_iff (hwords : ∀ r ∈ ratios, r ≤ u32Max) (h : Ratioed inv) :
    ((validateRatios ratios denominator = .ok () ↔ SumsTo ratios denominator) ↔ NarrowingAgrees ratios denominator) ∧
      (PlansRatios inv paidSet locked effective ↔ FundsRatios inv paidSet) ∧
      (inv.funded = inv.total → ¬PlansRatios inv [] locked effective) :=
  ⟨validateRatios_exact_iff hwords, plansRatios_iff h,
    fun htotal hplans => not_fundsRatios_of_total h htotal ((plansRatios_iff h).1 hplans)⟩

/-- Two recipients with 50 units and half of the ratios each. -/
def halves : Invoice := { sampleInvoice with
  ratioDenominator := 10000
  ratios := [5000, 5000] }

theorem ratios_paid_halves :
    ((validateRatios [4, 6] (2 ^ 32 + 10) = .ok () ↔ SumsTo [4, 6] (2 ^ 32 + 10)) ↔
        NarrowingAgrees [4, 6] (2 ^ 32 + 10)) ∧
      (PlansRatios (halves.withFunded 50) [] (fun _ => false) 100 ↔ FundsRatios (halves.withFunded 50) []) ∧
      ((halves.withFunded 50).funded = (halves.withFunded 50).total →
        ¬PlansRatios (halves.withFunded 50) [] (fun _ => false) 100) :=
  ratios_paid_iff (by decide) ⟨rfl, by decide, rfl, by decide, by decide⟩

/-- Ratios that make up 10 pass for a denominator of 2 ^ 32 + 10, and 100 units for two halves are paid
as 25 units each. -/
theorem halves_paid_by_quarters :
    (validateRatios [4, 6] (2 ^ 32 + 10) = .ok () ∧ ¬SumsTo [4, 6] (2 ^ 32 + 10)) ∧
      ∃ inv plan, ((commit (createInvoice (sampleEnv 10 0) halves {}) {}).entries 1).load = some inv ∧
        planPayouts (sampleEnv 10 0) (inv.withFunded 100) [] (fun _ => false) 0 = .ok plan ∧
        plan.payouts = [25, 25] ∧ ratioShares (inv.withFunded 100) = [50, 50] := by
  refine ⟨⟨rfl, fun h => ?_⟩, ?_⟩
  · have hsum := h.2.2
    norm_num at hsum
  · have hload : ((commit (createInvoice (sampleEnv 10 0) halves {}) {}).entries 1).load.map (fun inv =>
        ((planPayouts (sampleEnv 10 0) (inv.withFunded 100) [] (fun _ => false) 0).toOption.map Plan.payouts,
          ratioShares (inv.withFunded 100))) = some (some [25, 25], [50, 50]) := by decide +kernel
    obtain ⟨inv, hinv, hpair⟩ := Option.map_eq_some_iff.1 hload
    obtain ⟨plan, hplan, hpayouts⟩ := Option.map_eq_some_iff.1 (congrArg Prod.fst hpair)
    refine ⟨inv, plan, hinv, ?_, hpayouts, congrArg Prod.snd hpair⟩
    cases hresult : planPayouts (sampleEnv 10 0) (inv.withFunded 100) [] (fun _ => false) 0 with
    | ok found =>
        rw [hresult] at hplan
        exact congrArg Except.ok (Option.some.inj hplan)
    | error e =>
        rw [hresult] at hplan
        cases hplan

end StellarSplit.Split.Ratios
