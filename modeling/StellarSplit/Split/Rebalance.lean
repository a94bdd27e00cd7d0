import StellarSplit.Lib.Proportion
import StellarSplit.Split.Creation
import StellarSplit.Split.Lock

/-!
# Taking a recipient out

The amount of a recipient that is taken out goes to the others in proportion to theirs,
and the first of them gets the rest of the division as well. The amounts keep their total.
-/

namespace StellarSplit.Split.Rebalance

open Exec Machine Proportion

/-! ## Loops of fallible steps -/

section Loops

variable {ε ι α : Type} {xs : List ι} {f : ι → Except ε α} {g : ι → α}

theorem mapM_eq_map {ys : List α} (h : ∀ a ∈ xs, ∀ b, f a = .ok b → b = g a) (hrun : xs.mapM f = .ok ys) :
    ys = xs.map g := by
  induction xs generalizing ys with
  | nil =>
      cases hrun
      rfl
  | cons a xs ih =>
      rw [List.mapM_cons] at hrun
      obtain ⟨b, hb, hrun⟩ := except_bind_ok.1 hrun
      obtain ⟨bs, hbs, hrun⟩ := except_bind_ok.1 hrun
      cases hrun
      rw [h a (by simp) b hb, ih (fun c hc => h c (List.mem_cons_of_mem a hc)) hbs, List.map_cons]

theorem mapM_ok_map (h : ∀ a ∈ xs, f a = .ok (g a)) : xs.mapM f = .ok (xs.map g) := by
  induction xs with
  | nil => rfl
  | cons a xs ih =>
      rw [List.mapM_cons, h a (by simp), ih fun b hb => h b (List.mem_cons_of_mem a hb)]
      rfl

end Loops

theorem plainAdd_ok {a b c : ℤ} (h : plainAdd a b = .ok c) : c = a + b := by
  unfold plainAdd at h
  split_ifs at h
  exact (Except.ok.inj h).symm

theorem plainAdd_run {a b : ℤ} (h : InI128 (a + b)) : plainAdd a b = .ok (a + b) := if_pos h

theorem sum_ok {xs : List ℤ} {start total : ℤ} (h : xs.foldlM plainAdd start = .ok total) :
    total = start + xs.sum := by
  induction xs generalizing start with
  | nil =>
      cases h
      simp
  | cons x xs ih =>
      rw [List.foldlM_cons] at h
      obtain ⟨next, hnext, hrest⟩ := except_bind_ok.1 h
      rw [ih hrest, plainAdd_ok hnext, List.sum_cons, add_assoc]

theorem sum_run {xs : List ℤ} {start : ℤ} (hxs : ∀ x ∈ xs, 0 ≤ x) (hstart : 0 ≤ start)
    (hfits : start + xs.sum ≤ i128Max) : xs.foldlM plainAdd start = .ok (start + xs.sum) := by
  induction xs generalizing start with
  | nil => simp [pure, Except.pure]
  | cons x xs ih =>
      have hx : 0 ≤ x := hxs x (by simp)
      have hrest : ∀ y ∈ xs, 0 ≤ y := fun y hy => hxs y (List.mem_cons_of_mem x hy)
      have hsum : 0 ≤ xs.sum := List.sum_nonneg hrest
      rw [List.sum_cons, ← add_assoc] at hfits ⊢
      have hin : InI128 (start + x) := ⟨by norm_num [i128Min]; omega, by omega⟩
      rw [List.foldlM_cons, plainAdd_run hin]
      exact ih hrest (by omega) hfits

/-! ## The others -/

section Others

variable {α : Type} {x : α} {xs : List α} {n idx : ℕ}

theorem mapM_succ (positions : List ℕ) :
    (positions.map Nat.succ).mapM (fun i => unwrap (x :: xs)[i]?) = positions.mapM fun i => unwrap xs[i]? := by
  rw [List.mapM_map]
  rfl

theorem mapM_range (xs : List α) : ((List.range xs.length).mapM fun i => unwrap xs[i]?) = .ok xs := by
  induction xs with
  | nil => rfl
  | cons x xs ih =>
      rw [List.length_cons, List.range_succ_eq_map, List.mapM_cons, mapM_succ, ih]
      rfl

theorem othersOf_zero : othersOf (n + 1) 0 (x :: xs) = (List.range n).mapM fun i => unwrap xs[i]? := by
  have hall : ((List.range n).map Nat.succ).filter (· ≠ 0) = (List.range n).map Nat.succ := by
    rw [List.filter_eq_self]
    intro i hi
    obtain ⟨j, -, rfl⟩ := List.mem_map.1 hi
    simp
  rw [othersOf, List.range_succ_eq_map, List.filter_cons_of_neg (by simp), hall, mapM_succ]

theorem othersOf_succ : othersOf (n + 1) (idx + 1) (x :: xs) = (othersOf n idx xs).map (x :: ·) := by
  have hshift : ((List.range n).map Nat.succ).filter (· ≠ idx + 1) =
      ((List.range n).filter (· ≠ idx)).map Nat.succ := by
    rw [List.filter_map]
    congr 1
    apply List.filter_congr
    intro i _
    simp
  rw [othersOf, List.range_succ_eq_map, List.filter_cons_of_pos (by simp), hshift, List.mapM_cons, mapM_succ]
  rfl

/-- With one entry for each recipient, the others are the list without the entry. -/
theorem othersOf_eq (xs : List α) {idx : ℕ} (hidx : idx < xs.length) :
    othersOf xs.length idx xs = .ok (xs.eraseIdx idx) := by
  induction xs generalizing idx with
  | nil => cases hidx
  | cons x xs ih =>
      cases idx with
      | zero =>
          rw [List.length_cons, othersOf_zero, mapM_range, List.eraseIdx_cons_zero]
      | succ idx =>
          rw [List.length_cons, othersOf_succ, ih (Nat.lt_of_succ_lt_succ hidx), List.eraseIdx_cons_succ]
          rfl

end Others

/-! ## The new amounts -/

/-- The amounts once the removed one is divided among them. -/
def rebalanced (removed : ℤ) (amounts : List ℤ) : List ℤ :=
  (amounts.map fun a => a + part removed amounts.sum a).modifyHead
    (· + (removed - (amounts.map (part removed amounts.sum)).sum))

section Amounts

variable {removed : ℤ} {amounts : List ℤ}

theorem removedShare_ok {base x : ℤ} {remaining : ℤ} (hremoved : 0 ≤ removed) (hbase : 0 < base)
    (h : removedShare removed remaining base = .ok x) : x = part removed remaining base := by
  unfold removedShare at h
  split_ifs at h
  rw [← Except.ok.inj h, part]
  exact Int.tdiv_eq_ediv_of_nonneg (mul_nonneg hremoved hbase.le)

theorem removedShare_run {base remaining : ℤ} (hremoved : 0 ≤ removed) (hbase : 0 < base)
    (hremaining : 0 < remaining) (hfits : InI128 (removed * base)) :
    removedShare removed remaining base = .ok (part removed remaining base) := by
  rw [removedShare, if_neg (by simp [hremaining.ne', hfits]), part]
  exact congrArg Except.ok (Int.tdiv_eq_ediv_of_nonneg (mul_nonneg hremoved hbase.le))

theorem zip_map_add (p : ℤ → ℤ) (amounts : List ℤ) :
    ((amounts.zip (amounts.map p)).map fun q => q.1 + q.2) = amounts.map fun a => a + p a := by
  induction amounts with
  | nil => rfl
  | cons a amounts ih => rw [List.map_cons, List.zip_cons_cons, List.map_cons, List.map_cons, ih]

theorem redistribute_ok {new : List ℤ} (hremoved : 0 ≤ removed) (hpos : ∀ a ∈ amounts, 0 < a)
    (h : redistribute removed amounts = .ok new) : new = rebalanced removed amounts := by
  unfold redistribute at h
  obtain ⟨remaining, hremaining, h⟩ := except_bind_ok.1 h
  obtain ⟨shares, hshares, h⟩ := except_bind_ok.1 h
  obtain ⟨distributed, hdistributed, h⟩ := except_bind_ok.1 h
  obtain ⟨raised, hraised, h⟩ := except_bind_ok.1 h
  obtain ⟨remainder, hremainder, h⟩ := except_bind_ok.1 h
  obtain ⟨first, hfirst, h⟩ := except_bind_ok.1 h
  obtain ⟨top, htop, h⟩ := except_bind_ok.1 h
  rw [sum_ok hremaining, zero_add] at hshares
  rw [mapM_eq_map (fun a ha b hb => removedShare_ok hremoved (hpos a ha) hb) hshares] at hraised hdistributed
  rw [sum_ok hdistributed, zero_add] at hremainder
  rw [mapM_eq_map (fun q _ b hb => plainAdd_ok hb) hraised, zip_map_add] at hfirst h
  rw [plainAdd_ok hremainder] at htop
  rw [plainAdd_ok htop] at h
  rw [← Except.ok.inj h, rebalanced]
  rw [unwrap_ok] at hfirst
  obtain ⟨rest, hcons⟩ := List.head?_eq_some_iff.1 hfirst
  rw [hcons, List.modifyHead_cons, List.tail_cons, sub_eq_add_neg]

/-- What the amounts `kept` become: none is smaller than before, each has its part of the removed
amount, and the first one also the rest, which is smaller than the number of the parts. -/
structure Rebalanced (removed : ℤ) (kept new : List ℤ) : Prop where
  length : new.length = kept.length
  gains : ∀ (i : ℕ) (a : ℤ), kept[i]? = some a →
    new[i]? = some (a + removed * a / kept.sum +
      if i = 0 then removed - (kept.map fun b => removed * b / kept.sum).sum else 0)
  grows : ∀ (i : ℕ) (a x : ℤ), kept[i]? = some a → new[i]? = some x → a ≤ x
  pos : ∀ x ∈ new, 0 < x
  rest_nonneg : 0 ≤ removed - (kept.map fun b => removed * b / kept.sum).sum
  rest_lt : removed - (kept.map fun b => removed * b / kept.sum).sum < kept.length
  sum : new.sum = kept.sum + removed

theorem sum_pos (hpos : ∀ a ∈ amounts, 0 < a) (hne : amounts ≠ []) : 0 < amounts.sum := by
  cases amounts with
  | nil => exact absurd rfl hne
  | cons a amounts =>
      have ha : 0 < a := hpos a (by simp)
      have hrest : 0 ≤ amounts.sum := List.sum_nonneg fun b hb => (hpos b (List.mem_cons_of_mem a hb)).le
      rw [List.sum_cons]
      omega

theorem sum_modifyHead {xs : List ℤ} (x : ℤ) (hne : xs ≠ []) : (xs.modifyHead (· + x)).sum = xs.sum + x := by
  cases xs with
  | nil => exact absurd rfl hne
  | cons y xs =>
      rw [List.modifyHead_cons, List.sum_cons, List.sum_cons]
      omega

theorem rebalanced_spec (hremoved : 0 ≤ removed) (hpos : ∀ a ∈ amounts, 0 < a) (hne : amounts ≠ []) :
    Rebalanced removed amounts (rebalanced removed amounts) := by
  have hwhole := sum_pos hpos hne
  have hrest : 0 ≤ removed - (amounts.map (part removed amounts.sum)).sum :=
    sub_nonneg.2 (sum_part_le hwhole rfl _)
  have hlength : (rebalanced removed amounts).length = amounts.length := by
    rw [rebalanced, List.length_modifyHead, List.length_map]
  have hgains : ∀ (i : ℕ) (a : ℤ), amounts[i]? = some a →
      (rebalanced removed amounts)[i]? = some (a + part removed amounts.sum a +
        if i = 0 then removed - (amounts.map (part removed amounts.sum)).sum else 0) := by
    intro i a ha
    rw [rebalanced, List.getElem?_modifyHead]
    split_ifs with hi
    · rw [List.getElem?_map, ha]
      rfl
    · rw [List.getElem?_map, ha, add_zero]
      rfl
  have hgrows : ∀ (i : ℕ) (a x : ℤ), amounts[i]? = some a → (rebalanced removed amounts)[i]? = some x → a ≤ x := by
    intro i a x ha hx
    have hpart : 0 ≤ part removed amounts.sum a :=
      part_nonneg hremoved hwhole.le (hpos a (List.mem_of_getElem? ha)).le
    rw [hgains i a ha] at hx
    rw [← Option.some.inj hx]
    split_ifs <;> omega
  refine ⟨hlength, hgains, hgrows, ?_, hrest, rest_lt hwhole rfl removed, ?_⟩
  · intro x hx
    obtain ⟨i, hi, rfl⟩ := List.mem_iff_getElem.1 hx
    have hilt : i < amounts.length := hlength ▸ hi
    have hle := hgrows i amounts[i] _ (List.getElem?_eq_getElem hilt) (List.getElem?_eq_getElem hi)
    exact (hpos _ (List.getElem_mem hilt)).trans_le hle
  · rw [rebalanced, sum_modifyHead _ (by simpa using hne), List.sum_map_add]
    simp only [List.map_id']
    ring

theorem inI128_of_le {x y : ℤ} (hx : 0 ≤ x) (hle : x ≤ y) (hy : y ≤ i128Max) : InI128 x :=
  ⟨le_trans (by decide) hx, hle.trans hy⟩

/-- The division returns when the products and the new total fit. -/
theorem redistribute_run (hremoved : 0 ≤ removed) (hpos : ∀ a ∈ amounts, 0 < a) (hne : amounts ≠ [])
    (hfits : ∀ a ∈ amounts, InI128 (removed * a)) (htotal : amounts.sum + removed ≤ i128Max) :
    ∃ new, redistribute removed amounts = .ok new := by
  have hwhole := sum_pos hpos hne
  have hspec := rebalanced_spec hremoved hpos hne
  have hnonneg : ∀ a ∈ amounts, 0 ≤ a := fun a ha => (hpos a ha).le
  have hparts := parts_nonneg hremoved hwhole.le hnonneg
  have hle : (amounts.map (part removed amounts.sum)).sum ≤ removed := sum_part_le hwhole rfl removed
  have hpartsum := List.sum_nonneg hparts
  have hremaining : amounts.foldlM plainAdd 0 = .ok amounts.sum := by
    rw [sum_run hnonneg le_rfl (by omega), zero_add]
  have hshares := mapM_ok_map fun a ha => removedShare_run hremoved (hpos a ha) hwhole (hfits a ha)
  have hdistributed : (amounts.map (part removed amounts.sum)).foldlM plainAdd 0 =
      .ok (amounts.map (part removed amounts.sum)).sum := by
    rw [sum_run hparts le_rfl (by omega), zero_add]
  have hraised : ((amounts.zip (amounts.map (part removed amounts.sum))).mapM fun p => plainAdd p.1 p.2) =
      .ok (amounts.map fun a => a + part removed amounts.sum a) := by
    rw [← zip_map_add]
    refine mapM_ok_map fun q hq => plainAdd_run ?_
    obtain ⟨hfirst, hsecond⟩ := List.of_mem_zip hq
    have hone := List.single_le_sum hnonneg _ hfirst
    have htwo := List.single_le_sum hparts _ hsecond
    exact inI128_of_le (add_nonneg (hnonneg _ hfirst) (hparts _ hsecond)) (by omega) htotal
  obtain ⟨a, rest, rfl⟩ := List.exists_cons_of_ne_nil hne
  have htop : a + part removed (a :: rest).sum a + (removed - ((a :: rest).map (part removed (a :: rest).sum)).sum) ≤
      (a :: rest).sum + removed := by
    rw [← hspec.sum]
    exact List.single_le_sum (fun x hx => (hspec.pos x hx).le) _ (by simp [rebalanced])
  have hpart : 0 ≤ part removed (a :: rest).sum a := hparts _ (by simp)
  have ha : 0 ≤ a := hnonneg a (by simp)
  refine ⟨rebalanced removed (a :: rest), ?_⟩
  unfold redistribute
  refine except_bind_ok.2 ⟨_, hremaining, except_bind_ok.2 ⟨_, hshares, except_bind_ok.2 ⟨_, hdistributed, ?_⟩⟩⟩
  refine except_bind_ok.2 ⟨_, hraised, except_bind_ok.2 ⟨_, plainAdd_run ?_, ?_⟩⟩
  · exact inI128_of_le (y := removed) (by omega) (by omega) (by omega)
  refine except_bind_ok.2 ⟨_, rfl, except_bind_ok.2 ⟨_, plainAdd_run ?_, rfl⟩⟩
  exact inI128_of_le (add_nonneg (add_nonneg ha hpart) (by omega)) htop htotal

end Amounts

/-! ## The call -/

section Call

variable {env : Env} {s t : Store} {v : Unit} {id idx : ℕ} {inv : Invoice} {creator removeAddress : Address}
  {removed : ℤ}

theorem rebalanceRecipients_ok (hload : (s.entries id).load = some inv)
    (hlen : inv.amounts.length = inv.recipients.length)
    (hidx : inv.recipients.findIdx? (· = removeAddress) = some idx) (hremoved : inv.amounts[idx]? = some removed)
    (hrun : rebalanceRecipients env creator id removeAddress s = .ok (v, t)) :
    3 ≤ inv.recipients.length ∧ ∃ tokens claimed new, redistribute removed (inv.amounts.eraseIdx idx) = .ok new ∧
      (t.entries id).load =
        some (inv.withRecipients (inv.recipients.eraseIdx idx) new tokens claimed) := by
  have hlt : idx < inv.recipients.length := (List.findIdx?_eq_some_iff_getElem.1 hidx).1
  simp only [rebalanceRecipients, requireNotPaused_bind, requireAuth_bind, loadInvoice_bind, require_bind,
    orPanic_bind, ofResult_bind] at hrun
  obtain ⟨-, -, inv', hload', -, -, -, -, hthree, idx', hidx', removed', hremoved', recipients, hrecipients,
    amounts, hamounts, tokens, -, claimed, -, new, hnew, hsave⟩ := hrun
  obtain rfl := Option.some.inj (hload.symm.trans hload')
  obtain rfl := Option.some.inj (hidx.symm.trans hidx')
  obtain rfl := Option.some.inj (hremoved.symm.trans (unwrap_ok.1 hremoved'))
  obtain rfl := Except.ok.inj ((othersOf_eq inv.recipients hlt).symm.trans hrecipients)
  rw [← hlen] at hamounts hlt
  obtain rfl := Except.ok.inj ((othersOf_eq inv.amounts hlt).symm.trans hamounts)
  obtain ⟨-, rfl⟩ := saveInvoice_ok.1 hsave
  refine ⟨hthree, tokens, claimed, new, hnew, ?_⟩
  obtain ⟨stored, -, rfl⟩ := Option.map_eq_some_iff.1 hload
  rw [Store.setEntry_self]
  rfl

/-- The call is let through: the contract runs, the creator signs, and the record can be stored. -/
structure Ready (env : Env) (inv : Invoice) : Prop where
  running : Running env
  auth : env.auth inv.creator = true ∧ inv.creator ≠ currentContract
  undisputed : inv.disputed = false
  tokens : inv.tokens.length = inv.recipients.length
  claimed : inv.claimed.length = inv.recipients.length
  quota : ∀ inv', env.fitsQuota inv' = true

theorem amounts_sum (hremoved : inv.amounts[idx]? = some removed) :
    (inv.amounts.eraseIdx idx).sum + removed = inv.amounts.sum := by
  obtain ⟨hlt, rfl⟩ := List.getElem?_eq_some_iff.1 hremoved
  rw [add_comm]
  exact List.add_sum_eraseIdx hlt fun _ _ => AddCommute.all _ _

/-- Taking a recipient out of a pending invoice that nobody has paid keeps the total: every other
recipient gains its part of the removed amount and the first one also the rest. The call returns
when the products and the total fit. -/
theorem rebalance_law (hload : (s.entries id).load = some inv) (hpending : inv.status = .pending)
    (hunfunded : inv.funded = 0) (hthree : 3 ≤ inv.recipients.length)
    (hlen : inv.amounts.length = inv.recipients.length) (hpos : ∀ a ∈ inv.amounts, 0 < a)
    (hidx : inv.recipients.findIdx? (· = removeAddress) = some idx)
    (hremoved : inv.amounts[idx]? = some removed) :
    (∀ env creator t, rebalanceRecipients env creator id removeAddress s = .ok ((), t) →
      ∃ inv', (t.entries id).load = some inv' ∧ inv'.recipients = inv.recipients.eraseIdx idx ∧
        Rebalanced removed (inv.amounts.eraseIdx idx) inv'.amounts ∧ inv'.amounts.sum = inv.amounts.sum) ∧
    (∀ env, Ready env inv → (∀ a ∈ inv.amounts.eraseIdx idx, InI128 (removed * a)) →
      inv.amounts.sum ≤ i128Max →
      ∃ t, rebalanceRecipients env inv.creator id removeAddress s = .ok ((), t)) := by
  have hlt : idx < inv.amounts.length := (List.getElem?_eq_some_iff.1 hremoved).1
  have hkept : ∀ a ∈ inv.amounts.eraseIdx idx, 0 < a := fun a ha => hpos a (List.mem_of_mem_eraseIdx ha)
  have hnonneg : 0 ≤ removed := (hpos removed (List.mem_of_getElem? hremoved)).le
  have hne : inv.amounts.eraseIdx idx ≠ [] := by
    rw [← List.length_pos_iff, List.length_eraseIdx_of_lt hlt]
    omega
  refine ⟨fun env creator t hrun => ?_, fun env hready hfits htotal => ?_⟩
  · obtain ⟨-, tokens, claimed, new, hnew, hstored⟩ := rebalanceRecipients_ok hload hlen hidx hremoved hrun
    have hspec := rebalanced_spec hnonneg hkept hne
    rw [← redistribute_ok hnonneg hkept hnew] at hspec
    exact ⟨_, hstored, rfl, hspec, hspec.sum.trans (amounts_sum hremoved)⟩
  · obtain ⟨new, hnew⟩ := redistribute_run hnonneg hkept hne hfits (by rwa [amounts_sum hremoved])
    have hothers : ∀ {α : Type} (xs : List α), xs.length = inv.recipients.length →
        othersOf inv.recipients.length idx xs = .ok (xs.eraseIdx idx) := by
      intro α xs hxs
      rw [← hxs]
      exact othersOf_eq xs (by omega)
    simp only [rebalanceRecipients, requireNotPaused_bind, requireAuth_bind, loadInvoice_bind, require_bind,
      orPanic_bind, ofResult_bind]
    exact ⟨_, hready.running, hready.auth, inv, hload, hpending, hready.undisputed, rfl, hunfunded, hthree, idx,
      hidx, removed, unwrap_ok.2 hremoved, _, hothers _ rfl, _, hothers _ hlen, _, hothers _ hready.tokens, _,
      hothers _ hready.claimed, new, hnew, saveInvoice_ok.2 ⟨hready.quota _, rfl⟩⟩

/-- Three recipients of 50, 30 and 21. -/
def threeShares : Invoice :=
  { sampleInvoice with
    recipients := [10, 11, 12]
    amounts := [50, 30, 21]
    tokens := [9, 9, 9]
    claimed := [0, 0, 0] }

/-- Recipient 12 goes: of its 21, 13 and 7 are parts, and the unit left is for the first recipient. -/
theorem rebalance_sample :
    ((commit (rebalanceRecipients (sampleEnv 10 0) 2 1 12) (sampleStore threeShares [])).entries 1).load.map
        Invoice.amounts = some [64, 37] ∧
      (∀ env creator t, rebalanceRecipients env creator 1 12 (sampleStore threeShares []) = .ok ((), t) →
        ∃ inv', (t.entries 1).load = some inv' ∧ inv'.recipients = threeShares.recipients.eraseIdx 2 ∧
          Rebalanced 21 (threeShares.amounts.eraseIdx 2) inv'.amounts ∧
            inv'.amounts.sum = threeShares.amounts.sum) ∧
      (∀ env, Ready env threeShares → (∀ a ∈ threeShares.amounts.eraseIdx 2, InI128 (21 * a)) →
        threeShares.amounts.sum ≤ i128Max →
        ∃ t, rebalanceRecipients env threeShares.creator 1 12 (sampleStore threeShares []) = .ok ((), t)) :=
  ⟨by decide +kernel, rebalance_law rfl rfl rfl (by decide) rfl (by decide) (by decide) rfl⟩

end Call

end StellarSplit.Split.Rebalance
