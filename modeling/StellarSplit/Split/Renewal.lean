import StellarSplit.Lib.Proportion
import StellarSplit.Split.Lock
import StellarSplit.Split.Records

/-!
# The amounts of a renewed invoice

The successor of an expired invoice asks for what was missing, divided as before. The
shares are rounded down and the last recipient takes the rest, so the total is exact; a
share that is too small for one unit is zero, which the creation of an invoice refuses.
-/

namespace StellarSplit.Split.Renewal

open Exec Machine Proportion

/-! ## The loop over the amounts -/

section Loop

variable {carried total : ℤ} {n : ℕ}

/-- One round of the loop of `renew_invoice`. -/
def carryStep (carried total : ℤ) (n : ℕ) (acc : List ℤ × ℤ) (ai : ℤ × ℕ) : Result (List ℤ × ℤ) :=
  if ai.2 + 1 = n then .ok (acc.1 ++ [max (carried - acc.2) 0], acc.2 + (carried - acc.2))
  else do
    let share ← plainMulDiv (asU128 ai.1) (asU128 carried) (asU128 total)
    .ok (acc.1 ++ [max share 0], acc.2 + share)

/-- The loop from one of the amounts on: the shares before the last are parts, and the last is what
they leave. -/
theorem carry_ok {xs : List ℤ} {k : ℕ} {acc out : List ℤ × ℤ} (hne : xs ≠ []) (hk : k + xs.length = n)
    (hshares : ∀ a ∈ xs, ∀ x, plainMulDiv (asU128 a) (asU128 carried) (asU128 total) = .ok x →
      x = part carried total a)
    (h : (xs.zipIdx k).foldlM (carryStep carried total n) acc = .ok out) :
    out.1 = acc.1 ++ (xs.dropLast.map (part carried total) ++
      [carried - acc.2 - (xs.dropLast.map (part carried total)).sum]).map (max · 0) := by
  induction xs generalizing k acc with
  | nil => exact absurd rfl hne
  | cons a xs ih =>
      rw [List.zipIdx_cons, List.foldlM_cons] at h
      obtain ⟨next, hfirst, hrest⟩ := except_bind_ok.1 h
      unfold carryStep at hfirst
      cases xs with
      | nil =>
          rw [if_pos (show k + 1 = n from hk)] at hfirst
          obtain rfl := Except.ok.inj hfirst
          obtain rfl := Except.ok.inj hrest
          simp
      | cons b xs =>
          have hlonger : k + 1 + (b :: xs).length = n := by
            rw [← hk]
            simp only [List.length_cons]
            omega
          have hnotlast : ¬k + 1 = n := by
            rw [← hlonger, List.length_cons]
            omega
          rw [if_neg hnotlast] at hfirst
          obtain ⟨share, hshare, hnext⟩ := except_bind_ok.1 hfirst
          obtain rfl := Except.ok.inj hnext
          obtain rfl := hshares a (by simp) share hshare
          have hlater := ih (List.cons_ne_nil b xs) hlonger
            (fun c hc => hshares c (List.mem_cons_of_mem a hc)) hrest
          rw [hlater, List.dropLast_cons_cons, List.map_cons, List.sum_cons, List.cons_append, List.map_cons,
            List.append_assoc, List.singleton_append, sub_sub, sub_sub]
          dsimp only
          rw [add_assoc]

end Loop

theorem carriedAmounts_eq (inv : Invoice) :
    carriedAmounts inv =
      if 0 < max (satSubI128 inv.total inv.funded) 0 ∧ 0 < inv.total then
        (inv.amounts.zipIdx.foldlM
          (carryStep (max (satSubI128 inv.total inv.funded) 0) inv.total inv.amounts.length) ([], 0)).map Prod.fst
      else .ok inv.amounts := by
  unfold carriedAmounts
  dsimp only
  split_ifs
  · rfl
  · rfl

variable {inv : Invoice} {amounts : List ℤ}

/-- The amounts of the successor of an invoice that is not fully funded. -/
theorem carriedAmounts_ok (hpos : ∀ a ∈ inv.amounts, 0 < a) (hfunded : 0 ≤ inv.funded)
    (hmissing : inv.funded < inv.total) (htotal : inv.total ≤ i128Max)
    (h : carriedAmounts inv = .ok amounts) :
    amounts = partsWithRest (inv.total - inv.funded) inv.total inv.amounts := by
  have hcarried : max (satSubI128 inv.total inv.funded) 0 = inv.total - inv.funded := by
    unfold satSubI128 i128Min
    omega
  have hne : inv.amounts ≠ [] := by
    intro hnil
    have hzero : inv.total = 0 := by
      unfold Invoice.total
      rw [hnil]
      rfl
    omega
  have hle : ∀ a ∈ inv.amounts, a ≤ inv.total := fun a ha =>
    List.single_le_sum (fun b hb => (hpos b hb).le) a ha
  rw [carriedAmounts_eq, hcarried, if_pos ⟨by omega, by omega⟩] at h
  cases hloop : inv.amounts.zipIdx.foldlM
      (carryStep (inv.total - inv.funded) inv.total inv.amounts.length) ([], 0) with
  | error e =>
      rw [hloop] at h
      cases h
  | ok out =>
      rw [hloop] at h
      have hout := carry_ok hne (by simp) (fun a ha x hx =>
        plainMulDiv_eq_part ⟨by omega, by omega⟩ (hpos a ha).le (hle a ha) htotal
          ((plainMulDiv_comm _ _ _).trans hx)) hloop
      rw [← Except.ok.inj h, hout, List.nil_append, sub_zero]
      have hwhole : 0 < inv.total := by omega
      have hnonneg := partsWithRest_nonneg hwhole rfl (fun a ha => (hpos a ha).le) (sub_pos.2 hmissing).le
      exact (List.map_congr_left fun x hx => max_eq_left (hnonneg x hx)).trans (List.map_id' _)

/-! ## The successor -/

section Successor

variable {env : Env} {s t : Store} {id newId deadline : ℕ} {creator : Address} {old : Invoice}

theorem renewInvoice_stores (hid : id ≤ s.counter) (hload : (s.entries id).load = some old)
    (hrun : renewInvoice env creator id deadline s = .ok (newId, t)) :
    ∃ amounts new, carriedAmounts old = .ok amounts ∧ (t.entries newId).load = some new ∧
      new.amounts = amounts ∧ new.recipients = old.recipients := by
  obtain ⟨old', amounts, hload', hamounts, hrenewed⟩ := renewInvoice_ok hid hrun
  obtain rfl := Option.some.inj (hload.symm.trans hload')
  refine ⟨amounts, (successor old id amounts deadline).withPayments (s.entries newId).payments, hamounts, ?_, rfl, rfl⟩
  rw [hrenewed.successor]
  rfl

/-- The amounts of a successor: what was missing, one for each recipient, and none of them zero, as the
creation of an invoice asks. -/
structure CarriesMissing (old new : Invoice) : Prop where
  nonneg : ∀ x ∈ new.amounts, 0 ≤ x
  length : new.amounts.length = new.recipients.length
  sum : new.amounts.sum = old.total - old.funded
  pos : ∀ x ∈ new.amounts, 0 < x

/-- A renewal carries what was missing, and leaves no amount at zero exactly when the part of every
recipient but the last reaches one unit. -/
theorem renewal_carries_iff (hid : id ≤ s.counter) (hload : (s.entries id).load = some old)
    (hlen : old.amounts.length = old.recipients.length) (hpos : ∀ a ∈ old.amounts, 0 < a)
    (hfunded : 0 ≤ old.funded) (hmissing : old.funded < old.total) (htotal : old.total ≤ i128Max)
    (hrun : renewInvoice env creator id deadline s = .ok (newId, t)) :
    ∃ new, (t.entries newId).load = some new ∧
      ((∀ x ∈ new.amounts, 0 ≤ x) ∧ new.amounts.length = new.recipients.length ∧
        new.amounts.sum = old.total - old.funded) ∧
      (CarriesMissing old new ↔ ∀ a ∈ old.amounts.dropLast, old.total ≤ (old.total - old.funded) * a) := by
  obtain ⟨amounts, new, hcarried, hnew, hamounts, hrecipients⟩ := renewInvoice_stores hid hload hrun
  have hwhole : 0 < old.total := by omega
  have hcarry : 0 < old.total - old.funded := by omega
  have hne : old.amounts ≠ [] := by
    intro hnil
    have hzero : old.total = 0 := by
      unfold Invoice.total
      rw [hnil]
      rfl
    omega
  rw [carriedAmounts_ok hpos hfunded hmissing htotal hcarried] at hamounts
  have hnonneg : ∀ x ∈ new.amounts, 0 ≤ x := by
    rw [hamounts]
    exact partsWithRest_nonneg hwhole rfl (fun a ha => (hpos a ha).le) hcarry.le
  have hlength : new.amounts.length = new.recipients.length := by
    rw [hamounts, hrecipients, length_partsWithRest hne, hlen]
  have hsum : new.amounts.sum = old.total - old.funded := by
    rw [hamounts, sum_partsWithRest]
  have hiff : (∀ x ∈ new.amounts, 0 < x) ↔ ∀ a ∈ old.amounts.dropLast, old.total ≤ (old.total - old.funded) * a := by
    rw [hamounts]
    exact partsWithRest_pos_iff hwhole rfl hpos hcarry
  refine ⟨new, hnew, ⟨hnonneg, hlength, hsum⟩, fun h => hiff.1 h.pos, fun h => ?_⟩
  exact ⟨hnonneg, hlength, hsum, hiff.2 h⟩

/-- Of 100 units for two recipients 40 are paid. -/
def partlyPaid : Invoice := { sampleInvoice with funded := 40 }

theorem renewal_sample :
    ∃ t, renewInvoice (sampleEnv 2000 0) 2 1 5000 (sampleStore partlyPaid []) = .ok (2, t) ∧
      ∃ new, (t.entries 2).load = some new ∧
        ((∀ x ∈ new.amounts, 0 ≤ x) ∧ new.amounts.length = new.recipients.length ∧
          new.amounts.sum = partlyPaid.total - partlyPaid.funded) ∧
        (CarriesMissing partlyPaid new ↔
          ∀ a ∈ partlyPaid.amounts.dropLast, partlyPaid.total ≤ (partlyPaid.total - partlyPaid.funded) * a) := by
  obtain ⟨t, hrun⟩ : ∃ t, renewInvoice (sampleEnv 2000 0) 2 1 5000 (sampleStore partlyPaid []) = .ok (2, t) :=
    ⟨_, rfl⟩
  have hid : 1 ≤ (sampleStore partlyPaid []).counter := by decide
  have hload : ((sampleStore partlyPaid []).entries 1).load = some partlyPaid := rfl
  exact ⟨t, hrun, renewal_carries_iff hid hload rfl (by decide) (by decide) (by decide) (by decide) hrun⟩

/-- Of 101 units, 1 of them for the first recipient, 99 are paid. -/
def nearlyPaid : Invoice := { sampleInvoice with amounts := [1, 100], funded := 99 }

/-- The successor asks for nothing for the first recipient. -/
theorem renewal_carries_fails :
    ∃ t new, renewInvoice (sampleEnv 2000 0) 2 1 5000 (sampleStore nearlyPaid []) = .ok (2, t) ∧
      (t.entries 2).load = some new ∧ new.amounts = [0, 2] ∧ ¬CarriesMissing nearlyPaid new := by
  refine ⟨_, _, rfl, rfl, by decide +kernel, fun h => ?_⟩
  have hzero := h.pos 0 (by decide +kernel)
  exact lt_irrefl 0 hzero

end Successor

end StellarSplit.Split.Renewal
