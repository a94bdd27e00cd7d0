import StellarSplit.Lib.Runs
import StellarSplit.Split.Verification

/-!
# Drip claims

What a recipient of a drip invoice has claimed is what had vested at its last claim that
returned: each claim pays the difference to what had vested at the one before, so the
payments to a recipient add up to what it has claimed, and that is at most its amount.
-/

namespace StellarSplit.Split.Drip

open Exec Machine Verification

variable {env : Env} {s t : Store} {v : Unit} {id : ℕ} {inv : Invoice} {recipient : Address}
  {releasedAt : Option ℕ}

/-! ## One claim -/

/-- The part of an amount that vests in a time, in whole units. -/
def vested (amount : ℤ) (elapsed dripDuration : ℕ) : ℤ :=
  if dripDuration ≤ elapsed then amount else elapsed * amount / dripDuration

theorem vested_le {amount : ℤ} (hamount : 0 ≤ amount) (elapsed dripDuration : ℕ) :
    vested amount elapsed dripDuration ≤ amount := by
  unfold vested
  split_ifs with hover
  · exact le_rfl
  · have hlt : elapsed < dripDuration := Nat.lt_of_not_le hover
    have hpos : (0 : ℤ) < dripDuration := by omega
    apply Int.ediv_le_of_le_mul hpos
    rw [mul_comm amount]
    exact mul_le_mul_of_nonneg_right (by exact_mod_cast hlt.le) hamount

theorem vestedAmount_eq {amount x : ℤ} {elapsed dripDuration : ℕ} (hamount : 0 ≤ amount)
    (h : vestedAmount amount elapsed dripDuration = .ok x) : x = vested amount elapsed dripDuration := by
  unfold vestedAmount at h
  unfold vested
  split_ifs at h ⊢ with hover hfits
  · exact (Except.ok.inj h).symm
  · rw [← Except.ok.inj h]
    exact Int.tdiv_eq_ediv_of_nonneg (mul_nonneg (Int.natCast_nonneg _) hamount)

/-- The movement of a claim. -/
structure PaysOut (id : ℕ) (inv : Invoice) (recipient : Address) (amount : ℤ) (m : Transfer Memo) : Prop where
  token : inv.tokens.head? = some m.token
  src : m.src = currentContract
  dst : m.dst = recipient
  memo : m.memo = ⟨id, .payout⟩
  amount_eq : m.amount = amount

/-- A claim that returns pays the recipient what vested beyond what it had claimed, and marks it. -/
theorem dripClaim_ok (hload : (s.entries id).load = some inv)
    (hrun : dripClaim env releasedAt id recipient s = .ok (v, t)) :
    ∃ duration released idx amount claimed x m, inv.dripDuration = some duration ∧ releasedAt = some released ∧
      inv.recipients.findIdx? (· = recipient) = some idx ∧ inv.amounts[idx]? = some amount ∧
      inv.claimed[idx]? = some claimed ∧ vestedAmount amount (env.now - released) duration = .ok x ∧
      claimed < x ∧ PaysOut id inv recipient (x - claimed) m ∧
      (t.entries id).load = some (inv.withClaimed (inv.claimed.set idx x)) ∧ t.log = m :: s.log := by
  simp only [dripClaim, loadInvoice_bind, require_bind, orPanic_bind, ofResult_bind] at hrun
  obtain ⟨inv', hload', -, duration, hduration, released, hreleased, idx, hidx, amount, hamount, claimed,
    hclaimed, x, hx, -, hpos, hrun⟩ := hrun
  obtain rfl := Option.some.inj (hload.symm.trans hload')
  obtain ⟨_, u, hsave, hrun⟩ := bind_ok.1 hrun
  obtain ⟨token, htoken, hrun⟩ := orPanic_bind.1 hrun
  obtain ⟨-, rfl⟩ := saveInvoice_ok.1 hsave
  obtain ⟨-, rfl⟩ := transfer_ok.1 hrun
  refine ⟨duration, released, idx, amount, claimed, x, _, hduration, hreleased, hidx, unwrap_ok.1 hamount,
    unwrap_ok.1 hclaimed, hx, by omega, ⟨htoken, rfl, rfl, rfl, rfl⟩, ?_, rfl⟩
  obtain ⟨stored, -, rfl⟩ := Option.map_eq_some_iff.1 hload
  change ((s.setEntry id _).entries id).load = _
  rw [Store.setEntry_self]
  rfl

/-! ## Runs of claims -/

def dripStep (releasedAt : Option ℕ) (id : ℕ) (c : Env × Address) : SplitM Unit :=
  dripClaim c.1 releasedAt id c.2

/-- The claims of a run that return, in their order. -/
def succeeded (releasedAt : Option ℕ) (id : ℕ) (s : Store) (calls : List (Env × Address)) :
    List (Env × Address) :=
  (returned (dripStep releasedAt id) s calls).map Prod.fst

/-- What the contract paid a recipient. -/
def paidTo (recipient : Address) (log : List (Transfer Memo)) : ℤ :=
  tally (fun m => m.src = currentContract ∧ m.dst = recipient) log

/-- The store after claims that returned, against the invoice and the log before them. -/
structure Dripped (releasedAt : Option ℕ) (id : ℕ) (inv : Invoice) (log : List (Transfer Memo))
    (claims : List (Env × Address)) (claimed : List ℤ) (new : List (Transfer Memo)) (t : Store) : Prop where
  load : (t.entries id).load = some (inv.withClaimed claimed)
  log_eq : t.log = new ++ log
  paid : List.Forall₂ (fun c m => ∃ amount, 0 < amount ∧ PaysOut id inv c.2 amount m) claims new.reverse
  total : ∀ recipient idx, inv.recipients.findIdx? (· = recipient) = some idx →
    paidTo recipient new = claimed.getD idx 0 - inv.claimed.getD idx 0
  untouched : ∀ recipient idx, inv.recipients.findIdx? (· = recipient) = some idx →
    (∀ c ∈ claims, c.2 ≠ recipient) → claimed.getD idx 0 = inv.claimed.getD idx 0
  last : ∀ recipient idx amount, inv.recipients.findIdx? (· = recipient) = some idx →
    inv.amounts[idx]? = some amount → 0 ≤ amount →
    ∀ c, (claims.filter (·.2 = recipient)).getLast? = some c →
      ∃ duration released, inv.dripDuration = some duration ∧ releasedAt = some released ∧
        claimed.getD idx 0 = vested amount (c.1.now - released) duration

variable {log new : List (Transfer Memo)} {claims : List (Env × Address)} {claimed : List ℤ}

theorem dripped_nil (hload : (s.entries id).load = some inv) :
    Dripped releasedAt id inv s.log [] inv.claimed [] s where
  load := hload
  log_eq := rfl
  paid := .nil
  total _ _ _ := (sub_self _).symm
  untouched _ _ _ _ := rfl
  last _ _ _ _ _ _ _ hc := by cases hc

theorem eq_of_findIdx? {recipients : List Address} {r r' : Address} {i : ℕ}
    (h : recipients.findIdx? (· = r) = some i) (h' : recipients.findIdx? (· = r') = some i) : r' = r := by
  obtain ⟨_, hr, -⟩ := List.findIdx?_eq_some_iff_getElem.1 h
  obtain ⟨_, hr', -⟩ := List.findIdx?_eq_some_iff_getElem.1 h'
  rw [← of_decide_eq_true hr, ← of_decide_eq_true hr']

theorem Dripped.step {c : Env × Address} (h : Dripped releasedAt id inv log claims claimed new s)
    (hrun : dripStep releasedAt id c s = .ok (v, t)) :
    ∃ claimed' new', Dripped releasedAt id inv log (claims ++ [c]) claimed' new' t := by
  obtain ⟨duration, released, i, amount, before, x, m, hduration, hreleased, hi, hamount, hbefore, hx, hlt,
    hpays, hload, hlog⟩ := dripClaim_ok h.load hrun
  have hlen : i < claimed.length := (List.getElem?_eq_some_iff.1 hbefore).1
  have hclaimed : claimed.getD i 0 = before := by
    rw [List.getD_eq_getElem?_getD, show claimed[i]? = some before from hbefore, Option.getD_some]
  have hself : (claimed.set i x).getD i 0 = x := by
    rw [List.getD_eq_getElem?_getD, List.getElem?_set_self hlen, Option.getD_some]
  have hother : ∀ j, j ≠ i → (claimed.set i x).getD j 0 = claimed.getD j 0 := by
    intro j hj
    rw [List.getD_eq_getElem?_getD, List.getElem?_set_ne hj.symm, List.getD_eq_getElem?_getD]
  refine ⟨claimed.set i x, m :: new, hload, by rw [hlog, h.log_eq]; rfl, ?_, ?_, ?_, ?_⟩
  · rw [List.reverse_cons]
    exact List.rel_append h.paid (.cons ⟨x - before, by omega, hpays.token, hpays.src, hpays.dst, hpays.memo,
      hpays.amount_eq⟩ .nil)
  · intro r j hj
    have htotal := h.total r j hj
    unfold paidTo at htotal ⊢
    rw [tally_cons]
    by_cases hr : c.2 = r
    · subst hr
      obtain rfl := Option.some.inj (hi.symm.trans hj)
      rw [if_pos (by simp [hpays.src, hpays.dst]), htotal, hself, hclaimed, hpays.amount_eq]
      omega
    · have hji : j ≠ i := by
        rintro rfl
        exact hr (eq_of_findIdx? hj hi)
      rw [if_neg (by simp [hpays.dst, hr]), zero_add, htotal, hother j hji]
  · intro r j hj hnone
    have hr : c.2 ≠ r := hnone c (by simp)
    have hji : j ≠ i := by
      rintro rfl
      exact hr (eq_of_findIdx? hj hi)
    rw [hother j hji]
    exact h.untouched r j hj fun d hd => hnone d (List.mem_append_left _ hd)
  · intro r j total hj htotal hpos d hd
    rw [List.filter_append] at hd
    by_cases hr : c.2 = r
    · subst hr
      obtain rfl := Option.some.inj (hi.symm.trans hj)
      obtain rfl := Option.some.inj (hamount.symm.trans htotal)
      rw [List.filter_cons_of_pos (by simp), List.filter_nil, List.getLast?_concat] at hd
      obtain rfl := Option.some.inj hd
      exact ⟨duration, released, hduration, hreleased, hself.trans (vestedAmount_eq hpos hx)⟩
    · have hji : j ≠ i := by
        rintro rfl
        exact hr (eq_of_findIdx? hj hi)
      rw [List.filter_cons_of_neg (by simpa using hr), List.filter_nil, List.append_nil] at hd
      obtain ⟨duration', released', hduration', hreleased', heq⟩ := h.last r j total hj htotal hpos d hd
      exact ⟨duration', released', hduration', hreleased', (hother j hji).trans heq⟩

theorem dripped_after (releasedAt : Option ℕ) (hload : (s.entries id).load = some inv) (calls : List (Env × Address)) :
    ∃ claimed new, Dripped releasedAt id inv s.log (succeeded releasedAt id s calls) claimed new
      (runAll (dripStep releasedAt id) s calls) := by
  apply runAll_returned (H := fun rs t => ∃ claimed new,
    Dripped releasedAt id inv s.log (rs.map Prod.fst) claimed new t) ⟨_, _, dripped_nil hload⟩
  · rintro rs t c v u ⟨claimed, new, h⟩ - hrun
    rw [List.map_append]
    exact h.step hrun
  · exact along_true _ s calls

/-! ## The law -/

/-- Over any claims on a drip invoice, each claim that returns makes one payment, of a positive amount
and to its recipient; what a recipient has claimed is what had vested at its last such claim; and the
payments to it are at most its amount. -/
theorem drip_claims_law (hload : (s.entries id).load = some inv) (hamounts : ∀ a ∈ inv.amounts, 0 ≤ a)
    (hclaimed : ∀ c ∈ inv.claimed, 0 ≤ c) (calls : List (Env × Address)) :
    ∃ claimed new,
      ((runAll (dripStep releasedAt id) s calls).entries id).load = some (inv.withClaimed claimed) ∧
      (runAll (dripStep releasedAt id) s calls).log = new ++ s.log ∧
      List.Forall₂ (fun c m => ∃ amount, 0 < amount ∧ PaysOut id inv c.2 amount m)
        (succeeded releasedAt id s calls) new.reverse ∧
      ∀ recipient idx amount, inv.recipients.findIdx? (· = recipient) = some idx →
        inv.amounts[idx]? = some amount →
        (∀ c, ((succeeded releasedAt id s calls).filter (·.2 = recipient)).getLast? = some c →
          ∃ duration released, inv.dripDuration = some duration ∧ releasedAt = some released ∧
            claimed.getD idx 0 = vested amount (c.1.now - released) duration) ∧
        paidTo recipient new = claimed.getD idx 0 - inv.claimed.getD idx 0 ∧
        paidTo recipient new ≤ amount := by
  obtain ⟨claimed, new, h⟩ := dripped_after releasedAt hload calls
  refine ⟨claimed, new, h.load, h.log_eq, h.paid, fun recipient idx amount hidx hamount => ?_⟩
  have hpos : 0 ≤ amount := hamounts amount (List.mem_of_getElem? hamount)
  refine ⟨h.last recipient idx amount hidx hamount hpos, h.total recipient idx hidx, ?_⟩
  rw [h.total recipient idx hidx]
  have hstart : 0 ≤ inv.claimed.getD idx 0 := by
    rw [List.getD_eq_getElem?_getD]
    cases hc : inv.claimed[idx]? with
    | none => exact le_rfl
    | some c => exact hclaimed c (List.mem_of_getElem? hc)
  cases hlast : ((succeeded releasedAt id s calls).filter (·.2 = recipient)).getLast? with
  | some c =>
      obtain ⟨duration, released, -, -, heq⟩ := h.last recipient idx amount hidx hamount hpos c hlast
      have hle := vested_le hpos (c.1.now - released) duration
      omega
  | none =>
      have hnone : ∀ c ∈ succeeded releasedAt id s calls, c.2 ≠ recipient := by
        rw [List.getLast?_eq_none_iff, List.filter_eq_nil_iff] at hlast
        exact fun c hc => by simpa using hlast c hc
      have heq := h.untouched recipient idx hidx hnone
      omega

/-- A released invoice that pays its recipients over 100 seconds. -/
def drippingInvoice : Invoice :=
  { sampleInvoice with status := .released, funded := 100, dripDuration := some 100, claimed := [0, 0] }

/-- Recipient 10 claims at 33 and 200 seconds after the release, and recipient 11 in between. -/
def dripCalls : List (Env × Address) := [(sampleEnv 1033 100, 10), (sampleEnv 1050 100, 11), (sampleEnv 1200 100, 10)]

theorem drip_claims_sample :
    (runAll (dripStep (some 1000) 1) (sampleStore drippingInvoice []) dripCalls).log.map
        (fun m => (m.dst, m.amount)) = [(10, 34), (11, 25), (10, 16)] ∧
      ∃ claimed new,
        ((runAll (dripStep (some 1000) 1) (sampleStore drippingInvoice []) dripCalls).entries 1).load =
          some (drippingInvoice.withClaimed claimed) ∧
        (runAll (dripStep (some 1000) 1) (sampleStore drippingInvoice []) dripCalls).log =
          new ++ (sampleStore drippingInvoice []).log ∧
        List.Forall₂ (fun c m => ∃ amount, 0 < amount ∧ PaysOut 1 drippingInvoice c.2 amount m)
          (succeeded (some 1000) 1 (sampleStore drippingInvoice []) dripCalls) new.reverse ∧
        ∀ recipient idx amount, drippingInvoice.recipients.findIdx? (· = recipient) = some idx →
          drippingInvoice.amounts[idx]? = some amount →
          (∀ c, ((succeeded (some 1000) 1 (sampleStore drippingInvoice []) dripCalls).filter
              (·.2 = recipient)).getLast? = some c →
            ∃ duration released, drippingInvoice.dripDuration = some duration ∧ some 1000 = some released ∧
              claimed.getD idx 0 = vested amount (c.1.now - released) duration) ∧
          paidTo recipient new = claimed.getD idx 0 - drippingInvoice.claimed.getD idx 0 ∧
          paidTo recipient new ≤ amount :=
  ⟨by decide +kernel, drip_claims_law rfl (by decide) (by decide) dripCalls⟩

end StellarSplit.Split.Drip
