import StellarSplit.Split.Records

/-!
# Who ends a dispute, and how often

A dispute of the arbiter is gated by the flag alone, and neither branch of its
resolution takes the flag away, so that every resolution that goes through can
be followed by another one. A dispute of a payer is ended by any address that
signs for itself: whether that address is an administrator is never looked at.
-/

namespace StellarSplit.Split

open Exec Function

variable {env : Env} {s t : Store} {v : Unit} {id : ℕ} {inv : Invoice} {actor : Address}

/-! ## What a release stores -/

/-- The record a release of `inv` stores. -/
structure Invoice.Closes (inv stored : Invoice) : Prop where
  terms : stored.terms = inv.terms
  funded : stored.funded = inv.funded
  disputed : stored.disputed = inv.disputed

theorem Invoice.Closes.refl (inv : Invoice) : inv.Closes inv := ⟨rfl, rfl, rfl⟩

section Updates

variable {stored : Invoice} (h : inv.Closes stored)

include h

theorem Invoice.Closes.withPayments (payments : List Payment) : inv.Closes (stored.withPayments payments) :=
  ⟨h.terms, h.funded, h.disputed⟩

theorem Invoice.Closes.withStatus (status : InvoiceStatus) : inv.Closes (stored.withStatus status) :=
  ⟨h.terms, h.funded, h.disputed⟩

theorem Invoice.Closes.completed (status : InvoiceStatus) (now : ℕ) :
    inv.Closes (stored.completed status now) := ⟨h.terms, h.funded, h.disputed⟩

theorem Invoice.Closes.withReleasedBps (bps : ℕ) : inv.Closes (stored.withReleasedBps bps) :=
  ⟨h.terms, h.funded, h.disputed⟩

theorem Invoice.Closes.insurancePaid : inv.Closes stored.insurancePaid :=
  ⟨h.terms, h.funded, h.disputed⟩

end Updates

/-- The status a release leaves: released, partially released, or the one it found. -/
def Invoice.LeftIn (inv stored : Invoice) : Prop :=
  stored.status = .released ∨ stored.status = .partiallyReleased ∨ stored.status = inv.status

theorem finishTranches_stores {bps : ℕ} {failed : Bool} {amount : ℤ}
    (hrun : finishTranches env id inv bps failed amount s = .ok (v, t)) :
    ∃ stored, (t.entries id).invoice = some stored ∧ inv.Closes stored ∧ inv.LeftIn stored ∧
      (10000 ≤ bps → stored.status = .released) := by
  unfold finishTranches at hrun
  split_ifs at hrun with hlast
  · obtain ⟨_, u, -, hsave⟩ := bind_ok.1 hrun
    refine ⟨_, saveInvoice_stored hsave, ?_, .inl rfl, fun _ => rfl⟩
    exact (((Invoice.Closes.refl inv).insurancePaid.withReleasedBps bps).completed _ _).withPayments []
  · refine ⟨_, saveInvoice_stored hrun, ?_, ?_, fun h => absurd h hlast⟩
    · exact (((Invoice.Closes.refl inv).withReleasedBps bps).withStatus _).withPayments []
    · cases failed with
      | true => exact .inr (.inl rfl)
      | false => exact .inr (.inr rfl)

theorem finishTranches_closes {bps : ℕ} {failed : Bool} {amount : ℤ}
    (hrun : finishTranches env id inv bps failed amount s = .ok (v, t)) :
    ∃ stored, (t.entries id).invoice = some stored ∧ inv.Closes stored := by
  obtain ⟨stored, hstored, hcloses, -⟩ := finishTranches_stores hrun
  exact ⟨stored, hstored, hcloses⟩

theorem releaseTranches_stores (hrun : releaseTranches env id inv s = .ok (v, t)) :
    ∃ stored, (t.entries id).invoice = some stored ∧ inv.Closes stored ∧ inv.LeftIn stored ∧
      (10000 ≤ inv.releasedBps + newlyUnlocked env inv → stored.status = .released) := by
  simp only [releaseTranches, bind_ok] at hrun
  obtain ⟨_, _, -, _, _, -, _, _, -, _, _, -, _, _, -, _, _, -, hfinish⟩ := hrun
  exact finishTranches_stores hfinish

theorem releaseStatus_left (e : Entry) (failed : Bool) :
    releaseStatus e inv failed = .released ∨ releaseStatus e inv failed = .partiallyReleased ∨
      releaseStatus e inv failed = inv.status := by
  unfold releaseStatus
  split_ifs <;> simp

/-- Whatever a release pays on its way, it ends with saving the invoice it was given. -/
theorem releaseWithin_stores {depth : ℕ} (hrun : releaseWithin env depth id inv actor s = .ok (v, t)) :
    ∃ stored, (t.entries id).invoice = some stored ∧ inv.Closes stored ∧ inv.LeftIn stored := by
  rcases releaseWithin_ok hrun with ⟨-, depth, hfull⟩ | ⟨-, htranches⟩
  · obtain ⟨_, _, failed, _, _, _, u, -, -, -, -, -, -, hfinish⟩ := releaseFull_passes hfull
    obtain ⟨-, hentries⟩ := finishRelease_ok hfinish
    have hstored : (t.entries id).invoice = some ((inv.insurancePaid.completed
        (releaseStatus (u.entries id) inv failed) env.now).withPayments []) := by
      rw [hentries, Store.setEntry_self]
    refine ⟨_, hstored, ((Invoice.Closes.refl inv).insurancePaid.completed _ _).withPayments [], ?_⟩
    exact releaseStatus_left (u.entries id) failed
  · obtain ⟨stored, hstored, hcloses, hleft, -⟩ := releaseTranches_stores htranches
    exact ⟨stored, hstored, hcloses, hleft⟩

theorem releaseAs_closes (hrun : releaseAs env id inv actor s = .ok (v, t)) :
    ∃ stored, (t.entries id).invoice = some stored ∧ inv.Closes stored := by
  obtain ⟨stored, hstored, hcloses, -⟩ := releaseWithin_stores hrun
  exact ⟨stored, hstored, hcloses⟩

/-! ## The arbiter -/

/-- The stored invoice is marked as disputed. -/
def Disputed (id : ℕ) (s : Store) : Prop := ∃ inv, (s.entries id).invoice = some inv ∧ inv.disputed = true

theorem disputed_of_save (hrun : saveInvoice env id inv s = .ok (v, t)) (hflag : inv.disputed = true) :
    Disputed id t := ⟨_, saveInvoice_stored hrun, hflag⟩

theorem arbiterRefund_disputed (hflag : inv.disputed = true)
    (hrun : arbiterRefund env id inv s = .ok (v, t)) : Disputed id t := by
  unfold arbiterRefund at hrun
  split_ifs at hrun with hnone
  · exact disputed_of_save hrun hflag
  · obtain ⟨token, -, hrun⟩ := orPanic_bind.1 hrun
    obtain ⟨_, u₁, -, hrun⟩ := bind_ok.1 hrun
    obtain ⟨_, u₂, -, hrun⟩ := bind_ok.1 hrun
    obtain ⟨_, u₃, hsave, hcount⟩ := bind_ok.1 hrun
    have hchange : Change ∅ noMemo u₃ t := change_of_framed inferInstance hcount
    have hsaved : Disputed id u₃ := ⟨_, saveInvoice_stored hsave, hflag⟩
    obtain ⟨stored, hstored, hdisputed⟩ := hsaved
    exact ⟨stored, by rw [hchange.entries id (by simp), hstored], hdisputed⟩

/-- Neither branch of a resolution takes the flag away. -/
theorem resolveDispute_disputed {arbiter : Address} {resolution : ResolveAction}
    (hrun : resolveDispute env id arbiter resolution s = .ok (v, t)) : Disputed id t := by
  simp only [resolveDispute, requireNotPaused_bind, requireAuth_bind, loadInvoice_bind, require_bind] at hrun
  obtain ⟨-, -, inv, -, -, hflag, hrun⟩ := hrun
  cases resolution with
  | refund => exact arbiterRefund_disputed hflag hrun
  | release =>
      obtain ⟨stored, hstored, hcloses⟩ := releaseAs_closes hrun
      exact ⟨stored, hstored, hcloses.disputed.trans hflag⟩

/-- The calls of the arbiter on one invoice. -/
inductive ArbiterCall where
  | raise (arbiter : Address)
  | resolve (arbiter : Address) (resolution : ResolveAction)
deriving DecidableEq

def arbiterStep (id : ℕ) (c : Env × ArbiterCall) : SplitM Unit :=
  match c.2 with
  | .raise arbiter => raiseDispute c.1 id arbiter
  | .resolve arbiter resolution => resolveDispute c.1 id arbiter resolution

def ArbiterCall.resolves : ArbiterCall → Bool
  | .raise _ => false
  | .resolve _ _ => true

/-- What a call resolves the dispute to, when it goes through. -/
def resolutionOf (id : ℕ) (s : Store) (c : Env × ArbiterCall) : Option ResolveAction :=
  match c.2, arbiterStep id c s with
  | .resolve _ resolution, .ok _ => some resolution
  | _, _ => none

/-- How many calls of the run resolve the dispute in a way of `which`. -/
def resolutionsIn (which : ResolveAction → Bool) (id : ℕ) : Store → List (Env × ArbiterCall) → ℕ
  | _, [] => 0
  | s, c :: cs =>
      (if (resolutionOf id s c).any which then 1 else 0) +
        resolutionsIn which id (commit (arbiterStep id c) s) cs

/-- The refunds of a run return what a payer has on record at most once, and one release at
most pays the recipients. -/
structure PaidOnce (id : ℕ) (s : Store) (calls : List (Env × ArbiterCall)) : Prop where
  refunds : ∀ p, refundedTo id p (runAll (arbiterStep id) s calls) ≤
    refundedTo id p s + max (paidBy (s.entries id).payments p) 0
  releases : resolutionsIn (· = .release) id s calls ≤ 1

/-- A run of the arbiter's calls is final: everyone is paid at most once, and no resolution that
goes through leaves the invoice disputed. -/
structure FinalRun (id : ℕ) (s : Store) (calls : List (Env × ArbiterCall)) : Prop where
  once : PaidOnce id s calls
  closed : Along (fun u c => c.2.resolves = true → ¬Disputed id (commit (arbiterStep id c) u))
    (arbiterStep id) s calls

theorem resolutionsIn_le (which : ResolveAction → Bool) (id : ℕ) (s : Store)
    (calls : List (Env × ArbiterCall)) :
    resolutionsIn which id s calls ≤ resolutionsIn (fun _ => true) id s calls := by
  induction calls generalizing s with
  | nil => exact le_rfl
  | cons c calls ih =>
      unfold resolutionsIn
      refine Nat.add_le_add ?_ (ih _)
      cases resolutionOf id s c with
      | none => simp
      | some resolution => split <;> simp

theorem resolutionOf_some {c : Env × ArbiterCall} {resolution : ResolveAction}
    (h : resolutionOf id s c = some resolution) :
    ∃ arbiter t, c.2 = .resolve arbiter resolution ∧
      resolveDispute c.1 id arbiter resolution s = .ok ((), t) ∧ commit (arbiterStep id c) s = t := by
  obtain ⟨env, call⟩ := c
  cases call with
  | raise arbiter => cases h
  | resolve arbiter chosen =>
      cases hrun : arbiterStep id (env, .resolve arbiter chosen) s with
      | error f => simp [resolutionOf, hrun] at h
      | ok r =>
          obtain rfl : chosen = resolution := by simpa [resolutionOf, hrun] using h
          exact ⟨arbiter, r.2, rfl, hrun, commit_ok hrun⟩

theorem raiseDispute_ok {arbiter : Address} (hrun : raiseDispute env id arbiter s = .ok (v, t)) :
    t.log = s.log ∧ (t.entries id).payments = (s.entries id).payments := by
  simp only [raiseDispute, requireNotPaused_bind, requireAuth_bind, loadInvoice_bind, require_bind] at hrun
  obtain ⟨-, -, inv, -, -, -, -, hrun⟩ := hrun
  obtain ⟨-, rfl⟩ := saveInvoice_ok.1 hrun
  refine ⟨rfl, ?_⟩
  rw [Store.setEntry_self]
  rfl

/-- A call that resolves nothing moves nothing and leaves the record alone. -/
theorem resolutionOf_none {c : Env × ArbiterCall} (h : resolutionOf id s c = none) :
    (commit (arbiterStep id c) s).log = s.log ∧
      ((commit (arbiterStep id c) s).entries id).payments = (s.entries id).payments := by
  rcases commit_cases (arbiterStep id c) s with ⟨a, hrun⟩ | ⟨-, hsame⟩
  · obtain ⟨env, call⟩ := c
    cases call with
    | raise arbiter => exact raiseDispute_ok hrun
    | resolve arbiter resolution => simp [resolutionOf, hrun] at h
  · rw [hsame]
    exact ⟨rfl, rfl⟩

theorem log_of_unresolved {calls : List (Env × ArbiterCall)}
    (h : resolutionsIn (fun _ => true) id s calls = 0) :
    (runAll (arbiterStep id) s calls).log = s.log := by
  induction calls generalizing s with
  | nil => rfl
  | cons c calls ih =>
      unfold resolutionsIn at h
      obtain ⟨hfirst, hrest⟩ := Nat.add_eq_zero_iff.1 h
      have hnone : resolutionOf id s c = none := by
        cases hc : resolutionOf id s c with
        | none => rfl
        | some resolution => simp [hc] at hfirst
      rw [runAll_cons, ih hrest]
      exact (resolutionOf_none hnone).1

/-! ### One resolution -/

theorem refundedTo_grows {M : Memo → Prop} (h : Grows M s t) (hM : ¬M ⟨id, .refund⟩) (p : Address) :
    refundedTo id p t = refundedTo id p s := by
  refine h.tally fun m hm => ?_
  have hmemo : m.memo ≠ ⟨id, .refund⟩ := by
    intro heq
    rw [heq] at hm
    exact hM hm
  simp [hmemo]

theorem arbiterRefund_refundedTo (hload : (s.entries id).load = some inv)
    (hrun : arbiterRefund env id inv s = .ok (v, t)) (p : Address) :
    refundedTo id p t ≤ refundedTo id p s + max (paidBy (s.entries id).payments p) 0 := by
  have hpayments : inv.payments = (s.entries id).payments := by
    obtain ⟨stored, -, rfl⟩ := Option.map_eq_some_iff.1 hload
    rfl
  have hmax : paidBy (s.entries id).payments p ≤ max (paidBy (s.entries id).payments p) 0 :=
    le_max_left _ _
  have hzero : 0 ≤ max (paidBy (s.entries id).payments p) 0 := le_max_right _ _
  unfold arbiterRefund at hrun
  split_ifs at hrun with hnone
  · obtain ⟨-, rfl⟩ := saveInvoice_ok.1 hrun
    have hsame : refundedTo id p (s.setEntry id { s.entries id with
        invoice := some ((inv.withStatus .cancelled).withPayments []) }) = refundedTo id p s := rfl
    rw [hsame]
    linarith
  · obtain ⟨token, -, hrun⟩ := orPanic_bind.1 hrun
    obtain ⟨_, u, hsend, hrun⟩ := bind_ok.1 hrun
    have hbonus : Moves (Grows fun memo => memo.purpose = .bonus) ⟨id, .bonus⟩ := moves_grows rfl
    have hrest : Framed (Grows fun memo => memo.purpose = .bonus) (do
        returnBonus env id inv token
        saveInvoice env id (inv.completed .refunded env.now)
        addTotalRefunded (sumOf (totalsOf inv.payments))) := by
      unfold returnBonus
      infer_instance
    rw [refundedTo_grows (hrest.respects u v t hrun) (by simp), (refundTotals_sent hsend).refunds,
      sumTo_totalsOf, hpayments]
    linarith

/-- A resolution returns what is on record at most once; a release returns nothing. -/
theorem resolveDispute_refundedTo {arbiter : Address} {resolution : ResolveAction}
    (hrun : resolveDispute env id arbiter resolution s = .ok (v, t)) (p : Address) :
    refundedTo id p t ≤ refundedTo id p s + max (paidBy (s.entries id).payments p) 0 := by
  simp only [resolveDispute, requireNotPaused_bind, requireAuth_bind, loadInvoice_bind, require_bind] at hrun
  obtain ⟨-, -, inv, hload, -, -, hrun⟩ := hrun
  cases resolution with
  | refund => exact arbiterRefund_refundedTo hload hrun p
  | release =>
      rw [refundedTo_grows (releaseAs_grows hrun) (by simp [Purpose.ofRelease])]
      have hzero : 0 ≤ max (paidBy (s.entries id).payments p) 0 := le_max_right _ _
      linarith

theorem paidOnce_of_one {calls : List (Env × ArbiterCall)}
    (h : resolutionsIn (fun _ => true) id s calls ≤ 1) : PaidOnce id s calls := by
  refine ⟨fun p => ?_, (resolutionsIn_le _ id s calls).trans h⟩
  induction calls generalizing s with
  | nil =>
      have hzero : 0 ≤ max (paidBy (s.entries id).payments p) 0 := le_max_right _ _
      rw [runAll_nil]
      linarith
  | cons c calls ih =>
      unfold resolutionsIn at h
      rw [runAll_cons]
      cases hc : resolutionOf id s c with
      | none =>
          obtain ⟨hlog, hpayments⟩ := resolutionOf_none hc
          have hrest := ih (s := commit (arbiterStep id c) s) (by simpa [hc] using h)
          have hsame : refundedTo id p (commit (arbiterStep id c) s) = refundedTo id p s := by
            unfold refundedTo
            rw [hlog]
          rwa [hpayments, hsame] at hrest
      | some resolution =>
          -- this is the one resolution, so the rest of the run moves nothing
          obtain ⟨arbiter, t, -, hrun, hcommit⟩ := resolutionOf_some hc
          have hnone : resolutionsIn (fun _ => true) id (commit (arbiterStep id c) s) calls = 0 := by
            simp [hc] at h
            omega
          have hquiet : refundedTo id p (runAll (arbiterStep id) (commit (arbiterStep id c) s) calls) =
              refundedTo id p t := by
            unfold refundedTo
            rw [log_of_unresolved hnone, hcommit]
          rw [hquiet]
          exact resolveDispute_refundedTo hrun p

/-! ### Finality -/

theorem FinalRun.unresolved {calls : List (Env × ArbiterCall)}
    (h : Along (fun u c => c.2.resolves = true → ¬Disputed id (commit (arbiterStep id c) u))
      (arbiterStep id) s calls) :
    resolutionsIn (fun _ => true) id s calls = 0 := by
  induction calls generalizing s with
  | nil => rfl
  | cons c calls ih =>
      obtain ⟨hfirst, hrest⟩ := h
      unfold resolutionsIn
      rw [ih hrest]
      cases hc : resolutionOf id s c with
      | none => rfl
      | some resolution =>
          -- the resolution goes through, so the invoice is still disputed after it
          obtain ⟨arbiter, t, hcall, hrun, hcommit⟩ := resolutionOf_some hc
          have hstep : arbiterStep id c s = .ok ((), t) := by
            unfold arbiterStep
            rw [hcall]
            exact hrun
          have hopen := hfirst ⟨_, hstep⟩ (by rw [hcall]; rfl)
          rw [hcommit] at hopen
          exact absurd (resolveDispute_disputed hrun) hopen

theorem closed_of_unresolved {calls : List (Env × ArbiterCall)}
    (h : resolutionsIn (fun _ => true) id s calls = 0) :
    Along (fun u c => c.2.resolves = true → ¬Disputed id (commit (arbiterStep id c) u))
      (arbiterStep id) s calls := by
  induction calls generalizing s with
  | nil => trivial
  | cons c calls ih =>
      unfold resolutionsIn at h
      obtain ⟨hfirst, hrest⟩ := Nat.add_eq_zero_iff.1 h
      refine ⟨?_, ih hrest⟩
      rintro ⟨r, hrun⟩ hresolves
      obtain ⟨env, call⟩ := c
      cases call with
      | raise arbiter => cases hresolves
      | resolve arbiter resolution => simp [resolutionOf, hrun] at hfirst

/-- A run of the arbiter's calls is final exactly when no resolution of it goes through, since
every one that does leaves the invoice disputed. As long as at most one goes through, everyone
is paid at most once. -/
theorem arbiter_run_final_iff (id : ℕ) (s : Store) (calls : List (Env × ArbiterCall)) :
    (FinalRun id s calls ↔ resolutionsIn (fun _ => true) id s calls = 0) ∧
      (resolutionsIn (fun _ => true) id s calls ≤ 1 → PaidOnce id s calls) := by
  refine ⟨⟨fun h => FinalRun.unresolved h.closed, fun h => ?_⟩, paidOnce_of_one⟩
  exact ⟨paidOnce_of_one (by omega), closed_of_unresolved h⟩

/-- An invoice with an arbiter, half paid by payer 20. -/
def arbitratedInvoice : Invoice := { sampleInvoice with arbiter := some 30, funded := 50 }

/-- The arbiter raises a dispute and resolves it twice in the same way. -/
def resolvedTwice (resolution : ResolveAction) : List (Env × ArbiterCall) :=
  [(sampleEnv 10 100, .raise 30), (sampleEnv 11 100, .resolve 30 resolution),
    (sampleEnv 12 100, .resolve 30 resolution)]

/-- The payer of 50 gets 100 back, and a release pays the recipients twice. -/
theorem second_resolution_pays_again :
    refundedTo 1 20 (runAll (arbiterStep 1)
        (sampleStore arbitratedInvoice [{ payer := 20, amount := 50 }]) (resolvedTwice .refund)) = 100 ∧
      ¬FinalRun 1 (sampleStore arbitratedInvoice [{ payer := 20, amount := 50 }])
        (resolvedTwice .refund) ∧
      paidOut 1 9 10 (runAll (arbiterStep 1)
        (sampleStore arbitratedInvoice [{ payer := 20, amount := 50 }]) (resolvedTwice .release)) = 50 ∧
      resolutionsIn (· = .release) 1 (sampleStore arbitratedInvoice [{ payer := 20, amount := 50 }])
        (resolvedTwice .release) = 2 := by
  refine ⟨by decide +kernel, fun h => ?_, by decide +kernel, by decide +kernel⟩
  have hrefunds := h.once.refunds 20
  revert hrefunds
  decide +kernel

/-! ## The dispute of a payer -/

/-- `require_admin` and `require_admin_role` know the address: it is the stored admin or a key of
the map of admins. -/
def IsAdmin (env : Env) (a : Address) : Prop :=
  env.config.admin = some a ∨ a ∈ env.config.superAdmins ∨ a ∈ env.config.operators

instance (env : Env) (a : Address) : Decidable (IsAdmin env a) := inferInstanceAs (Decidable (_ ∨ _))

/-- The token accepts the movements one after the other. -/
def AcceptsAll (env : Env) : List (Transfer Memo) → List (Transfer Memo) → Prop
  | _, [] => True
  | log, m :: ms => env.accepts log m = true ∧ AcceptsAll env (m :: log) ms

theorem acceptsAll_append {ms ms' log : List (Transfer Memo)} :
    AcceptsAll env log (ms ++ ms') ↔ AcceptsAll env log ms ∧ AcceptsAll env (ms.reverse ++ log) ms' := by
  induction ms generalizing log with
  | nil => simp [AcceptsAll]
  | cons m ms ih => simp [AcceptsAll, ih, and_assoc]

/-- The movements that send the positive ones of some totals back. -/
def refundMovements (id : ℕ) (token : Address) (totals : List (Address × ℤ)) : List (Transfer Memo) :=
  (totals.filter fun x => 0 < x.2).map fun x => ⟨token, currentContract, x.1, x.2, ⟨id, .refund⟩⟩

/-- The movement that returns a positive bonus pool to the creator. -/
def bonusMovements (id : ℕ) (inv : Invoice) (token : Address) : List (Transfer Memo) :=
  if 0 < inv.bonusPool then [⟨token, currentContract, inv.creator, inv.bonusPool, ⟨id, .bonus⟩⟩] else []

theorem refundPositive_run {token : Address} {totals : List (Address × ℤ)} :
    refundPositive env id token totals s = .ok (v, t) ↔
      AcceptsAll env s.log (refundMovements id token totals) ∧
        s.withLog ((refundMovements id token totals).reverse ++ s.log) = t := by
  unfold refundPositive refundMovements
  induction totals generalizing s with
  | nil =>
      rw [List.forM_nil, pure_ok]
      simp [AcceptsAll, Store.withLog]
  | cons x xs ih =>
      rw [List.forM_cons, bind_ok]
      by_cases hx : 0 < x.2
      · simp only [transferPositive_ok, ih, hx, List.filter_cons_of_pos, decide_true, List.map_cons,
          AcceptsAll, List.reverse_cons, true_and, not_true_eq_false, false_and, or_false]
        constructor
        · rintro ⟨_, _, ⟨hpays, rfl⟩, hrest, rfl⟩
          exact ⟨⟨hpays, hrest⟩, by simp [Store.withLog]⟩
        · rintro ⟨⟨hpays, hrest⟩, rfl⟩
          exact ⟨(), _, ⟨hpays, rfl⟩, hrest, by simp [Store.withLog]⟩
      · simp only [transferPositive_ok, ih, hx, List.filter_cons_of_neg, decide_false, not_false_eq_true,
          false_and, true_and, false_or, Bool.false_eq_true]
        constructor
        · rintro ⟨_, _, rfl, hrest⟩
          exact hrest
        · intro hrest
          exact ⟨(), s, rfl, hrest⟩

theorem returnBonus_run {token : Address} :
    returnBonus env id inv token s = .ok (v, t) ↔
      AcceptsAll env s.log (bonusMovements id inv token) ∧
        s.withLog ((bonusMovements id inv token).reverse ++ s.log) = t := by
  unfold returnBonus bonusMovements
  by_cases hpool : 0 < inv.bonusPool <;>
    simp [transferPositive_ok, hpool, AcceptsAll, Store.withLog]

/-- What the invoice is saved as. -/
def resolvedInvoice (env : Env) (inv : Invoice) : DisputeOutcome → Invoice
  | .release | .approved => (inv.withStatus .pending).withDisputed false
  | .refund | .refunded => (inv.completed .refunded env.now).withDisputed false

/-- What `resolve_invoice_dispute` asks of the contract and the tokens, whoever calls it: nothing
is paused, the dispute is active, the record fits, and on a refund the invoice has a token that
accepts the refunds and the return of the bonus pool. -/
def Resolvable (env : Env) (s : Store) (id : ℕ) (inv : Invoice) (outcome : DisputeOutcome) : Prop :=
  Running env ∧ (s.entries id).disputeRecord = some .active ∧
    env.fitsQuota (resolvedInvoice env inv outcome) = true ∧
    (outcome = .refund ∨ outcome = .refunded → ∃ token ∈ inv.tokens.head?, AcceptsAll env s.log
      (refundMovements id token (totalsOf inv.payments) ++ bonusMovements id inv token))

theorem disputeRefund_returns :
    (∃ r, disputeRefund env id inv s = .ok r) ↔
      env.fitsQuota ((inv.completed .refunded env.now).withDisputed false) = true ∧
        ∃ token ∈ inv.tokens.head?, AcceptsAll env s.log
          (refundMovements id token (totalsOf inv.payments) ++ bonusMovements id inv token) := by
  simp only [acceptsAll_append, disputeRefund, setDisputeRecord, bind_returns, modifyEntry_ok, orPanic_ok,
    refundPositive_run, returnBonus_run]
  constructor
  · rintro ⟨_, _, rfl, token, _, ⟨htoken, rfl⟩, _, _, ⟨hsent, rfl⟩, _, _, ⟨hreturned, rfl⟩, r, hsave⟩
    exact ⟨(saveInvoice_ok.1 hsave).1, token, htoken, hsent, hreturned⟩
  · rintro ⟨hfits, token, htoken, hsent, hreturned⟩
    exact ⟨(), _, rfl, token, _, ⟨htoken, rfl⟩, (), _, ⟨hsent, rfl⟩, (), _, ⟨hreturned, rfl⟩,
      ((), _), saveInvoice_ok.2 ⟨hfits, rfl⟩⟩

theorem disputeRelease_returns :
    (∃ r, disputeRelease env id inv s = .ok r) ↔
      env.fitsQuota ((inv.withStatus .pending).withDisputed false) = true := by
  simp only [disputeRelease, setDisputeRecord, bind_returns, modifyEntry_ok]
  constructor
  · rintro ⟨_, _, rfl, r, hsave⟩
    exact (saveInvoice_ok.1 hsave).1
  · intro hfits
    exact ⟨(), _, rfl, ((), _), saveInvoice_ok.2 ⟨hfits, rfl⟩⟩

theorem applyOutcome_returns {outcome : DisputeOutcome} :
    (∃ r, applyOutcome env id inv outcome s = .ok r) ↔
      env.fitsQuota (resolvedInvoice env inv outcome) = true ∧
        (outcome = .refund ∨ outcome = .refunded → ∃ token ∈ inv.tokens.head?, AcceptsAll env s.log
          (refundMovements id token (totalsOf inv.payments) ++ bonusMovements id inv token)) := by
  cases outcome with
  | release => simpa [applyOutcome, resolvedInvoice] using disputeRelease_returns
  | approved => simpa [applyOutcome, resolvedInvoice] using disputeRelease_returns
  | refund => simpa [applyOutcome, resolvedInvoice] using disputeRefund_returns
  | refunded => simpa [applyOutcome, resolvedInvoice] using disputeRefund_returns

/-- A resolution goes through for every address that signs for itself. -/
theorem resolveInvoiceDispute_returns {caller : Address} {outcome : DisputeOutcome}
    (hload : (s.entries id).load = some inv) (hdisputed : inv.status = .disputed) :
    (∃ r, resolveInvoiceDispute env id caller outcome s = .ok r) ↔
      (env.auth caller = true ∧ caller ≠ currentContract) ∧ Resolvable env s id inv outcome := by
  simp only [resolveInvoiceDispute, requireNotPaused_bind, requireAuth_bind, loadInvoice_bind,
    require_bind, getEntry_bind, orPanic_bind, Resolvable]
  constructor
  · rintro ⟨r, hrunning, hauth, inv', hload', -, status, hrecord, hactive, hrun⟩
    obtain rfl : inv = inv' := Option.some.inj (hload.symm.trans hload')
    subst hactive
    exact ⟨hauth, hrunning, hrecord, applyOutcome_returns.1 ⟨r, hrun⟩⟩
  · rintro ⟨hauth, hrunning, hrecord, hrest⟩
    obtain ⟨r, hrun⟩ := applyOutcome_returns.2 hrest
    exact ⟨r, hrunning, hauth, inv, hload, hdisputed, .active, hrecord, rfl, hrun⟩

/-- A caller who is no admin is turned away from a disputed invoice exactly when the signature is
missing or nobody at all could resolve the dispute this way. -/
theorem stranger_turned_away_iff {caller : Address} {outcome : DisputeOutcome}
    (hload : (s.entries id).load = some inv) (hdisputed : inv.status = .disputed)
    (_hstranger : ¬IsAdmin env caller) :
    ((∃ f, resolveInvoiceDispute env id caller outcome s = .error f) ∧
        commit (resolveInvoiceDispute env id caller outcome) s = s) ↔
      ¬((env.auth caller = true ∧ caller ≠ currentContract) ∧ Resolvable env s id inv outcome) := by
  rw [← resolveInvoiceDispute_returns hload hdisputed]
  constructor
  · rintro ⟨⟨f, hf⟩, -⟩ ⟨r, hr⟩
    rw [hf] at hr
    cases hr
  · intro hnone
    cases hrun : resolveInvoiceDispute env id caller outcome s with
    | ok r => exact absurd ⟨r, hrun⟩ hnone
    | error f => exact ⟨⟨f, rfl⟩, commit_error hrun⟩

/-- A disputed invoice with an active dispute, half paid by payer 20. -/
def disputedStore : Store :=
  let s := sampleStore { sampleInvoice with status := .disputed, disputed := true, funded := 50 }
    [{ payer := 20, amount := 50 }]
  s.setEntry 1 { s.entries 1 with disputeRecord := some .active }

/-- An environment with administrators in which only address 99 signs. -/
def strangerEnv (now : ℕ) (reserve : ℤ) (signer : Address) : Env :=
  { sampleEnv now reserve with
    auth := fun a => decide (a = signer)
    config := { admin := some 1, superAdmins := [1], operators := [3] } }

/-- Without a signature the stranger 99 is turned away. -/
theorem unsigned_stranger_turned_away :
    ¬IsAdmin (strangerEnv 10 50 20) 99 ∧
      ((∃ f, resolveInvoiceDispute (strangerEnv 10 50 20) 1 99 .refund disputedStore = .error f) ∧
        commit (resolveInvoiceDispute (strangerEnv 10 50 20) 1 99 .refund) disputedStore =
          disputedStore) := by
  refine ⟨by decide, ?_⟩
  have hload : (disputedStore.entries 1).load = some (Invoice.withPayments
      { sampleInvoice with status := .disputed, disputed := true, funded := 50 }
      [{ payer := 20, amount := 50 }]) := rfl
  refine (stranger_turned_away_iff hload rfl (by decide)).2 ?_
  rintro ⟨⟨hauth, -⟩, -⟩
  cases hauth

/-- The stranger 99, who is no admin, signs for itself and has the 50 sent back. -/
theorem stranger_resolves_dispute :
    ¬IsAdmin (strangerEnv 10 50 99) 99 ∧
      ((disputedStore.entries 1).load.map Invoice.status = some .disputed) ∧
      refundedTo 1 20 (commit (resolveInvoiceDispute (strangerEnv 10 50 99) 1 99 .refund)
        disputedStore) = 50 ∧
      (((commit (resolveInvoiceDispute (strangerEnv 10 50 99) 1 99 .refund)
        disputedStore).entries 1).load.map Invoice.status = some .refunded) := by
  refine ⟨by decide, by decide +kernel, by decide +kernel, by decide +kernel⟩

end StellarSplit.Split
