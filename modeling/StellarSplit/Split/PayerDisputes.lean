import StellarSplit.Split.Releasable
import StellarSplit.Split.Stays

/-!
# Disputes of payers

A payer may dispute a funded invoice. The administrator ends the dispute with a
release or a refund, or it runs out and anyone may have the invoice released.
The ways that end in a release go straight to `_release`: they look at none of
the gates, and a release that leaves the invoice pending leaves room for the
next dispute.
-/

namespace StellarSplit.Split

open Exec Function Machine

variable {env : Env} {s t u : Store} {v : Unit} {id : ℕ} {inv : Invoice} {actor : Address}

/-! ## The calls -/

def raisePayerDispute (env : Env) (id : ℕ) (payer : Address) : SplitM Unit := do
  requireNotPaused env
  requireAuth env.toLedger payer
  let inv ← loadInvoice id
  require (inv.status = .pending) (.panic "invoice is not pending")
  require (inv.disputed = false) (.panic "invoice is already disputed")
  require (inv.payments.any (·.payer = payer) = true) (.panic "caller has not paid this invoice")
  let e ← getEntry id
  require (e.fundedAtLedger.getD env.sequence + 48 ≤ u32Max) .overflow
  require (env.sequence ≤ e.fundedAtLedger.getD env.sequence + 48)
    (.panic "dispute window has closed (48 ledgers)")
  saveInvoice env id (inv.withDisputed true)
  openDisputeRecord env id

/-- The ends of a dispute with a release: the record is closed, the flag lifted, and `_release`
called. -/
def endDispute (env : Env) (id : ℕ) (inv : Invoice) (status : DisputeStatus) (actor : Address) :
    SplitM Unit := do
  setDisputeRecord id status
  saveInvoice env id (inv.withDisputed false)
  releaseAs env id (inv.withDisputed false) actor

/-- The refund outcomes of `resolve_payer_dispute`. -/
def payerDisputeRefund (env : Env) (id : ℕ) (inv : Invoice) : SplitM Unit := do
  setDisputeRecord id .resolved
  let token ← orPanic inv.tokens.head? "no token"
  refundTotals env id token (totalsOf inv.payments)
  saveInvoice env id ((inv.withDisputed false).completed .refunded env.now)

def payerOutcome (env : Env) (id : ℕ) (inv : Invoice) (admin : Address) : DisputeOutcome → SplitM Unit
  | .approved | .release => endDispute env id inv .resolved admin
  | .refunded | .refund => payerDisputeRefund env id inv

/-- `resolve_payer_dispute`; the address it is given is not looked at. -/
def resolvePayerDispute (env : Env) (id : ℕ) (_admin : Address) (outcome : DisputeOutcome) :
    SplitM Unit := do
  requireNotPaused env
  let admin ← requireAdmin env
  let inv ← loadInvoice id
  require (inv.disputed = true) (.panic "invoice is not disputed")
  let e ← getEntry id
  let status ← orPanic e.disputeRecord "no dispute record"
  require (status = .active) (.panic "dispute is not active")
  payerOutcome env id inv admin outcome

def expireDispute (env : Env) (id : ℕ) : SplitM Unit := do
  requireNotPaused env
  let inv ← loadInvoice id
  require (inv.disputed = true) (.panic "invoice is not disputed")
  let e ← getEntry id
  let status ← orPanic e.disputeRecord "no dispute record"
  require (status = .active) (.panic "dispute is not active")
  require (e.disputeRaisedAt + 72 ≤ u32Max) .overflow
  require (e.disputeRaisedAt + 72 < env.sequence)
    (.panic "dispute expiry window not reached (72 ledgers)")
  endDispute env id inv .expired currentContract

/-! ## What the calls ask for -/

theorem raisePayerDispute_ok {payer : Address} (hrun : raisePayerDispute env id payer s = .ok (v, t)) :
    ∃ inv, (s.entries id).load = some inv ∧ inv.status = .pending ∧ inv.disputed = false ∧
      (do saveInvoice env id (inv.withDisputed true); openDisputeRecord env id) s = .ok (v, t) := by
  simp only [raisePayerDispute, requireNotPaused_bind, requireAuth_bind, loadInvoice_bind, require_bind,
    getEntry_bind] at hrun
  obtain ⟨-, -, inv, hload, hpending, hflag, -, -, -, hrun⟩ := hrun
  exact ⟨inv, hload, hpending, hflag, hrun⟩

theorem resolvePayerDispute_ok {caller : Address} {outcome : DisputeOutcome}
    (hrun : resolvePayerDispute env id caller outcome s = .ok (v, t)) :
    ∃ inv admin, (s.entries id).load = some inv ∧ inv.disputed = true ∧
      payerOutcome env id inv admin outcome s = .ok (v, t) := by
  simp only [resolvePayerDispute, requireAdmin, bind_assoc, pure_bind, requireNotPaused_bind,
    require_bind, orPanic_bind, requireAuth_bind, loadInvoice_bind, getEntry_bind] at hrun
  obtain ⟨-, -, admin, -, -, inv, hload, hflag, -, -, -, hrun⟩ := hrun
  exact ⟨inv, admin, hload, hflag, hrun⟩

theorem expireDispute_ok (hrun : expireDispute env id s = .ok (v, t)) :
    ∃ inv, (s.entries id).load = some inv ∧ inv.disputed = true ∧
      endDispute env id inv .expired currentContract s = .ok (v, t) := by
  simp only [expireDispute, requireNotPaused_bind, loadInvoice_bind, require_bind, getEntry_bind,
    orPanic_bind] at hrun
  obtain ⟨-, inv, hload, hflag, -, -, -, -, -, hrun⟩ := hrun
  exact ⟨inv, hload, hflag, hrun⟩

/-! ## Runs -/

/-- The calls on disputed invoices. -/
inductive PayerDisputeCall where
  | pay (payer : Address) (id : ℕ) (amount : ℤ) (nonce : ℕ) (donateOnFailure : Bool)
  | raise (id : ℕ) (payer : Address)
  | resolve (id : ℕ) (admin : Address) (outcome : DisputeOutcome)
  | expire (id : ℕ)
  | release (id : ℕ) (preimage : Option (List ℕ))
deriving DecidableEq

def payerDisputeStep (c : Env × PayerDisputeCall) : SplitM Unit :=
  match c.2 with
  | .pay payer id amount nonce donate => pay c.1 payer id amount nonce donate
  | .raise id payer => raisePayerDispute c.1 id payer
  | .resolve id admin outcome => resolvePayerDispute c.1 id admin outcome
  | .expire id => expireDispute c.1 id
  | .release id preimage => releaseInvoice c.1 id preimage

/-- The calls that end a dispute on the invoice, and with it send the money out. -/
def PayerDisputeCall.ends (k : ℕ) : PayerDisputeCall → Bool
  | .resolve id _ _ | .expire id => id = k
  | _ => false

/-- The calls that end a dispute on the invoice with a release. -/
def PayerDisputeCall.endsInRelease (k : ℕ) : PayerDisputeCall → Bool
  | .resolve id _ .approved | .resolve id _ .release | .expire id => id = k
  | _ => false

/-- How many calls of the run end a dispute on the invoice, in favour of the recipients or of the
payers. -/
def disputesEnded (k : ℕ) : Store → List (Env × PayerDisputeCall) → ℕ
  | _, [] => 0
  | s, c :: cs =>
      (if c.2.ends k && (payerDisputeStep c s).isOk then 1 else 0) +
        disputesEnded k (commit (payerDisputeStep c) s) cs

/-- The messages with which `release_invoice` stops at its funding minimum, approver, prerequisite,
hold, freeze and co-signer gates. -/
def gateMessages : List String :=
  ["invoice is frozen", "invoice frozen by admin", "EscrowHoldActive", "minimum funding not reached",
    "awaiting approval", "prerequisite not released", "not enough co-signer approvals",
    "cosigner approval threshold not met"]

/-- The fault of a gate that stops a release. -/
def GateFault (f : SplitFault) : Prop := ∃ msg ∈ gateMessages, f = .panic msg

instance : DecidablePred GateFault := fun f =>
  inferInstanceAs (Decidable (∃ msg ∈ gateMessages, f = .panic msg))

/-- The storage with the flag of the dispute lifted. -/
def liftDispute (k : ℕ) (s : Store) : Store :=
  s.setEntry k { s.entries k with
    invoice := (s.entries k).invoice.map fun inv => inv.withDisputed false }

/-- A dispute only delays: one at most sends the money of the invoice out, and when one runs out no
gate would stop `release_invoice`. -/
structure OnlyDelays (k : ℕ) (s : Store) (calls : List (Env × PayerDisputeCall)) : Prop where
  once : disputesEnded k s calls ≤ 1
  gated : Along (fun u c => c.2 = .expire k → ∀ preimage,
    Avoids GateFault (releaseChecks c.1 k preimage) (liftDispute k u)) payerDisputeStep s calls

/-! ## The condition -/

/-- A release leaves the invoice closed: it was before, or no tranche stays locked, or all recipients
are paid now, none of them by a release that comes back through forwarding. -/
def ClosesNow (env : Env) (s : Store) (id : ℕ) (inv : Invoice) : Prop :=
  inv.status ≠ .pending ∨
    (inv.tranches ≠ [] ∧ 10000 ≤ inv.releasedBps + newlyUnlocked env inv) ∨
    (inv.tranches = [] ∧ (s.entries id).failedPayouts = [] ∧
      (∀ r ∈ inv.recipients, env.accountExists (fundingTokenFor inv) r = true) ∧ id ∉ forwardReach s id)

/-- The gates of `release_invoice` that `expire_dispute` passes by. -/
structure ExpiryGates (env : Env) (s : Store) (id : ℕ) (inv : Invoice) : Prop where
  frozen : inv.frozen = false
  adminFrozen : inv.adminFrozen = false
  held : inv.heldUntil.getD 0 ≤ env.sequence
  funding : ∃ required paid, minRequired inv = .ok required ∧
    alreadyPaidAmount inv (s.entries id).paidRecipients = .ok paid ∧
    satSubI128 required paid ≤ inv.funded
  approval : inv.approver.isNone = true ∨ inv.approved = true
  prerequisite : ∀ prereqId ∈ inv.prerequisiteId,
    ∃ prereq, (s.entries prereqId).load = some prereq ∧ prereq.status = .released
  coSigners : inv.coSigners = [] ∨ inv.requiredSignatures ≤ inv.signatures.length
  threshold : thresholdMet (s.entries id)

/-- What is asked of a call: a dispute that ends with a release closes the invoice, and one that runs
out finds the gates open. -/
def DelayCall (k : ℕ) (s : Store) (c : Env × PayerDisputeCall) : Prop :=
  ∀ inv, (s.entries k).load = some inv →
    (c.2.endsInRelease k = true → ClosesNow c.1 s k inv) ∧ (c.2 = .expire k → ExpiryGates c.1 s k inv)

/-! ## An ended dispute -/

/-- Neither pending nor disputed. -/
def Invoice.ClosedOff (inv : Invoice) : Prop := inv.status ≠ .pending ∧ inv.disputed = false

theorem closedOff_lasting : Lasting Invoice.ClosedOff := by
  refine ⟨fun inv payments h => h, fun inv x h => h, fun inv stored hcloses hleft h => ?_⟩
  refine ⟨?_, hcloses.disputed.trans h.2⟩
  rcases hleft with hstatus | hstatus | hstatus
  · simp [hstatus]
  · simp [hstatus]
  · rw [hstatus]
    exact h.1

/-- The storage in which a dispute that ends with a release comes to `_release`. -/
theorem endDispute_ok {status : DisputeStatus}
    (hrun : endDispute env id inv status actor s = .ok (v, t)) :
    ∃ u, u.entries id = { s.entries id with
        disputeRecord := some status
        invoice := some ((inv.withDisputed false).withPayments []) } ∧
      (∀ j, j ≠ id → u.entries j = s.entries j) ∧
      releaseAs env id (inv.withDisputed false) actor u = .ok (v, t) := by
  obtain ⟨_, u₁, hrecord, hrun⟩ := bind_ok.1 hrun
  obtain ⟨_, u₂, hsave, hrelease⟩ := bind_ok.1 hrun
  obtain rfl := modifyEntry_ok.1 hrecord
  obtain ⟨-, rfl⟩ := saveInvoice_ok.1 hsave
  refine ⟨_, ?_, fun j hj => ?_, hrelease⟩
  · rw [Store.setEntry_self, Store.setEntry_self]
  · rw [Store.setEntry_ne _ hj, Store.setEntry_ne _ hj]

/-- The invoices that payouts are forwarded to do not depend on the dispute. -/
theorem forwardReach_undisputed {status : DisputeStatus} (hload : (s.entries id).load = some inv)
    (hentry : u.entries id = { s.entries id with
      disputeRecord := some status
      invoice := some ((inv.withDisputed false).withPayments []) })
    (hothers : ∀ j, j ≠ id → u.entries j = s.entries j) : forwardReach u id = forwardReach s id := by
  refine forwardReach_congr (fun j => ?_) id
  by_cases hj : j = id
  · subst hj
    obtain ⟨before, hbefore, rfl⟩ := Option.map_eq_some_iff.1 hload
    rw [hentry, hbefore]
    rfl
  · rw [hothers j hj]

theorem endDispute_closes {status : DisputeStatus} (hload : (s.entries id).load = some inv)
    (hcloses : ClosesNow env s id inv) (hrun : endDispute env id inv status actor s = .ok (v, t)) :
    StoredAs Invoice.ClosedOff id t := by
  obtain ⟨u, hentry, hothers, hrelease⟩ := endDispute_ok hrun
  rcases hcloses with hstatus | ⟨hlocked, hlast⟩ | ⟨hnone, hunfailed, haccounts, hacyclic⟩
  · have hclosed : (inv.withDisputed false).ClosedOff := ⟨hstatus, rfl⟩
    exact releaseWithin_storedAs closedOff_lasting hclosed hrelease
  · rcases releaseAs_ok hrelease with ⟨hempty, -⟩ | ⟨-, htranches⟩
    · exact absurd hempty hlocked
    · obtain ⟨stored, hstored, hkept, -, hdone⟩ := releaseTranches_stores htranches
      refine ⟨stored, hstored, ?_, hkept.disputed⟩
      simp [hdone hlast]
  · obtain ⟨stored, hstored, hkept, -⟩ := releaseWithin_stores hrelease
    rcases releaseAs_ok hrelease with ⟨-, depth, hfull⟩ | ⟨hlocked, -⟩
    · have hreach := forwardReach_undisputed hload hentry hothers
      have hinto : ForwardsInto (forwardReach u id) (inv.withDisputed false) := by
        have hbefore : ForwardsInto (forwardReach s id) inv := forwardReach_into hload
        rw [hreach]
        exact hbefore
      have hunfailed' : (u.entries id).failedPayouts = [] := by
        rw [hentry]
        exact hunfailed
      have hacyclic' : id ∉ forwardReach u id := by
        rw [hreach]
        exact hacyclic
      have haccounts' : ∀ r ∈ (inv.withDisputed false).recipients,
          env.accountExists (fundingTokenFor (inv.withDisputed false)) r = true := haccounts
      obtain ⟨-, -, stored', hstored', hdone⟩ :=
        releaseFull_closes haccounts' hunfailed' hacyclic' hinto hfull
      obtain rfl : stored' = stored := Option.some_inj.1 (hstored'.symm.trans hstored)
      refine ⟨stored', hstored, ?_, hkept.disputed⟩
      rcases hdone with hdone | hdone <;> simp [hdone]
    · exact absurd hnone hlocked

theorem payerDisputeRefund_closes (hrun : payerDisputeRefund env id inv s = .ok (v, t)) :
    StoredAs Invoice.ClosedOff id t := by
  obtain ⟨_, u₁, -, hrun⟩ := bind_ok.1 hrun
  obtain ⟨token, -, hrun⟩ := orPanic_bind.1 hrun
  obtain ⟨_, u₂, -, hsave⟩ := bind_ok.1 hrun
  exact ⟨_, saveInvoice_stored hsave, by simp [Invoice.completed, Invoice.withPayments], rfl⟩

/-! ## Calls on other invoices -/

section Others

variable {Q : Invoice → Prop} {k : ℕ}

theorem raisePayerDispute_stays {payer : Address} (hk : k ≠ id) :
    Respects (Stays Q k) (raisePayerDispute env id payer) := by
  intro s v t hrun
  have hne : Fact (k ≠ id) := ⟨hk⟩
  have hopen : Framed (Outside k) (openDisputeRecord env id) := framed_note fun _ => rfl
  obtain ⟨inv, -, -, -, hrun⟩ := raisePayerDispute_ok hrun
  have hout : Outside k s t := Framed.holds s v t hrun
  exact hout.stays

theorem endDispute_stays {status : DisputeStatus} (hQ : Lasting Q) (hk : k ≠ id) :
    Respects (Stays Q k) (endDispute env id inv status actor) := by
  intro s v t hrun hs
  obtain ⟨u, -, hothers, hrelease⟩ := endDispute_ok hrun
  exact releaseAs_stays hQ (fun h => absurd h hk) u v t hrelease (storedAs_of_entry (hothers k hk) hs)

theorem resolvePayerDispute_stays {caller : Address} {outcome : DisputeOutcome} (hQ : Lasting Q)
    (hk : k ≠ id) : Respects (Stays Q k) (resolvePayerDispute env id caller outcome) := by
  intro s v t hrun
  obtain ⟨inv, admin, -, -, hrun⟩ := resolvePayerDispute_ok hrun
  have hne : Fact (k ≠ id) := ⟨hk⟩
  have hrecord : ∀ status, Framed (Outside k) (setDisputeRecord id status) := fun _ =>
    framed_note fun _ => rfl
  have hrefund : Framed (Outside k) (payerDisputeRefund env id inv) := by
    unfold payerDisputeRefund refundTotals
    infer_instance
  cases outcome with
  | approved => exact endDispute_stays hQ hk s v t hrun
  | release => exact endDispute_stays hQ hk s v t hrun
  | refunded => exact (hrefund.respects s v t hrun).stays
  | refund => exact (hrefund.respects s v t hrun).stays

theorem expireDispute_stays (hQ : Lasting Q) (hk : k ≠ id) :
    Respects (Stays Q k) (expireDispute env id) := by
  intro s v t hrun
  obtain ⟨inv, -, -, hrun⟩ := expireDispute_ok hrun
  exact endDispute_stays hQ hk s v t hrun

end Others

/-! ## A closed invoice stays closed -/

variable {k : ℕ}

theorem closed_step {c : Env × PayerDisputeCall} (hs : StoredAs Invoice.ClosedOff k s)
    (hrun : payerDisputeStep c s = .ok (v, t)) : StoredAs Invoice.ClosedOff k t ∧ c.2.ends k = false := by
  have hload : ∀ {inv}, (s.entries k).load = some inv → inv.ClosedOff :=
    fun hload => hs.load closedOff_lasting hload
  obtain ⟨env, call⟩ := c
  cases call with
  | pay payer id amount nonce donate =>
      refine ⟨?_, rfl⟩
      by_cases hk : k = id
      · subst hk
        obtain ⟨inv, hstored, hpending⟩ := pay_pending hrun
        exact absurd hpending (hload hstored).1
      · exact pay_stays closedOff_lasting hk s v t hrun hs
  | raise id payer =>
      refine ⟨?_, rfl⟩
      by_cases hk : k = id
      · subst hk
        obtain ⟨inv, hstored, hpending, -⟩ := raisePayerDispute_ok hrun
        exact absurd hpending (hload hstored).1
      · exact raisePayerDispute_stays hk s v t hrun hs
  | resolve id admin outcome =>
      have hresolve : resolvePayerDispute env id admin outcome s = .ok (v, t) := hrun
      by_cases hk : k = id
      · subst hk
        obtain ⟨inv, _, hstored, hflag, -⟩ := resolvePayerDispute_ok hresolve
        rw [(hload hstored).2] at hflag
        cases hflag
      · refine ⟨?_, decide_eq_false (Ne.symm hk)⟩
        exact resolvePayerDispute_stays closedOff_lasting hk s v t hresolve hs
  | expire id =>
      by_cases hk : k = id
      · subst hk
        obtain ⟨inv, hstored, hflag, -⟩ := expireDispute_ok hrun
        rw [(hload hstored).2] at hflag
        cases hflag
      · exact ⟨expireDispute_stays closedOff_lasting hk s v t hrun hs, decide_eq_false (Ne.symm hk)⟩
  | release id preimage => exact ⟨releaseInvoice_stays closedOff_lasting s v t hrun hs, rfl⟩

theorem disputesEnded_closed {calls : List (Env × PayerDisputeCall)}
    (hs : StoredAs Invoice.ClosedOff k s) : disputesEnded k s calls = 0 := by
  induction calls generalizing s with
  | nil => rfl
  | cons c calls ih =>
      unfold disputesEnded
      cases hrun : payerDisputeStep c s with
      | ok r =>
          obtain ⟨hclosed, hends⟩ := closed_step hs hrun
          rw [commit_ok hrun, ih hclosed, hends]
          rfl
      | error f =>
          rw [commit_error hrun, ih hs]
          simp [Except.isOk, Except.toBool]

/-- A call that ends the dispute, and closes the invoice if it ends in a release. -/
theorem ends_closes {c : Env × PayerDisputeCall} (hends : c.2.ends k = true) (hcall : DelayCall k s c)
    (hrun : payerDisputeStep c s = .ok (v, t)) : StoredAs Invoice.ClosedOff k t := by
  obtain ⟨env, call⟩ := c
  cases call with
  | pay payer id amount nonce donate => cases hends
  | raise id payer => cases hends
  | release id preimage => cases hends
  | expire id =>
      obtain rfl : id = k := of_decide_eq_true hends
      obtain ⟨inv, hload, -, hend⟩ := expireDispute_ok hrun
      exact endDispute_closes hload ((hcall inv hload).1 (decide_eq_true rfl)) hend
  | resolve id admin outcome =>
      obtain rfl : id = k := of_decide_eq_true hends
      have hresolve : resolvePayerDispute env id admin outcome s = .ok (v, t) := hrun
      obtain ⟨inv, stored, hload, -, hend⟩ := resolvePayerDispute_ok hresolve
      have hcloses := (hcall inv hload).1
      cases outcome with
      | approved => exact endDispute_closes hload (hcloses (decide_eq_true rfl)) hend
      | release => exact endDispute_closes hload (hcloses (decide_eq_true rfl)) hend
      | refunded => exact payerDisputeRefund_closes hend
      | refund => exact payerDisputeRefund_closes hend

theorem disputesEnded_le_one {calls : List (Env × PayerDisputeCall)}
    (h : Along (DelayCall k) payerDisputeStep s calls) : disputesEnded k s calls ≤ 1 := by
  induction calls generalizing s with
  | nil => exact Nat.zero_le 1
  | cons c calls ih =>
      obtain ⟨hcall, hrest⟩ := h
      unfold disputesEnded
      cases hrun : payerDisputeStep c s with
      | error f =>
          rw [commit_error hrun] at hrest ⊢
          have hle := ih hrest
          simpa [Except.isOk, Except.toBool] using hle
      | ok r =>
          rw [commit_ok hrun] at hrest ⊢
          cases hends : c.2.ends k with
          | false => simpa using ih hrest
          | true =>
              -- the first one closes the invoice, so the rest of the run ends no other
              rw [disputesEnded_closed (ends_closes hends (hcall ⟨r, hrun⟩) hrun)]
              split <;> omega

/-! ## The gates when a dispute runs out -/

/-- A check that only looks. -/
theorem avoids_check {α β : Type} {bad : SplitFault → Prop} {x : SplitM α} [Framed Eq x]
    {f : α → SplitM β} (hx : Avoids bad x s) (hf : ∀ a, Avoids bad (f a) s) : Avoids bad (x >>= f) s := by
  refine .bind hx fun a u hrun => ?_
  obtain rfl := eq_of_framed hrun
  exact hf a

theorem avoids_orPanic {α : Type} {x : Option α} {msg : String} (h : ¬GateFault (.panic msg)) :
    Avoids GateFault (orPanic x msg : SplitM α) s := by
  cases x with
  | none => exact .throw h
  | some a => exact .pure a

theorem checkPreimage_avoids {preimage : Option (List ℕ)} :
    Avoids GateFault (checkPreimage env inv preimage) s := by
  unfold checkPreimage
  cases inv.releaseConditionHash with
  | none => exact .pure ()
  | some expected =>
      exact avoids_check (avoids_orPanic (by decide)) fun bytes => .require (.inr (by decide))

theorem checkDispute_avoids : Avoids GateFault (checkDispute id inv) s := by
  unfold checkDispute
  split_ifs
  · refine avoids_check (.of_ok (getEntry_ok.2 ⟨rfl, rfl⟩)) fun e => ?_
    exact avoids_check (avoids_orPanic (by decide)) fun status => .require (.inr (by decide))
  · exact .pure ()

theorem loadInvoice_avoids : Avoids GateFault (loadInvoice id) s :=
  .bind (.of_ok (getEntry_ok.2 ⟨rfl, rfl⟩)) fun _ _ _ => avoids_orPanic (by decide)

theorem checkGroup_avoids : Avoids GateFault (checkGroup id) s := by
  have hmember : ∀ m (u : Store), Avoids GateFault (memberFunded m) u := by
    intro m u
    exact .bind loadInvoice_avoids fun member w _ => .pure _
  have hfunded : ∀ groupId, Avoids GateFault (checkGroupFunded groupId) s := by
    intro groupId
    refine avoids_check (.of_ok (get_ok.2 ⟨rfl, rfl⟩)) fun w => ?_
    refine .bind ?_ fun members w' _ => ?_
    · refine avoids_check (.of_ok (get_ok.2 ⟨rfl, rfl⟩)) fun w' => ?_
      exact avoids_check (avoids_orPanic (by decide)) fun g => .pure _
    · refine .bind (.mapM fun m _ u => hmember m u) fun funded u _ => .require (.inr ?_)
      cases groupMode w groupId <;> decide
  unfold checkGroup
  refine avoids_check (.of_ok (getEntry_ok.2 ⟨rfl, rfl⟩)) fun e => ?_
  cases e.group with
  | none => exact .pure _
  | some groupId =>
      rw [Option.toList_some, List.forM_cons]
      exact .bind (hfunded groupId) fun _ _ _ => .pure _

theorem releaseSwitches_avoid {α : Type} {x : SplitM α} (hx : Avoids GateFault x s) :
    Avoids GateFault (do requireFnNotPaused env "release"; requireNotFrozen env; x) s := by
  refine avoids_check ?_ fun _ => ?_
  · exact .require_bind (.inr (by decide)) (.require_bind (.inr (by decide)) (.require (.inr (by decide))))
  refine avoids_check ?_ fun _ => hx
  exact .require_bind (.inr (by decide)) (.require (.inr (by decide)))

/-- With the gates open the checks of a release stop at none of them. -/
theorem releaseChecks_avoids {preimage : Option (List ℕ)} (hload : (s.entries id).load = some inv)
    (hgates : ExpiryGates env s id inv) : Avoids GateFault (releaseChecks env id preimage) s := by
  obtain ⟨required, paid, hrequired, hpaid, hfunded⟩ := hgates.funding
  have hprereq : checkPrerequisite inv s = .ok ((), s) := by
    have hbind := (checkPrerequisite_bind (k := fun _ => pure ()) (r := ((), s))).2
      ⟨hgates.prerequisite, rfl⟩
    simpa using hbind
  unfold releaseChecks
  apply releaseSwitches_avoid
  refine .bind (.of_ok (loadInvoice_ok.2 ⟨hload, rfl⟩)) fun loaded u hread => ?_
  obtain ⟨hsame, rfl⟩ := loadInvoice_ok.1 hread
  obtain rfl : inv = loaded := Option.some_inj.1 (hload.symm.trans hsame)
  refine avoids_check checkPreimage_avoids fun _ => ?_
  refine .require_bind (.inl hgates.frozen) (.require_bind (.inl hgates.adminFrozen) ?_)
  refine .require_bind (.inr (by decide)) (.require_bind (.inr (by decide)) ?_)
  refine .require_bind (.inl hgates.held) (avoids_check checkDispute_avoids fun _ => ?_)
  refine .bind (.of_ok (ofResult_ok.2 ⟨hrequired, rfl⟩)) fun least u hread => ?_
  obtain ⟨hleast, rfl⟩ := ofResult_ok.1 hread
  obtain rfl : required = least := Except.ok.inj (hrequired.symm.trans hleast)
  refine .bind (.of_ok (getEntry_ok.2 ⟨rfl, rfl⟩)) fun e u hentry => ?_
  obtain ⟨rfl, rfl⟩ := getEntry_ok.1 hentry
  refine .bind (.of_ok (ofResult_ok.2 ⟨hpaid, rfl⟩)) fun already u hread => ?_
  obtain ⟨halready, rfl⟩ := ofResult_ok.1 hread
  obtain rfl : paid = already := Except.ok.inj (hpaid.symm.trans halready)
  refine .require_bind (.inl hfunded) (avoids_check ?_ fun _ => ?_)
  · exact avoids_check (.of_ok (getEntry_ok.2 ⟨rfl, rfl⟩)) fun e => .require (.inr (by decide))
  refine avoids_check (.require (.inl hgates.approval)) fun _ => ?_
  refine avoids_check (.of_ok hprereq) fun _ => avoids_check checkGroup_avoids fun _ => ?_
  refine avoids_check (.require_bind (.inl hgates.coSigners) ?_) fun _ => .pure _
  refine .bind (.of_ok (getEntry_ok.2 ⟨rfl, rfl⟩)) fun e u hentry => ?_
  obtain ⟨rfl, rfl⟩ := getEntry_ok.1 hentry
  exact .require (.inl hgates.threshold)

theorem liftDispute_load (j : ℕ) : ((liftDispute k s).entries j).load =
    (s.entries j).load.map fun inv => if j = k then inv.withDisputed false else inv := by
  unfold liftDispute
  by_cases hj : j = k
  · subst hj
    rw [Store.setEntry_self]
    simp only [Entry.load, Option.map_map, if_true]
    rfl
  · rw [Store.setEntry_ne s hj]
    simp [hj]

/-- The flag of the dispute is none of the gates. -/
theorem ExpiryGates.lift (h : ExpiryGates env s k inv) :
    ExpiryGates env (liftDispute k s) k (inv.withDisputed false) := by
  have hpaid : ((liftDispute k s).entries k).paidRecipients = (s.entries k).paidRecipients := by
    rw [liftDispute, Store.setEntry_self]
  have hthreshold : thresholdMet ((liftDispute k s).entries k) := by
    rw [liftDispute, Store.setEntry_self]
    exact h.threshold
  refine ⟨h.frozen, h.adminFrozen, h.held, ?_, h.approval, fun prereqId hmem => ?_, h.coSigners, hthreshold⟩
  · rw [hpaid]
    exact h.funding
  · obtain ⟨prereq, hload, hstatus⟩ := h.prerequisite prereqId hmem
    refine ⟨if prereqId = k then prereq.withDisputed false else prereq, ?_, ?_⟩
    · rw [liftDispute_load, hload, Option.map_some]
    · split_ifs <;> exact hstatus

/-- In a run in which every dispute that ends with a release closes its invoice, and every one that
runs out finds the gates open, disputes only delay. -/
theorem payer_disputes_only_delay (k : ℕ) (s : Store) (calls : List (Env × PayerDisputeCall))
    (h : Along (DelayCall k) payerDisputeStep s calls) : OnlyDelays k s calls := by
  refine ⟨disputesEnded_le_one h, h.mono fun u c hcall hexpire preimage => ?_⟩
  cases hload : (u.entries k).load with
  | none =>
      have hmissing : ((liftDispute k u).entries k).load = none := by
        rw [liftDispute_load, hload, Option.map_none]
      unfold releaseChecks
      apply releaseSwitches_avoid
      refine .bind loadInvoice_avoids fun loaded w hread => ?_
      rw [(loadInvoice_ok.1 hread).1] at hmissing
      cases hmissing
  | some inv =>
      have hlift : ((liftDispute k u).entries k).load = some (inv.withDisputed false) := by
        rw [liftDispute_load, hload, Option.map_some, if_pos rfl]
      exact releaseChecks_avoids hlift ((hcall inv hload).2 hexpire).lift

/-- An environment with an administrator. -/
def governedEnv (now : ℕ) : Env := { sampleEnv now 200 with config := { admin := some 1 } }

/-- Payer 20 raises a dispute, and it runs out. -/
def expiredDispute : List (Env × PayerDisputeCall) :=
  [(governedEnv 10, .raise 1 20), (governedEnv 83, .expire 1)]

/-- Paid in full by payer 20. -/
def settledStore : Store :=
  sampleStore { sampleInvoice with funded := 100 } [{ payer := 20, amount := 100 }]

/-- A dispute about a fully paid invoice without gates runs out and ends in the one release. -/
theorem only_delay_sample :
    disputesEnded 1 settledStore expiredDispute = 1 ∧ OnlyDelays 1 settledStore expiredDispute := by
  refine ⟨by decide +kernel, payer_disputes_only_delay _ _ _ ⟨fun _ inv _ => ?_, fun _ inv hload => ?_,
    trivial⟩⟩
  · exact ⟨fun h => (Bool.false_ne_true h).elim, fun h => PayerDisputeCall.noConfusion h⟩
  · have hraised : ((commit (payerDisputeStep (governedEnv 10, .raise 1 20)) settledStore).entries 1).load =
        some { sampleInvoice with
          funded := 100, payments := [{ payer := 20, amount := 100 }], disputed := true } := rfl
    obtain rfl := Option.some_inj.1 (hraised.symm.trans hload)
    refine ⟨fun _ => .inr (.inr ⟨rfl, rfl, fun _ _ => rfl, ?_⟩), fun _ => ?_⟩
    · exact forwardReach_none fun stored hstored => by cases hstored; rfl
    · exact ⟨rfl, rfl, by decide, ⟨100, 0, rfl, rfl, by decide⟩, .inl rfl,
        fun _ hmem => (Option.not_mem_none _ hmem).elim, .inl rfl, by decide⟩

/-- Half paid, unapproved, and disputed by payer 20. -/
def unapprovedStore : Store :=
  sampleStore { sampleInvoice with funded := 50, approver := some 40 } [{ payer := 20, amount := 50 }]

/-- Paid in full, with one half released at once and the other one much later. -/
def lockedStore : Store :=
  sampleStore { sampleInvoice with funded := 100, tranches := [⟨20, 5000⟩, ⟨900, 5000⟩] }
    [{ payer := 20, amount := 100 }]

/-- The administrator approves one dispute and refunds the next. -/
def disputedTwice : List (Env × PayerDisputeCall) :=
  [(governedEnv 10, .raise 1 20), (governedEnv 30, .resolve 1 1 .approved),
    (governedEnv 31, .raise 1 20), (governedEnv 32, .resolve 1 1 .refunded)]

/-- Anyone has the recipients of a half-paid and unapproved invoice paid once the dispute has run
out; and of an invoice with tranches the recipients get one half and then the payer everything. -/
theorem disputes_do_more_than_delay :
    (paidOut 1 9 10 (runAll payerDisputeStep unapprovedStore expiredDispute) = 25 ∧
      ¬OnlyDelays 1 unapprovedStore expiredDispute) ∧
    (paidOut 1 9 10 (runAll payerDisputeStep lockedStore disputedTwice) = 25 ∧
      refundedTo 1 20 (runAll payerDisputeStep lockedStore disputedTwice) = 100 ∧
      ¬OnlyDelays 1 lockedStore disputedTwice) := by
  refine ⟨⟨by decide +kernel, fun h => ?_⟩, by decide +kernel, by decide +kernel, fun h => ?_⟩
  · obtain ⟨-, hexpired, -⟩ := h.gated
    have hstops : releaseChecks (governedEnv 83) 1 none (liftDispute 1
        (commit (payerDisputeStep (governedEnv 10, .raise 1 20)) unapprovedStore)) =
          .error (.panic "minimum funding not reached") := rfl
    have hreturns : (payerDisputeStep (governedEnv 83, .expire 1)
        (commit (payerDisputeStep (governedEnv 10, .raise 1 20)) unapprovedStore)).isOk = true := by
      decide +kernel
    exact hexpired (isOk_iff.1 hreturns) rfl none _ hstops (by decide)
  · have honce := h.once
    revert honce
    decide +kernel

end StellarSplit.Split
