import StellarSplit.Lib.Registry
import StellarSplit.Escrow.Settlement

/-!
# Refund terms

When refunds open is fixed by the deadline and the grace record of the invoice.
The grace stays within its bound, the default is copied at creation, and the
views, the status and `refund` agree on the opening time. Once refunds are open
for an invoice with deposits, only a waiver can still change the record, and a
waiver does not close them.
-/

namespace StellarSplit.Escrow

open Exec Function Relation Machine Registry

variable {env : Env} {s t : Store} {v : Unit} {op : Op} {id : ℕ} {inv : EscrowInvoice}

/-! ## The opening time and the status -/

theorem deadline_le_opensAt (hword : inv.deadline ≤ u64Max) (grace : Option RefundGrace) :
    inv.deadline ≤ refundOpensAt inv grace := by
  unfold refundOpensAt
  cases grace with
  | none => exact le_rfl
  | some g =>
      dsimp only
      split
      · exact le_rfl
      · unfold satAddU64
        omega

theorem opensAt_le {grace : Option RefundGrace} {bound : ℕ}
    (h : ∀ g ∈ grace, g.graceSecs + g.extensionSecs ≤ bound) :
    refundOpensAt inv grace ≤ inv.deadline + bound := by
  unfold refundOpensAt
  cases grace with
  | none => exact Nat.le_add_right _ _
  | some g =>
      have hg := h g rfl
      dsimp only
      split
      · exact Nat.le_add_right _ _
      · unfold satAddU64
        omega

/-- Refunds are open exactly when the grace has elapsed, or there is none left to wait for and
the deadline has passed. -/
theorem opensAt_lt_iff (hword : inv.deadline ≤ u64Max) (grace : Option RefundGrace) :
    refundOpensAt inv grace < env.now ↔
      graceStatus env inv grace = .elapsed ∨
        ((graceStatus env inv grace = .noGrace ∨ graceStatus env inv grace = .waived) ∧
          inv.deadline < env.now) := by
  cases grace with
  | none => simp [refundOpensAt, graceStatus]
  | some g =>
      have hle : inv.deadline ≤ refundOpensAt inv (some g) := deadline_le_opensAt hword _
      unfold graceStatus
      dsimp only
      split_ifs with hset hwaived hearly hactive
      · simp [refundOpensAt, hwaived]
      · simp only [or_self, false_and, iff_false]
        omega
      · simp only [or_self, false_and, iff_false]
        omega
      · simp only [true_or, iff_true]
        omega
      · -- a record without grace opens at the deadline
        have hzero : g.graceSecs = 0 ∧ g.extensionSecs = 0 := by omega
        have hsame : refundOpensAt inv (some g) = inv.deadline := by
          simp only [refundOpensAt, satAddU64, hzero.1, hzero.2, Nat.add_zero, min_eq_left hword,
            ite_self]
        simp [hsame]

theorem refundPayer_fault {token payer : Address} {e : Fault Error}
    (h : refundPayer env id token payer s = .error e) : e = .tokenRefused := by
  unfold refundPayer at h
  rw [bind_run (get_ok.2 ⟨rfl, rfl⟩)] at h
  split at h
  · rw [bind_run (set_ok (v := ()).2 rfl)] at h
    unfold transfer at h
    rw [bind_run (get_ok.2 ⟨rfl, rfl⟩)] at h
    rcases bind_error.1 h with hcheck | ⟨_, t, -, hset⟩
    · unfold require at hcheck
      split at hcheck
      · cases hcheck
      · cases hcheck
        rfl
    · cases hset
  · cases h

/-- The two time checks of `refund` fail exactly until refunds open. -/
theorem refund_time_checks {payers : List Address} {reason : RefundReason}
    (hinv : s.invoices id = some inv) (hopen : isOpen inv = true) (hword : inv.deadline ≤ u64Max) :
    (refund env id payers reason s ≠ .error (.error .deadlineNotPassed) ∧
      refund env id payers reason s ≠ .error (.error .refundGraceActive)) ↔
      refundOpensAt inv (s.graces id) < env.now := by
  have hle : inv.deadline ≤ refundOpensAt inv (s.graces id) := deadline_le_opensAt hword _
  have hfound : getInvoice id s = .ok (inv, s) := getInvoice_ok.2 ⟨hinv, rfl⟩
  have hunsettled : requireUnsettled inv s = .ok ((), s) :=
    require_ok.2 ⟨unsettled_of_isOpen hopen, rfl⟩
  unfold refund
  rw [bind_run hfound, bind_run hunsettled]
  by_cases hdeadline : inv.deadline < env.now
  · rw [bind_run (require_run hdeadline _ s), bind_run (get_ok.2 ⟨rfl, rfl⟩)]
    by_cases hgrace : refundOpensAt inv (s.graces id) < env.now
    · rw [bind_run (require_run hgrace _ s)]
      -- past the time checks only the token can refuse
      have hfault : ∀ e, (forM payers (refundPayer env id inv.token) >>= fun _ => saveInvoice id
          { inv with status := .refunded, refundReason := some reason }) s = .error e →
          e = .tokenRefused := by
        intro e he
        rcases bind_error.1 he with hloop | ⟨_, t, -, hsave⟩
        · obtain ⟨p, -, u, hp⟩ := forM_error hloop
          exact refundPayer_fault hp
        · cases hsave
      refine iff_of_true ⟨fun he => ?_, fun he => ?_⟩ hgrace
      · cases hfault _ he
      · cases hfault _ he
    · rw [bind_trap (require_trap hgrace _ s)]
      simp [hgrace]
  · rw [bind_trap (require_trap hdeadline _ s)]
    have hclosed : ¬refundOpensAt inv (s.graces id) < env.now := by omega
    simp [hclosed]

/-! ## Terms of reachable storages -/

namespace Books

/-- Without a creation, every invoice has its old deadline, and a pending one is untouched. -/
def Ages (b b' : Books) : Prop :=
  b.count ≤ b'.count ∧ (b'.count = b.count → ∀ id inv', b'.invoices id = some inv' →
    ∃ inv, b.invoices id = some inv ∧ inv'.deadline = inv.deadline ∧
      (inv'.status = .pending → inv' = inv))

theorem Ages.of_store {b : Books} {id : ℕ} {inv inv' : EscrowInvoice}
    (hinv : b.invoices id = some inv) (hdeadline : inv'.deadline = inv.deadline)
    (hstatus : inv'.status ≠ .pending) : Ages b (b.withInvoice id inv') := by
  refine ⟨le_rfl, fun _ j found hfound => ?_⟩
  by_cases hj : j = id
  · subst hj
    obtain rfl := Option.some.inj ((withInvoice_self b j inv').symm.trans hfound)
    exact ⟨inv, hinv, hdeadline, fun hp => absurd hp hstatus⟩
  · rw [withInvoice_ne b hj] at hfound
    exact ⟨found, hfound, rfl, fun _ => rfl⟩

theorem Move.ages {b b' : Books} (h : Move b b') : Ages b b' := by
  cases h with
  | create inv hstatus hfunded htotal =>
      refine ⟨Nat.le_succ _, fun hcount => ?_⟩
      have hsucc : b.count + 1 = b.count := hcount
      omega
  | fund hinv hopen hpos hpayer hfit => exact Ages.of_store hinv rfl nofun
  | payOut id inv hinv hopen hfull => exact Ages.of_store hinv rfl nofun
  | close status reason hinv hopen hstatus =>
      have hne : status ≠ .pending := by rcases hstatus with rfl | rfl <;> simp
      exact Ages.of_store hinv rfl hne
  | giveBack payer hinv hstatus hpos =>
      exact ⟨le_rfl, fun _ j found hfound => ⟨found, hfound, rfl, fun _ => rfl⟩⟩

theorem moves_age {b b' : Books} (h : ReflTransGen Move b b') : Ages b b' := by
  induction h with
  | refl => exact ⟨le_rfl, fun _ j found hfound => ⟨found, hfound, rfl, fun _ => rfl⟩⟩
  | tail _ hlast ih =>
      rename_i c d
      obtain ⟨hle, hkeep⟩ := ih
      obtain ⟨hle', hkeep'⟩ := hlast.ages
      refine ⟨hle.trans hle', fun hcount id inv' hinv' => ?_⟩
      obtain ⟨mid, hmid, hdeadline', hpending'⟩ := hkeep' (by omega) id inv' hinv'
      obtain ⟨inv, hinv, hdeadline, hpending⟩ := hkeep (by omega) id mid hmid
      refine ⟨inv, hinv, hdeadline'.trans hdeadline, fun hstatus => ?_⟩
      have hsame := hpending' hstatus
      rw [hsame]
      exact hpending (hsame ▸ hstatus)

end Books

/-- The seconds a grace record adds to the deadline. -/
def RefundGrace.total (g : RefundGrace) : ℕ := g.graceSecs + g.extensionSecs

/-- An extension is refused once refunds are open. -/
theorem requireGraceNotOver_running (hword : inv.deadline ≤ u64Max) {grace : Option RefundGrace}
    (h : requireGraceNotOver env inv grace s = .ok (v, t)) :
    ¬refundOpensAt inv grace < env.now := by
  intro hopen
  rcases (opensAt_lt_iff hword grace).1 hopen with hst | ⟨hst | hst, hpast⟩
  · simp [requireGraceNotOver, hst] at h
  · simp [requireGraceNotOver, hst] at h
    omega
  · simp [requireGraceNotOver, hst] at h

theorem checkedSum_eq {a b c n : ℕ}
    (h : (checkedAddU64 a b).bind (checkedAddU64 · c) = some n) : n = a + b + c := by
  obtain ⟨m, hm, hn⟩ := Option.bind_eq_some_iff.1 h
  unfold checkedAddU64 at hm hn
  split at hm
  · split at hn
    · have hab := Option.some.inj hm
      have hsum := Option.some.inj hn
      omega
    · cases hn
  · cases hm

/-- Deadlines are words, an invoice without deposits is the only pending one, and every grace
stays within the bound. -/
structure Store.TermsSound (s : Store) : Prop where
  deadline : ∀ id inv, s.invoices id = some inv → inv.deadline ≤ u64Max
  unfunded : ∀ id inv, s.invoices id = some inv → inv.status = .pending → inv.fundedAmount = 0
  default : s.defaultGrace.getD 0 ≤ maxRefundGraceSecs
  grace : ∀ id g, s.graces id = some g → g.total ≤ maxRefundGraceSecs

/-- The entry points the refund terms are set with. -/
def Op.setsGrace : Op → Bool
  | .setDefaultRefundGrace _ | .setRefundGrace _ _ | .extendRefundGrace _ _
  | .waiveRefundGrace _ => true
  | _ => false

/-- What one of the grace entry points can do. -/
inductive GraceStep (env : Env) (s : Store) : Op → Store → Prop where
  | default {secs : ℕ} (hbound : secs ≤ maxRefundGraceSecs) :
      GraceStep env s (.setDefaultRefundGrace secs) { s with defaultGrace := some secs }
  | set {id secs : ℕ} {inv : EscrowInvoice} (hinv : s.invoices id = some inv)
      (hstatus : inv.status = .pending) (hbound : secs ≤ maxRefundGraceSecs) :
      GraceStep env s (.setRefundGrace id secs)
        { s with graces := update s.graces id (some ⟨secs, 0, false⟩) }
  | extend {id extra : ℕ} {inv : EscrowInvoice} {g : RefundGrace} (hinv : s.invoices id = some inv)
      (hrunning : ¬refundOpensAt inv (s.graces id) < env.now)
      (hgrace : s.graces id = some g ∨ (s.graces id = none ∧ g = ⟨0, 0, false⟩))
      (hbound : g.total + extra ≤ maxRefundGraceSecs) :
      GraceStep env s (.extendRefundGrace id extra)
        { s with
          graces := update s.graces id (some { g with extensionSecs := g.extensionSecs + extra }) }
  | waive {id : ℕ} {inv : EscrowInvoice} {g : RefundGrace} (hinv : s.invoices id = some inv)
      (hgrace : s.graces id = some g) :
      GraceStep env s (.waiveRefundGrace id)
        { s with graces := update s.graces id (some { g with waived := true }) }

theorem graceStep_of_ok (hs : s.TermsSound) (hop : op.setsGrace = true)
    (h : step (env, op) s = .ok (v, t)) : GraceStep env s op t := by
  cases op with
  | setDefaultRefundGrace secs =>
      obtain ⟨hbound, rfl⟩ := setDefaultRefundGrace_ok h
      exact .default hbound
  | setRefundGrace id secs =>
      obtain ⟨inv, hinv, hstatus, hbound, rfl⟩ := setRefundGrace_ok h
      exact .set hinv hstatus hbound
  | extendRefundGrace id extra =>
      obtain ⟨inv, _, total, hinv, rfl, hu, htotal, hbound, rfl⟩ := extendRefundGrace_ok h
      have hrunning := requireGraceNotOver_running (hs.deadline id inv hinv) hu
      have hsum := checkedSum_eq htotal
      refine .extend hinv hrunning ?_ (hsum ▸ hbound)
      cases s.graces id with
      | none => exact .inr ⟨rfl, rfl⟩
      | some g => exact .inl rfl
  | waiveRefundGrace id =>
      obtain ⟨inv, g, hinv, hg, rfl⟩ := waiveRefundGrace_ok h
      exact .waive hinv hg
  | _ => simp [Op.setsGrace] at hop

theorem GraceStep.keepsInvoices (h : GraceStep env s op t) : t.invoices = s.invoices := by
  cases h <;> rfl

theorem GraceStep.termsSound (hs : s.TermsSound) (h : GraceStep env s op t) : t.TermsSound := by
  cases h with
  | default hbound => exact ⟨hs.deadline, hs.unfunded, hbound, hs.grace⟩
  | set hinv hstatus hbound =>
      exact ⟨hs.deadline, hs.unfunded, hs.default, forall_update hs.grace hbound⟩
  | extend hinv hrunning hold hbound =>
      refine ⟨hs.deadline, hs.unfunded, hs.default, forall_update hs.grace ?_⟩
      unfold RefundGrace.total at hbound ⊢
      dsimp only
      omega
  | waive hinv hold =>
      have hle := hs.grace _ _ hold
      exact ⟨hs.deadline, hs.unfunded, hs.default, forall_update hs.grace hle⟩

theorem createInvoice_termsSound {creator token : Address} {total : ℤ} {deadline n : ℕ}
    (hs : s.TermsSound) (h : createInvoice env creator token total deadline s = .ok (n, t)) :
    t.TermsSound := by
  obtain ⟨-, -, hdeadline, -, graces, hgraces, rfl⟩ := createInvoice_ok h
  have hword : deadline ≤ u64Max := hdeadline.trans (min_le_right _ _)
  refine ⟨forall_update hs.deadline hword, forall_update hs.unfunded fun _ => rfl, hs.default, ?_⟩
  rcases hgraces with rfl | rfl
  · exact hs.grace
  · exact forall_update hs.grace hs.default

theorem step_termsSound (hs : s.TermsSound) (h : step (env, op) s = .ok (v, t)) :
    t.TermsSound := by
  by_cases hgrace : op.setsGrace = true
  · exact (graceStep_of_ok hs hgrace h).termsSound hs
  by_cases hcreate : ∃ creator token total deadline, op = .createInvoice creator token total deadline
  · obtain ⟨creator, token, total, deadline, rfl⟩ := hcreate
    obtain ⟨n, h⟩ := ignore_ok.1 h
    exact createInvoice_termsSound hs h
  -- every other call leaves the grace data alone and ages the invoices
  have hside : t.graces = s.graces ∧ t.defaultGrace = s.defaultGrace := by
    refine (step_side h).graces ?_
    cases op <;> simp_all [Op.gracing, Op.setsGrace]
  have hold : ∀ j found, t.invoices j = some found → ∃ inv, s.invoices j = some inv ∧
      found.deadline = inv.deadline ∧ (found.status = .pending → found = inv) := by
    rcases step_moves h with ⟨hmoves, hcount | hcreated⟩ | ⟨hinvoices, -⟩
    · exact (Books.moves_age hmoves).2 (congrArg (Option.getD · 0) hcount)
    · exact absurd hcreated hcreate
    · intro j found hfound
      exact ⟨found, hinvoices ▸ hfound, rfl, fun _ => rfl⟩
  refine ⟨fun j found hfound => ?_, fun j found hfound hstatus => ?_, ?_, ?_⟩
  · obtain ⟨inv, hinv, hdeadline, -⟩ := hold j found hfound
    rw [hdeadline]
    exact hs.deadline j inv hinv
  · obtain ⟨inv, hinv, -, hsame⟩ := hold j found hfound
    obtain rfl := hsame hstatus
    exact hs.unfunded j found hinv hstatus
  · rw [hside.2]
    exact hs.default
  · rw [hside.1]
    exact hs.grace

theorem reach_termsSound (calls : List (Env × Op)) : (reach calls).TermsSound := by
  refine runAll_invariant (fun _ _ _ _ hs h => step_termsSound hs h) ?_ calls
  exact ⟨nofun, nofun, Nat.zero_le _, nofun⟩

/-! ## Open refunds stay open -/

/-- A grace call at a time when refunds are open leaves them open from the same time on. -/
theorem GraceStep.keepsOpen {τ : ℕ} (hs : s.TermsSound) (h : GraceStep env s op t)
    (hinv : s.invoices id = some inv) (hfunded : 0 < inv.fundedAmount)
    (hopen : refundOpensAt inv (s.graces id) < τ) (hnow : τ ≤ env.now) :
    refundOpensAt inv (t.graces id) < τ := by
  cases h with
  | default hbound => exact hopen
  | set hinv' hstatus hbound =>
      rename_i j secs inv'
      by_cases hj : id = j
      · -- an invoice with a deposit is not pending
        subst hj
        obtain rfl := Option.some.inj (hinv.symm.trans hinv')
        have hzero := hs.unfunded id inv hinv hstatus
        omega
      · simpa [update_of_ne hj] using hopen
  | extend hinv' hrunning hold hbound =>
      rename_i j extra inv' g
      by_cases hj : id = j
      · subst hj
        obtain rfl := Option.some.inj (hinv.symm.trans hinv')
        omega
      · simpa [update_of_ne hj] using hopen
  | waive hinv' hold =>
      rename_i j inv' g
      by_cases hj : id = j
      · subst hj
        have hle := deadline_le_opensAt (hs.deadline id inv hinv) (s.graces id)
        have hwaived : refundOpensAt inv (some { g with waived := true }) = inv.deadline := rfl
        simp only [update_self, hwaived]
        omega
      · simpa [update_of_ne hj] using hopen

/-- Refunds of an invoice with a deposit are open from before `τ` on. -/
structure OpenSince (τ id : ℕ) (inv : EscrowInvoice) (s : Store) : Prop where
  terms : s.TermsSound
  invoice : s.invoices id = some inv
  opened : refundOpensAt inv (s.graces id) < τ

theorem grace_run_keepsOpen {τ : ℕ} (hfunded : 0 < inv.fundedAmount)
    {calls : List (Env × Op)} (hcalls : ∀ c ∈ calls, c.2.setsGrace = true ∧ τ ≤ c.1.now)
    (hs : OpenSince τ id inv s) : OpenSince τ id inv (runAll step s calls) := by
  have halong := (along_true step s calls).and_mem hcalls
  refine runAll_induction ?_ hs halong
  rintro s ⟨env, op⟩ v t hs ⟨⟨hop, hnow⟩, -⟩ hstep
  have hgrace := graceStep_of_ok hs.terms hop hstep
  refine ⟨hgrace.termsSound hs.terms, ?_, ?_⟩
  · rw [hgrace.keepsInvoices]
    exact hs.invoice
  · exact hgrace.keepsOpen hs.terms hs.invoice hfunded hs.opened hnow

/-- In every reachable state: a grace stays within its bound, so refunds open by the deadline plus
that bound; a new default changes no invoice; for an open invoice, `refund` passes its time checks
exactly after the reported opening time, and that is what the status says; and no grace call made
after the refunds of an open invoice with a deposit have opened moves their opening past that
time. -/
theorem refund_terms_stable (calls : List (Env × Op)) :
    (∀ id g, (reach calls).graces id = some g → g.total ≤ maxRefundGraceSecs) ∧
    (∀ id inv, (reach calls).invoices id = some inv →
      refundOpensAt inv ((reach calls).graces id) ≤ inv.deadline + maxRefundGraceSecs) ∧
    (∀ env secs v t, setDefaultRefundGrace env secs (reach calls) = .ok (v, t) →
      t.invoices = (reach calls).invoices ∧ t.graces = (reach calls).graces) ∧
    (∀ id inv env payers reason, (reach calls).invoices id = some inv → isOpen inv = true →
      ((refund env id payers reason (reach calls) ≠ .error (.error .deadlineNotPassed) ∧
          refund env id payers reason (reach calls) ≠ .error (.error .refundGraceActive)) ↔
        ∃ opens, refundAvailableAfter (reach calls) id = .ok opens ∧ opens < env.now) ∧
      ((∃ opens, refundAvailableAfter (reach calls) id = .ok opens ∧ opens < env.now) ↔
        getRefundGraceStatus env (reach calls) id = .ok .elapsed ∨
          ((getRefundGraceStatus env (reach calls) id = .ok .noGrace ∨
              getRefundGraceStatus env (reach calls) id = .ok .waived) ∧
            inv.deadline < env.now))) ∧
    (∀ id inv payer τ (later : List (Env × Op)), (reach calls).invoices id = some inv →
      isOpen inv = true → 0 < ((reach calls).deposits id).value payer →
      refundOpensAt inv ((reach calls).graces id) < τ →
      (∀ c ∈ later, c.2.setsGrace = true ∧ τ ≤ c.1.now) →
      (runAll step (reach calls) later).invoices id = some inv ∧
        refundOpensAt inv ((runAll step (reach calls) later).graces id) < τ) := by
  have hterms := reach_termsSound calls
  have hsound := reach_sound calls
  generalize reach calls = s at hterms hsound
  refine ⟨hterms.grace, ?_, ?_, ?_, ?_⟩
  · intro id inv hinv
    exact opensAt_le fun g hg => hterms.grace id g hg
  · intro env secs v t h
    have hstep : GraceStep env s (.setDefaultRefundGrace secs) t := graceStep_of_ok hterms rfl h
    cases hstep
    exact ⟨rfl, rfl⟩
  · intro id inv env payers reason hinv hopen
    have hword := hterms.deadline id inv hinv
    have hview : (∃ opens, refundAvailableAfter s id = .ok opens ∧ opens < env.now) ↔
        refundOpensAt inv (s.graces id) < env.now := by
      simp [refundAvailableAfter, hinv]
    have hstatus : getRefundGraceStatus env s id = .ok (graceStatus env inv (s.graces id)) := by
      simp [getRefundGraceStatus, hinv]
    rw [hview, hstatus]
    refine ⟨refund_time_checks hinv hopen hword, ?_⟩
    simpa only [Except.ok.injEq] using opensAt_lt_iff hword (s.graces id)
  · intro id inv payer τ later hinv hopen hdeposit hopened hlater
    have hacc := hsound.solvent.sound.account id
    have hfunded : 0 < inv.fundedAmount := by
      rw [(hacc.whileOpen inv hinv hopen).1]
      exact lt_of_lt_of_le hdeposit (hacc.value_le_total payer)
    have hrun := grace_run_keepsOpen hfunded hlater ⟨hterms, hinv, hopened⟩
    exact ⟨hrun.invoice, hrun.opened⟩

/-- Payer 3 deposits into invoice 0, which has a grace of ten seconds. -/
def gracedDeposit : List (Env × Op) :=
  [(openEnv 0, .initializeEscrow 1), (openEnv 0, .setDefaultRefundGrace 10),
    (openEnv 0, .createInvoice 2 9 100 50), (openEnv 1, .deposit 3 0 40)]

theorem graced_sample_stays_open :
    refundAvailableAfter (reach gracedDeposit) 0 = .ok 60 ∧
      refundOpensAt ⟨2, 9, 100, 40, 50, .active, none⟩
        ((runAll step (reach gracedDeposit)
          [(openEnv 61, .setRefundGrace 0 500), (openEnv 62, .extendRefundGrace 0 500)]).graces 0) <
        61 := by
  refine ⟨by decide +kernel, ?_⟩
  obtain ⟨-, -, -, -, hstays⟩ := refund_terms_stable gracedDeposit
  refine (hstays 0 ⟨2, 9, 100, 40, 50, .active, none⟩ 3 61 _ ?_ ?_ ?_ ?_ ?_).2
  · decide +kernel
  · decide +kernel
  · decide +kernel
  · decide +kernel
  · simp [Op.setsGrace, openEnv]

end StellarSplit.Escrow
