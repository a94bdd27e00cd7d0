import StellarSplit.Escrow.Books
import StellarSplit.Escrow.Gates

/-!
# Solvency of the escrow

Every call of the contract is a sequence of moves of its books, so the
books of every reachable storage are sound: funding stays within the
total, an invoice pays its creator or its payers but never both, and the
contract holds the recorded deposits of every invoice that was not released.
-/

namespace StellarSplit.Escrow

open Exec Function Relation Machine

def Store.books (s : Store) : Books where
  count := s.counter.getD 0
  invoices := s.invoices
  deposits := s.deposits
  log := s.log

/-- Nothing is counted before the contract is initialised, and the books are sound. -/
structure Store.Solvent (s : Store) : Prop where
  counted : s.admin = none → s.counter.getD 0 = 0
  sound : s.books.Sound

/-! ## Calls that leave the books alone -/

/-- The entry points that touch neither the books nor the votes. -/
def Op.quiet : Op → Bool
  | .transferAdmin _ | .acceptAdmin | .cancelTransfer | .setOracleCondition _ _
  | .clearOracleCondition _ | .scheduleRelease _ _ _ | .cancelReleaseSchedule _
  | .setDefaultRefundGrace _ | .setRefundGrace _ _ | .extendRefundGrace _ _
  | .waiveRefundGrace _ | .blacklistPayer _ _ _ | .submitAppeal _ _ _
  | .finaliseBlacklist _ _ _ => true
  | _ => false

/-- The entry points that may write a grace record or the default. -/
def Op.gracing : Op → Bool
  | .createInvoice _ _ _ _ | .setDefaultRefundGrace _ | .setRefundGrace _ _
  | .extendRefundGrace _ _ | .waiveRefundGrace _ => true
  | _ => false

/-- The entry points that may write the blacklist. -/
def Op.banning : Op → Bool
  | .blacklistPayer _ _ _ | .submitAppeal _ _ _ | .finaliseBlacklist _ _ _ => true
  | _ => false

/-- Grace records, their default and the blacklist are written by their own entry points. -/
structure SideKept (op : Op) (s t : Store) : Prop where
  graces : op.gracing = false → t.graces = s.graces ∧ t.defaultGrace = s.defaultGrace
  blacklist : op.banning = false → t.blacklist = s.blacklist

def Store.side (s : Store) : (ℕ → Option RefundGrace) × Option ℕ × (Address → Option BlacklistEntry) :=
  (s.graces, s.defaultGrace, s.blacklist)

theorem SideKept.of_side {op : Op} {s t : Store} (h : t.side = s.side) : SideKept op s t := by
  obtain ⟨hgraces, hrest⟩ := Prod.mk.inj h
  obtain ⟨hdefault, hblacklist⟩ := Prod.mk.inj hrest
  exact ⟨fun _ => ⟨hgraces, hdefault⟩, fun _ => hblacklist⟩

/-- Books, votes and the initialisation of two storages agree. -/
structure SameBooks (s t : Store) : Prop where
  books : t.books = s.books
  approvals : t.approvals = s.approvals
  admin : t.admin = none → s.admin = none

section Frame

variable {env : Env} {s t : Store} {v : Unit}

theorem requireGraceNotOver_ok {inv : EscrowInvoice} {g : Option RefundGrace}
    (h : requireGraceNotOver env inv g s = .ok (v, t)) : s = t := by
  cases hg : graceStatus env inv g <;> simp [requireGraceNotOver, hg] at h
  · exact h.2
  · exact h
  · exact h

theorem requireGraceToWaive_ok {inv : EscrowInvoice} {g : Option RefundGrace}
    (h : requireGraceToWaive env inv g s = .ok (v, t)) : s = t := by
  cases hg : graceStatus env inv g <;> simp [requireGraceToWaive, hg] at h
  · exact h
  · exact h

theorem requireNamedAdmin_ok {a : Address} (h : requireNamedAdmin env a s = .ok (v, t)) : s = t := by
  simp only [requireNamedAdmin, bind_ok, get_ok, require_ok, requireInitialized_ok,
    requireAuth_ok] at h
  obtain ⟨_, _, ⟨-, rfl⟩, _, _, ⟨rfl, rfl⟩, _, _, ⟨-, rfl⟩, -, rfl⟩ := h
  rfl

theorem setDefaultRefundGrace_ok {secs : ℕ} (h : setDefaultRefundGrace env secs s = .ok (v, t)) :
    secs ≤ maxRefundGraceSecs ∧ t = { s with defaultGrace := some secs } := by
  simp [setDefaultRefundGrace] at h
  obtain ⟨-, -, hbound, rfl⟩ := h
  exact ⟨hbound, rfl⟩

theorem setRefundGrace_ok {id secs : ℕ} (h : setRefundGrace env id secs s = .ok (v, t)) :
    ∃ inv, s.invoices id = some inv ∧ inv.status = .pending ∧ secs ≤ maxRefundGraceSecs ∧
      t = { s with graces := update s.graces id (some ⟨secs, 0, false⟩) } := by
  simp [setRefundGrace] at h
  obtain ⟨inv, hinv, -, hstatus, hbound, rfl⟩ := h
  exact ⟨inv, hinv, hstatus, hbound, rfl⟩

/-- An extension of a grace that was never set starts from an empty record. -/
theorem extendRefundGrace_ok {id extra : ℕ} (h : extendRefundGrace env id extra s = .ok (v, t)) :
    ∃ inv g total, s.invoices id = some inv ∧ g = (s.graces id).getD ⟨0, 0, false⟩ ∧
      requireGraceNotOver env inv (s.graces id) s = .ok ((), s) ∧
      (checkedAddU64 g.graceSecs g.extensionSecs).bind (checkedAddU64 · extra) = some total ∧
      total ≤ maxRefundGraceSecs ∧
      t = { s with
        graces := update s.graces id (some { g with extensionSecs := g.extensionSecs + extra }) } := by
  simp [extendRefundGrace] at h
  obtain ⟨-, -, inv, hinv, -, u, s', hrunning, total, htotal, ⟨-, hbound⟩, rfl⟩ := h
  obtain rfl := requireGraceNotOver_ok hrunning
  exact ⟨inv, _, total, hinv, rfl, hrunning, htotal, hbound, rfl⟩

theorem waiveRefundGrace_ok {id : ℕ} (h : waiveRefundGrace env id s = .ok (v, t)) :
    ∃ inv g, s.invoices id = some inv ∧ s.graces id = some g ∧
      t = { s with graces := update s.graces id (some { g with waived := true }) } := by
  simp [waiveRefundGrace] at h
  obtain ⟨-, -, inv, hinv, -, u, s', hu, g, hg, rfl⟩ := h
  obtain rfl := requireGraceToWaive_ok hu
  exact ⟨inv, g, hinv, hg, rfl⟩

theorem step_quiet {op : Op} (hop : op.quiet = true) (h : step (env, op) s = .ok (v, t)) :
    SameBooks s t ∧ SideKept op s t := by
  cases op with
  | transferAdmin newAdmin =>
      simp [step, transferAdmin] at h
      obtain ⟨-, -, rfl⟩ := h
      exact ⟨⟨rfl, rfl, id⟩, ⟨fun _ => ⟨rfl, rfl⟩, fun _ => rfl⟩⟩
  | acceptAdmin =>
      simp [step, acceptAdmin] at h
      obtain ⟨a, -, -, rfl⟩ := h
      exact ⟨⟨rfl, rfl, fun h => absurd h (Option.some_ne_none a)⟩, ⟨fun _ => ⟨rfl, rfl⟩, fun _ => rfl⟩⟩
  | cancelTransfer =>
      simp [step, cancelTransfer] at h
      obtain ⟨-, -, -, rfl⟩ := h
      exact ⟨⟨rfl, rfl, id⟩, ⟨fun _ => ⟨rfl, rfl⟩, fun _ => rfl⟩⟩
  | setOracleCondition id cond =>
      simp [step, setOracleCondition] at h
      obtain ⟨inv, -, -, -, -, rfl⟩ := h
      exact ⟨⟨rfl, rfl, fun h => h⟩, ⟨fun _ => ⟨rfl, rfl⟩, fun _ => rfl⟩⟩
  | clearOracleCondition id =>
      simp [step, clearOracleCondition] at h
      obtain ⟨-, -, inv, -, -, -, rfl⟩ := h
      exact ⟨⟨rfl, rfl, fun h => h⟩, ⟨fun _ => ⟨rfl, rfl⟩, fun _ => rfl⟩⟩
  | scheduleRelease id releaseAt minLedgers =>
      simp [step, scheduleRelease] at h
      obtain ⟨inv, -, -, -, -, u, -, rfl⟩ := h
      exact ⟨⟨rfl, rfl, fun h => h⟩, ⟨fun _ => ⟨rfl, rfl⟩, fun _ => rfl⟩⟩
  | cancelReleaseSchedule id =>
      simp [step, cancelReleaseSchedule] at h
      obtain ⟨inv, -, -, -, r, -, rfl⟩ := h
      exact ⟨⟨rfl, rfl, fun h => h⟩, ⟨fun _ => ⟨rfl, rfl⟩, fun _ => rfl⟩⟩
  | setDefaultRefundGrace graceSecs =>
      obtain ⟨-, rfl⟩ := setDefaultRefundGrace_ok h
      exact ⟨⟨rfl, rfl, fun h => h⟩, ⟨fun h => absurd h.symm Bool.false_ne_true, fun _ => rfl⟩⟩
  | setRefundGrace id graceSecs =>
      obtain ⟨inv, -, -, -, rfl⟩ := setRefundGrace_ok h
      exact ⟨⟨rfl, rfl, fun h => h⟩, ⟨fun h => absurd h.symm Bool.false_ne_true, fun _ => rfl⟩⟩
  | extendRefundGrace id extraSecs =>
      obtain ⟨inv, g, total, -, -, -, -, -, rfl⟩ := extendRefundGrace_ok h
      exact ⟨⟨rfl, rfl, fun h => h⟩, ⟨fun h => absurd h.symm Bool.false_ne_true, fun _ => rfl⟩⟩
  | waiveRefundGrace id =>
      obtain ⟨inv, g, -, -, rfl⟩ := waiveRefundGrace_ok h
      exact ⟨⟨rfl, rfl, fun h => h⟩, ⟨fun h => absurd h.symm Bool.false_ne_true, fun _ => rfl⟩⟩
  | blacklistPayer admin payer reasonHash =>
      simp [step, blacklistPayer] at h
      obtain ⟨u, s', hu, rfl⟩ := h
      obtain rfl := requireNamedAdmin_ok hu
      exact ⟨⟨rfl, rfl, fun h => h⟩, ⟨fun _ => ⟨rfl, rfl⟩, fun h => absurd h.symm Bool.false_ne_true⟩⟩
  | submitAppeal payer invoiceId appealHash =>
      simp [step, submitAppeal] at h
      obtain ⟨-, e, -, -, -, rfl⟩ := h
      exact ⟨⟨rfl, rfl, fun h => h⟩, ⟨fun _ => ⟨rfl, rfl⟩, fun h => absurd h.symm Bool.false_ne_true⟩⟩
  | finaliseBlacklist admin payer uphold =>
      simp [step, finaliseBlacklist] at h
      obtain ⟨u, s', hu, e, -, -, h⟩ := h
      obtain rfl := requireNamedAdmin_ok hu
      cases uphold <;> simp at h <;> subst h <;> exact ⟨⟨rfl, rfl, fun h => h⟩, ⟨fun _ => ⟨rfl, rfl⟩, fun h => absurd h.symm Bool.false_ne_true⟩⟩
  | _ => simp [Op.quiet] at hop

end Frame

/-! ## Calls that move money -/

section Money

variable {env : Env} {s t : Store} {id : ℕ} {inv : EscrowInvoice}

/-- A call on an existing invoice leaves votes, admin, counter and side data alone. -/
structure SameRest (s t : Store) : Prop where
  approvals : t.approvals = s.approvals
  admin : t.admin = s.admin
  counter : t.counter = s.counter
  side : t.side = s.side

theorem markExecuted_run (id : ℕ) (s : Store) :
    ∃ r, markExecuted id s = .ok ((), { s with schedules := r }) := by
  unfold markExecuted
  rw [bind_run (get_ok.2 ⟨rfl, rfl⟩)]
  cases s.schedules id with
  | none => exact ⟨s.schedules, rfl⟩
  | some r =>
      dsimp only
      split
      · exact ⟨_, rfl⟩
      · exact ⟨s.schedules, rfl⟩

/-- A release returns once the token accepts the payment. -/
theorem executeRelease_run (inv : EscrowInvoice)
    (haccept : env.accepts s.log (creatorPayment id inv) = true) :
    ∃ t, executeRelease env id inv s = .ok ((inv.creator, inv.totalAmount), t) ∧
      t.books = s.books.payCreator id inv ∧ SameRest s t := by
  obtain ⟨r, hr⟩ := markExecuted_run id
    { s with
      invoices := update s.invoices id (some { inv with status := .released })
      log := creatorPayment id inv :: s.log }
  refine ⟨{ s with
    invoices := update s.invoices id (some { inv with status := .released })
    log := creatorPayment id inv :: s.log
    schedules := r }, ?_, rfl, rfl, rfl, rfl, rfl⟩
  simp only [executeRelease, bind_ok, saveInvoice_ok, transfer_ok]
  exact ⟨(), _, rfl, (), _, ⟨haccept, rfl⟩, (), _, hr, rfl⟩

theorem executeRelease_accepts {r : Address × ℤ} (h : executeRelease env id inv s = .ok (r, t)) :
    env.accepts s.log (creatorPayment id inv) = true := by
  simp only [executeRelease, bind_ok, saveInvoice_ok, transfer_ok] at h
  obtain ⟨-, -, rfl, -, -, ⟨haccept, rfl⟩, -⟩ := h
  exact haccept

/-- What an executed release does to the books. -/
theorem executeRelease_books {r : Address × ℤ} (h : executeRelease env id inv s = .ok (r, t)) :
    t.books = s.books.payCreator id inv ∧ SameRest s t := by
  obtain ⟨t', hrun, hb, hrest⟩ := executeRelease_run inv (executeRelease_accepts h)
  obtain ⟨-, rfl⟩ := Prod.mk.inj (Except.ok.inj (hrun.symm.trans h))
  exact ⟨hb, hrest⟩

theorem isOpen_of_unsettled
    (h : ¬(inv.status = .released ∨ inv.status = .refunded ∨ inv.status = .cancelled)) :
    isOpen inv = true := by
  cases hs : inv.status <;> simp_all [isOpen]

theorem unsettled_of_isOpen (h : isOpen inv = true) :
    ¬(inv.status = .released ∨ inv.status = .refunded ∨ inv.status = .cancelled) := by
  rcases of_decide_eq_true h with h | h <;> simp [h]

/-- What a creation that returns has checked and written. The default grace is copied when it is
positive. -/
theorem createInvoice_ok {creator token : Address} {total : ℤ} {deadline n : ℕ}
    (h : createInvoice env creator token total deadline s = .ok (n, t)) :
    s.admin.isSome = true ∧ 0 < total ∧ deadline ≤ satAddU64 env.now maxDeadlineHorizon ∧
      n = s.counter.getD 0 ∧ ∃ graces,
        (graces = s.graces ∨ graces = update s.graces n (some ⟨s.defaultGrace.getD 0, 0, false⟩)) ∧
        t = { s with
          counter := some (n + 1)
          invoices := update s.invoices n (some ⟨creator, token, total, 0, deadline, .pending, none⟩)
          graces := graces } := by
  obtain ⟨_, _, hinit, h⟩ := bind_ok.1 h
  obtain ⟨hadm, rfl⟩ := requireInitialized_ok.1 hinit
  rw [require_bind] at h
  obtain ⟨hpos, h⟩ := h
  obtain ⟨_, _, hvalid, h⟩ := bind_ok.1 h
  unfold validateDeadline at hvalid
  rw [require_bind] at hvalid
  obtain ⟨hdeadline, rfl⟩ := require_ok.1 hvalid.2
  obtain ⟨_, _, hauth, h⟩ := bind_ok.1 h
  obtain ⟨-, rfl⟩ := requireAuth_ok.1 hauth
  rw [get_bind] at h
  obtain ⟨next, _, hnext, h⟩ := bind_ok.1 h
  obtain ⟨hsum, rfl⟩ := orPanic_ok.1 hnext
  obtain ⟨_, _, hset, h⟩ := bind_ok.1 h
  obtain rfl := set_ok.1 hset
  obtain ⟨_, _, hsave, h⟩ := bind_ok.1 h
  obtain rfl := saveInvoice_ok.1 hsave
  obtain ⟨_, _, hgrace, h⟩ := bind_ok.1 h
  obtain ⟨rfl, rfl⟩ := pure_ok.1 h
  unfold copyDefaultGrace at hgrace
  rw [get_bind] at hgrace
  obtain rfl := checkedAddU64_eq hsum
  refine ⟨hadm, hpos, hdeadline, rfl, ?_⟩
  split at hgrace
  · obtain rfl := saveGrace_ok.1 hgrace
    exact ⟨_, .inr rfl, rfl⟩
  · obtain ⟨-, rfl⟩ := pure_ok.1 hgrace
    exact ⟨_, .inl rfl, rfl⟩

theorem createInvoice_books {creator token : Address} {total : ℤ} {deadline n : ℕ}
    (h : createInvoice env creator token total deadline s = .ok (n, t)) :
    ReflTransGen Books.Move s.books t.books ∧ t.approvals = s.approvals ∧ t.admin.isSome = true := by
  obtain ⟨hadm, hpos, -, rfl, graces, -, rfl⟩ := createInvoice_ok h
  have hmove := Books.Move.create (b := s.books)
    ⟨creator, token, total, 0, deadline, .pending, none⟩ rfl rfl hpos
  exact ⟨.single hmove, rfl, hadm⟩

theorem cancelInvoice_books {v : Unit} (h : cancelInvoice env id s = .ok (v, t)) :
    ReflTransGen Books.Move s.books t.books ∧ SameRest s t := by
  simp only [cancelInvoice, requireUnsettled, bind_ok, requireInitialized_ok, requireAdmin_ok,
    getInvoice_ok, require_ok, saveInvoice_ok] at h
  obtain ⟨-, _, ⟨-, rfl⟩, _, _, ⟨-, -, rfl⟩, inv, _, ⟨hinv, rfl⟩, -, _, ⟨hs, rfl⟩, rfl⟩ := h
  have hmove := Books.Move.close (b := s.books) .cancelled inv.refundReason
    hinv (isOpen_of_unsettled hs) (.inr rfl)
  exact ⟨.single hmove, rfl, rfl, rfl, rfl⟩

/-- The storage `deposit` has built when it comes to the release decision. -/
def Store.funded (s : Store) (id : ℕ) (inv : EscrowInvoice) (payer : Address) (amount : ℤ) : Store :=
  { s with
    deposits := update s.deposits id
      ((s.deposits id).set payer ((s.deposits id).value payer + amount))
    log := ⟨inv.token, payer, currentContract, amount, .deposit id⟩ :: s.log }

/-- What `deposit` checks before the release decision. -/
structure Depositable (env : Env) (s : Store) (payer : Address) (id : ℕ) (amount : ℤ)
    (inv : EscrowInvoice) : Prop where
  positive : 0 < amount
  auth : env.auth payer = true ∧ payer ≠ currentContract
  notBanned : isBanned (s.blacklist payer) = false
  invoice : s.invoices id = some inv
  status : inv.status = .pending ∨ inv.status = .active
  inTime : env.now ≤ inv.deadline
  inRange : InI128 (inv.fundedAmount + amount)
  fits : inv.fundedAmount + amount ≤ inv.totalAmount
  accepted : env.accepts s.log ⟨inv.token, payer, currentContract, amount, .deposit id⟩ = true
  depositInRange : InI128 ((s.deposits id).value payer + amount)

theorem Depositable.isOpen {payer : Address} {amount : ℤ}
    (h : Depositable env s payer id amount inv) : isOpen inv = true := by
  simpa [Escrow.isOpen] using h.status

/-- A deposit comes to the release decision exactly when its checks pass. -/
theorem deposit_ok {payer : Address} {amount : ℤ} {v : Unit} :
    deposit env payer id amount s = .ok (v, t) ↔
    ∃ inv, Depositable env s payer id amount inv ∧
      releaseOrSave env id
        { inv with fundedAmount := inv.fundedAmount + amount, status := .active }
        (s.funded id inv payer amount) = .ok (v, t) := by
  simp only [deposit, require_bind, requireAuth_bind, get_bind]
  constructor
  · rintro ⟨hpos, hauth, hban, hrun⟩
    obtain ⟨inv, _, hget, hrun⟩ := bind_ok.1 hrun
    obtain ⟨hinv, rfl⟩ := getInvoice_ok.1 hget
    simp only [require_bind] at hrun
    obtain ⟨hstatus, htime, hrange, hfit, hrun⟩ := hrun
    obtain ⟨_, _, htransfer, hrun⟩ := bind_ok.1 hrun
    obtain ⟨hacc, rfl⟩ := transfer_ok.1 htransfer
    obtain ⟨hprev, hrun⟩ := require_bind.1 hrun
    obtain ⟨_, _, hmodify, hrest⟩ := bind_ok.1 hrun
    obtain rfl := modify_ok.1 hmodify
    exact ⟨inv, ⟨hpos, hauth, hban, hinv, hstatus, htime, hrange, hfit, hacc, hprev⟩, hrest⟩
  · rintro ⟨inv, hd, hrest⟩
    refine ⟨hd.positive, hd.auth, hd.notBanned, ?_⟩
    refine bind_ok.2 ⟨inv, s, getInvoice_ok.2 ⟨hd.invoice, rfl⟩, ?_⟩
    simp only [require_bind]
    refine ⟨hd.status, hd.inTime, hd.inRange, hd.fits, ?_⟩
    refine bind_ok.2 ⟨(), _, transfer_ok.2 ⟨hd.accepted, rfl⟩, ?_⟩
    exact require_bind.2 ⟨hd.depositInRange, bind_ok.2 ⟨(), _, modify_ok.2 rfl, hrest⟩⟩

/-- The end of a deposit pays the creator exactly when the invoice is full and every gate
is open. -/
theorem releaseOrSave_ok {v : Unit} (h : releaseOrSave env id inv s = .ok (v, t)) :
    SameRest s t ∧
      ((inv.totalAmount ≤ inv.fundedAmount ∧ GatesOpen env s id ∧
          t.books = s.books.payCreator id inv) ∨
        (¬(inv.totalAmount ≤ inv.fundedAmount ∧ GatesOpen env s id) ∧
          t.books = s.books.withInvoice id inv)) := by
  unfold releaseOrSave at h
  split at h
  · rename_i hfull
    obtain ⟨r, reads, hgates, hr⟩ := checkReleaseGates_spec env id s
    rw [bind_run hgates] at h
    cases r with
    | ok u =>
        obtain ⟨_, h⟩ := ignore_ok.1 h
        obtain ⟨hb, hrest⟩ := executeRelease_books h
        exact ⟨⟨hrest.approvals, hrest.admin, hrest.counter, hrest.side⟩, .inl ⟨hfull, hr.1 rfl, hb⟩⟩
    | error e =>
        obtain rfl := saveInvoice_ok.1 h
        refine ⟨⟨rfl, rfl, rfl, rfl⟩, .inr ⟨fun hopen => ?_, rfl⟩⟩
        cases hr.2 hopen.2
  · rename_i hfull
    obtain rfl := saveInvoice_ok.1 h
    exact ⟨⟨rfl, rfl, rfl, rfl⟩, .inr ⟨fun hopen => hfull hopen.1, rfl⟩⟩

/-- A deposit funds the invoice and then pays the creator or not. -/
theorem deposit_books {payer : Address} {amount : ℤ} {v : Unit}
    (h : deposit env payer id amount s = .ok (v, t)) :
    ∃ inv, Depositable env s payer id amount inv ∧ SameRest s t ∧
      ((inv.totalAmount ≤ inv.fundedAmount + amount ∧ GatesOpen env s id ∧
          t.books = (s.books.fundBy id inv payer amount).payCreator id
            { inv with fundedAmount := inv.fundedAmount + amount, status := .active }) ∨
        (¬(inv.totalAmount ≤ inv.fundedAmount + amount ∧ GatesOpen env s id) ∧
          t.books = s.books.fundBy id inv payer amount)) := by
  obtain ⟨inv, hd, hrest⟩ := deposit_ok.1 h
  obtain ⟨hrest, hcases⟩ := releaseOrSave_ok hrest
  refine ⟨inv, hd, ⟨hrest.approvals, hrest.admin, hrest.counter, hrest.side⟩, ?_⟩
  rcases hcases with ⟨hfull, hgates, hb⟩ | ⟨hno, hb⟩
  · refine .inl ⟨hfull, hgates, hb.trans ?_⟩
    simp [Books.payCreator, Books.fundBy, Books.withInvoice, Store.funded, Store.books]
  · exact .inr ⟨hno, hb⟩

theorem release_books {v : Unit} (h : release env id s = .ok (v, t)) :
    ∃ inv, s.invoices id = some inv ∧ isOpen inv = true ∧ inv.totalAmount ≤ inv.fundedAmount ∧
      GatesOpen env s id ∧ t.books = s.books.payCreator id inv ∧ SameRest s t := by
  simp only [release, requireUnsettled, bind_ok, getInvoice_ok, require_ok] at h
  obtain ⟨inv, _, ⟨hinv, rfl⟩, -, _, ⟨hs, rfl⟩, -, _, ⟨hfull, rfl⟩, r, s', hgates, h⟩ := h
  obtain ⟨r', reads, hrun, hr⟩ := checkReleaseGates_spec env id s
  obtain ⟨rfl, rfl⟩ := Prod.mk.inj (Except.ok.inj (hrun.symm.trans hgates))
  cases r' with
  | error e => exact (throw_ok.1 h).elim
  | ok u =>
      obtain ⟨_, h⟩ := ignore_ok.1 h
      obtain ⟨hb, hrest⟩ := executeRelease_books h
      exact ⟨inv, hinv, isOpen_of_unsettled hs, hfull, hr.1 rfl, hb, hrest.approvals, hrest.admin,
        hrest.counter, hrest.side⟩

theorem refundPayer_ok {token payer : Address} {v : Unit}
    (h : refundPayer env id token payer s = .ok (v, t)) :
    ((s.deposits id).value payer ≤ 0 ∧ s = t) ∨
      (0 < (s.deposits id).value payer ∧
        { s with
          deposits := update s.deposits id ((s.deposits id).erase payer)
          log := ⟨token, currentContract, payer, (s.deposits id).value payer, .refund id⟩ :: s.log }
        = t) := by
  simp only [refundPayer, bind_ok, get_ok] at h
  obtain ⟨_, _, ⟨rfl, rfl⟩, h⟩ := h
  split at h
  · rename_i hpos
    simp only [bind_ok, set_ok, transfer_ok] at h
    obtain ⟨-, _, rfl, -, rfl⟩ := h
    exact .inr ⟨hpos, rfl⟩
  · rename_i hpos
    exact .inl ⟨not_lt.1 hpos, (pure_ok.1 h).2⟩

/-- The refund loop gives deposits back, seen with the invoice already marked refunded. -/
theorem refundLoop_books (inv : EscrowInvoice) {token : Address} (hstatus : inv.status = .refunded)
    (htoken : inv.token = token) {payers : List Address} {v : Unit}
    (h : forM payers (refundPayer env id token) s = .ok (v, t)) :
    ReflTransGen Books.Move (s.books.withInvoice id inv) (t.books.withInvoice id inv) ∧
      SameRest s t := by
  induction payers generalizing s with
  | nil =>
      obtain ⟨-, rfl⟩ := pure_ok.1 h
      exact ⟨.refl, rfl, rfl, rfl, rfl⟩
  | cons payer payers ih =>
      rw [List.forM_cons] at h
      obtain ⟨u, s', hhead, htail⟩ := bind_ok.1 h
      obtain ⟨hmoves, hrest⟩ := ih htail
      rcases refundPayer_ok hhead with ⟨-, rfl⟩ | ⟨hpos, rfl⟩
      · exact ⟨hmoves, hrest⟩
      · refine ⟨ReflTransGen.head ?_ hmoves, hrest.approvals, hrest.admin, hrest.counter, hrest.side⟩
        have hmove := Books.Move.giveBack (b := s.books.withInvoice id inv) payer
          (Books.withInvoice_self _ _ _) hstatus hpos
        rwa [htoken] at hmove

theorem refund_books {payers : List Address} {reason : RefundReason} {v : Unit}
    (h : refund env id payers reason s = .ok (v, t)) :
    ReflTransGen Books.Move s.books t.books ∧ SameRest s t := by
  simp only [refund, requireUnsettled, bind_ok, getInvoice_ok, require_ok, get_ok,
    saveInvoice_ok] at h
  obtain ⟨inv, _, ⟨hinv, rfl⟩, -, _, ⟨hs, rfl⟩, -, _, ⟨-, rfl⟩, _, _, ⟨rfl, rfl⟩, -, _, ⟨-, rfl⟩,
    _, s', hloop, rfl⟩ := h
  have hclose := Books.Move.close (b := s.books) .refunded (some reason)
    hinv (isOpen_of_unsettled hs) (.inl rfl)
  obtain ⟨hmoves, hrest⟩ := refundLoop_books
    { inv with status := .refunded, refundReason := some reason } rfl rfl hloop
  exact ⟨.head hclose hmoves, hrest.approvals, hrest.admin, hrest.counter, hrest.side⟩

end Money

/-! ## Reachable storages -/

section Runs

variable {env : Env} {s t : Store} {v : Unit} {op : Op}

theorem SameBooks.solvent (hs : s.Solvent) (h : SameBooks s t) : t.Solvent where
  counted := fun hadm => by
    have hcount : t.counter.getD 0 = s.counter.getD 0 := congrArg Books.count h.books
    rw [hcount]
    exact hs.counted (h.admin hadm)
  sound := by
    rw [h.books]
    exact hs.sound

theorem SameRest.solvent (hs : s.Solvent) (h : SameRest s t)
    (hmoves : ReflTransGen Books.Move s.books t.books) : t.Solvent where
  counted := fun hadm => by
    rw [h.counter]
    exact hs.counted (h.admin ▸ hadm)
  sound := hs.sound.moves hmoves

theorem SavesVotes.solvent {id : ℕ} (hs : s.Solvent) (h : SavesVotes s t id) : t.Solvent := by
  obtain ⟨a, rfl, -⟩ := h
  exact ⟨hs.counted, hs.sound⟩

/-- The invariant of the contract. -/
structure Store.Sound (s : Store) : Prop where
  solvent : s.Solvent
  votes : s.VotesSound

theorem SameRest.sound (hs : s.Sound) (h : SameRest s t)
    (hmoves : ReflTransGen Books.Move s.books t.books) : t.Sound where
  solvent := h.solvent hs.solvent hmoves
  votes := by
    intro id a ha
    rw [h.approvals] at ha
    exact hs.votes id a ha

theorem SavesVotes.sound {id : ℕ} (hs : s.Sound) (h : SavesVotes s t id) : t.Sound :=
  ⟨h.solvent hs.solvent, h.votesSound hs.votes⟩

theorem SameBooks.sound (hs : s.Sound) (h : SameBooks s t) : t.Sound where
  solvent := h.solvent hs.solvent
  votes := by
    intro id a ha
    rw [h.approvals] at ha
    exact hs.votes id a ha

theorem deposit_moves {payer : Address} {id : ℕ} {amount : ℤ}
    (h : deposit env payer id amount s = .ok (v, t)) :
    ReflTransGen Books.Move s.books t.books := by
  obtain ⟨inv, hd, -, hcases⟩ := deposit_books h
  have hfund := Books.Move.fund (b := s.books) hd.invoice hd.isOpen hd.positive hd.auth.2 hd.fits
  rcases hcases with ⟨hfull, -, hb⟩ | ⟨-, hb⟩
  · have hpay := Books.Move.payOut (b := s.books.fundBy id inv payer amount) id
      { inv with fundedAmount := inv.fundedAmount + amount, status := .active }
      (Books.withInvoice_self _ _ _) rfl hfull
    rw [hb]
    exact .head hfund (.single hpay)
  · rw [hb]
    exact .single hfund

theorem deposit_sound {payer : Address} {id : ℕ} {amount : ℤ} (hs : s.Sound)
    (h : deposit env payer id amount s = .ok (v, t)) : t.Sound := by
  obtain ⟨-, -, hrest, -⟩ := deposit_books h
  exact hrest.sound hs (deposit_moves h)

theorem initializeEscrow_ok {admin : Address} (h : initializeEscrow env admin s = .ok (v, t)) :
    s.admin.isSome = false ∧ t = { s with admin := some admin, counter := some 0 } := by
  unfold initializeEscrow at h
  rw [get_bind, require_bind] at h
  obtain ⟨hnone, h⟩ := h
  obtain ⟨_, _, hauth, hset⟩ := bind_ok.1 h
  obtain ⟨-, rfl⟩ := requireAuth_ok.1 hauth
  obtain rfl := set_ok.1 hset
  exact ⟨hnone, rfl⟩

theorem initializeEscrow_sound {admin : Address} (hs : s.Sound)
    (h : initializeEscrow env admin s = .ok (v, t)) : t.Sound := by
  obtain ⟨hnone, rfl⟩ := initializeEscrow_ok h
  have hcount := hs.solvent.counted (by simpa using hnone)
  refine ⟨⟨nofun, ?_⟩, hs.votes⟩
  have hbooks := hs.solvent.sound
  unfold Store.books at hbooks ⊢
  rwa [hcount] at hbooks

theorem createInvoice_sound {creator token : Address} {total : ℤ} {deadline n : ℕ} (hs : s.Sound)
    (h : createInvoice env creator token total deadline s = .ok (n, t)) : t.Sound := by
  obtain ⟨hmoves, happ, hadm⟩ := createInvoice_books h
  refine ⟨⟨fun hnone => ?_, hs.solvent.sound.moves hmoves⟩, ?_⟩
  · simp [hnone] at hadm
  · intro id a ha
    rw [happ] at ha
    exact hs.votes id a ha

/-- Every call that returns keeps the invariant. -/
theorem step_sound (hs : s.Sound) (h : step (env, op) s = .ok (v, t)) : t.Sound := by
  cases op with
  | initializeEscrow admin => exact initializeEscrow_sound hs h
  | createInvoice creator token total deadline =>
      obtain ⟨_, h⟩ := ignore_ok.1 h
      exact createInvoice_sound hs h
  | deposit payer id amount => exact deposit_sound hs h
  | payInvoice payer id amount => exact deposit_sound hs h
  | release id =>
      obtain ⟨inv, hinv, hopen, hfull, -, hb, hrest⟩ := release_books h
      refine hrest.sound hs ?_
      rw [hb]
      exact .single (.payOut id inv hinv hopen hfull)
  | refund id payers reason =>
      obtain ⟨hmoves, hrest⟩ := refund_books h
      exact hrest.sound hs hmoves
  | cancelInvoice id =>
      obtain ⟨hmoves, hrest⟩ := cancelInvoice_books h
      exact hrest.sound hs hmoves
  | setCosigners id signers threshold => exact (setCosigners_ok h).sound hs
  | approveRelease signer id =>
      obtain ⟨_, h⟩ := ignore_ok.1 h
      exact (castVote_ok h).sound hs
  | rejectRelease signer id =>
      obtain ⟨_, h⟩ := ignore_ok.1 h
      exact (castVote_ok h).sound hs
  | revokeVote signer id =>
      obtain ⟨_, h⟩ := ignore_ok.1 h
      exact (revokeVote_ok h).sound hs
  | _ => exact (step_quiet rfl h).1.sound hs

theorem fresh_sound : Store.fresh.Sound where
  solvent :=
    { counted := fun _ => rfl
      sound :=
        { beyond := fun _ _ => rfl
          account := fun id =>
            { absent := by simp [Store.fresh, Store.books]
              positive := by simp [Store.fresh, Store.books, KeyMap.empty]
              funded := by simp [Store.fresh, Store.books]
              whileOpen := by simp [Store.fresh, Store.books]
              whenReleased := by simp [Store.fresh, Store.books]
              unlessReleased := by simp [Store.fresh, Store.books]
              byPayer := fun p => rfl
              inTotal := rfl }
          backed := fun tok => by simp [Store.fresh, Store.books] } }
  votes := nofun

theorem step_side (h : step (env, op) s = .ok (v, t)) : SideKept op s t := by
  cases op with
  | initializeEscrow admin =>
      obtain ⟨-, rfl⟩ := initializeEscrow_ok h
      exact .of_side rfl
  | deposit payer id amount =>
      obtain ⟨-, -, hrest, -⟩ := deposit_books h
      exact .of_side hrest.side
  | payInvoice payer id amount =>
      obtain ⟨-, -, hrest, -⟩ := deposit_books h
      exact .of_side hrest.side
  | release id =>
      obtain ⟨-, -, -, -, -, -, hrest⟩ := release_books h
      exact .of_side hrest.side
  | refund id payers reason => exact .of_side (refund_books h).2.side
  | cancelInvoice id => exact .of_side (cancelInvoice_books h).2.side
  | setCosigners id signers threshold =>
      obtain ⟨a, rfl, -⟩ := setCosigners_ok h
      exact .of_side rfl
  | approveRelease signer id =>
      obtain ⟨_, h⟩ := ignore_ok.1 h
      obtain ⟨a, rfl, -⟩ := castVote_ok h
      exact .of_side rfl
  | rejectRelease signer id =>
      obtain ⟨_, h⟩ := ignore_ok.1 h
      obtain ⟨a, rfl, -⟩ := castVote_ok h
      exact .of_side rfl
  | revokeVote signer id =>
      obtain ⟨_, h⟩ := ignore_ok.1 h
      obtain ⟨a, rfl, -⟩ := revokeVote_ok h
      exact .of_side rfl
  | createInvoice creator token total deadline =>
      obtain ⟨_, h⟩ := ignore_ok.1 h
      obtain ⟨-, -, -, -, graces, -, rfl⟩ := createInvoice_ok h
      exact ⟨nofun, fun _ => rfl⟩
  | _ => exact (step_quiet rfl h).2

/-- Every call that returns is a number of moves, or leaves the invoices and the log alone. Only
a creation counts the invoices on. -/
theorem step_moves (h : step (env, op) s = .ok (v, t)) :
    (ReflTransGen Books.Move s.books t.books ∧
        (t.counter = s.counter ∨ ∃ creator token total deadline,
          op = .createInvoice creator token total deadline)) ∨
      (t.invoices = s.invoices ∧ t.log = s.log) := by
  cases op with
  | initializeEscrow admin =>
      obtain ⟨-, rfl⟩ := initializeEscrow_ok h
      exact .inr ⟨rfl, rfl⟩
  | createInvoice creator token total deadline =>
      obtain ⟨_, h⟩ := ignore_ok.1 h
      exact .inl ⟨(createInvoice_books h).1, .inr ⟨creator, token, total, deadline, rfl⟩⟩
  | deposit payer id amount =>
      obtain ⟨-, -, hrest, -⟩ := deposit_books h
      exact .inl ⟨deposit_moves h, .inl hrest.counter⟩
  | payInvoice payer id amount =>
      obtain ⟨-, -, hrest, -⟩ := deposit_books h
      exact .inl ⟨deposit_moves h, .inl hrest.counter⟩
  | release id =>
      obtain ⟨inv, hinv, hopen, hfull, -, hb, hrest⟩ := release_books h
      rw [hb]
      exact .inl ⟨.single (.payOut id inv hinv hopen hfull), .inl hrest.counter⟩
  | refund id payers reason =>
      obtain ⟨hmoves, hrest⟩ := refund_books h
      exact .inl ⟨hmoves, .inl hrest.counter⟩
  | cancelInvoice id =>
      obtain ⟨hmoves, hrest⟩ := cancelInvoice_books h
      exact .inl ⟨hmoves, .inl hrest.counter⟩
  | setCosigners id signers threshold =>
      obtain ⟨a, rfl, -⟩ := setCosigners_ok h
      exact .inr ⟨rfl, rfl⟩
  | approveRelease signer id =>
      obtain ⟨_, h⟩ := ignore_ok.1 h
      obtain ⟨a, rfl, -⟩ := castVote_ok h
      exact .inr ⟨rfl, rfl⟩
  | rejectRelease signer id =>
      obtain ⟨_, h⟩ := ignore_ok.1 h
      obtain ⟨a, rfl, -⟩ := castVote_ok h
      exact .inr ⟨rfl, rfl⟩
  | revokeVote signer id =>
      obtain ⟨_, h⟩ := ignore_ok.1 h
      obtain ⟨a, rfl, -⟩ := revokeVote_ok h
      exact .inr ⟨rfl, rfl⟩
  | _ =>
      have hbooks := (step_quiet rfl h).1.books
      exact .inr ⟨congrArg Books.invoices hbooks, congrArg Books.log hbooks⟩

/-- Every storage reachable from deployment satisfies the invariant. -/
theorem reach_sound (calls : List (Env × Op)) : (reach calls).Sound :=
  runAll_invariant (fun _ _ _ _ hs h => step_sound hs h) fresh_sound calls

end Runs

/-- After any sequence of calls: funding stays within the total, an invoice never sends out
more than was deposited into it, it does not both pay its creator and refund a payer, no
payer gets back more than they deposited, and the contract holds the recorded deposits of
all invoices that were not released. -/
theorem escrow_solvent (calls : List (Env × Op)) :
    (∀ id inv, (reach calls).invoices id = some inv →
      id < (reach calls).counter.getD 0 ∧
        0 ≤ inv.fundedAmount ∧ inv.fundedAmount ≤ inv.totalAmount) ∧
    (∀ id, Books.paidToCreator (reach calls).log id + Books.paidBack (reach calls).log id ≤
      Books.paidIn (reach calls).log id) ∧
    (∀ id, ¬((∃ t ∈ (reach calls).log, t.memo = .release id) ∧
      ∃ t ∈ (reach calls).log, t.memo = .refund id)) ∧
    (∀ id payer, Books.returned (reach calls).log id payer ≤
      Books.received (reach calls).log id payer) ∧
    (∀ tok, ∑ i ∈ Finset.range ((reach calls).counter.getD 0), (reach calls).books.owed tok i ≤
      held (reach calls).log tok) := by
  have hsound := (reach_sound calls).solvent.sound
  generalize reach calls = s at hsound
  refine ⟨?_, ?_, ?_, ?_, hsound.backed⟩
  · intro id inv hinv
    obtain ⟨hnonneg, hle, -⟩ := (hsound.account id).funded inv hinv
    exact ⟨hsound.lt_count hinv, hnonneg, hle⟩
  · intro id
    exact (hsound.account id).paid_le
  · rintro id ⟨⟨t, ht, hrel⟩, u, hu, href⟩
    exact (hsound.account id).not_both ht hrel hu href
  · intro id payer
    have h := (hsound.account id).byPayer payer
    have hnonneg := (hsound.account id).value_nonneg payer
    change Books.received s.log id payer = _ + Books.returned s.log id payer at h
    omega

end StellarSplit.Escrow
