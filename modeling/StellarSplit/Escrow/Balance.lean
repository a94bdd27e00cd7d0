import StellarSplit.Lib.Registry
import StellarSplit.Escrow.Settlement

/-!
# The reported balance

`get_escrow_balance` answers with the funded amount of the record. The funded
amount is what was ever deposited, so the answer is what the contract holds for
the invoice until a release or a refund pays something out of it.
-/

namespace StellarSplit.Escrow

open Exec Function Relation Machine Registry

namespace Books

/-- What the contract holds for an invoice. -/
def heldFor (log : List (Transfer Memo)) (id : ℕ) : ℤ :=
  paidIn log id - paidToCreator log id - paidBack log id

/-- The funded amount of every invoice is what was deposited into it, and a released invoice
was full. -/
structure Recorded (b : Books) : Prop where
  funded : ∀ id inv, b.invoices id = some inv → inv.fundedAmount = paidIn b.log id
  full : ∀ id inv, b.invoices id = some inv → inv.status = .released →
    inv.totalAmount ≤ inv.fundedAmount

/-- A move that stores one invoice and logs nothing for any other one. -/
theorem Recorded.store {b b' : Books} {id : ℕ} {inv : EscrowInvoice} (h : b.Recorded)
    (hinvoices : b'.invoices = update b.invoices id (some inv))
    (hself : inv.fundedAmount = paidIn b'.log id)
    (hfull : inv.status = .released → inv.totalAmount ≤ inv.fundedAmount)
    (hother : ∀ j, j ≠ id → paidIn b'.log j = paidIn b.log j) : b'.Recorded := by
  constructor
  · intro j found hfound
    rw [hinvoices] at hfound
    rcases update_cases hfound with ⟨rfl, rfl⟩ | ⟨hj, hold⟩
    · exact hself
    · rw [hother j hj]
      exact h.funded j found hold
  · rw [hinvoices]
    exact forall_update h.full hfull

theorem paidIn_cons_other {t : Transfer Memo} {log : List (Transfer Memo)} {id : ℕ}
    (h : t.memo ≠ .deposit id) : paidIn (t :: log) id = paidIn log id := by
  simp [paidIn, h]

theorem Recorded.move {b b' : Books} (hb : b.Sound) (h : b.Recorded) (hmove : Move b b') :
    b'.Recorded := by
  cases hmove with
  | create inv hstatus hfunded htotal =>
      have hnone : ∀ t ∈ b.log, t.memo.invoice ≠ b.count :=
        ((hb.account b.count).absent (hb.beyond _ le_rfl)).2
      refine h.store rfl ?_ (by simp [hstatus]) fun _ _ => rfl
      have hzero : paidIn b.log b.count = 0 := by
        apply tally_eq_zero
        intro t ht
        have hne : t.memo ≠ .deposit b.count := fun e => hnone t ht (by rw [e]; rfl)
        simp [hne]
      exact hfunded.trans hzero.symm
  | fund hinv hopen hpos hpayer hfit =>
      rename_i id inv payer amount
      refine h.store rfl ?_ nofun fun j hj => paidIn_cons_other (by simpa using Ne.symm hj)
      have hold := h.funded id inv hinv
      change inv.fundedAmount + amount = _
      simp only [fundBy, paidIn, tally_cons, decide_true, if_true]
      rw [hold, paidIn]
      ring
  | payOut id inv hinv hopen hfull =>
      refine h.store rfl ?_ (fun _ => hfull) fun j _ => paidIn_cons_other (by simp [creatorPayment])
      rw [payCreator, paidIn_cons_other (by simp [creatorPayment])]
      exact h.funded id inv hinv
  | close status reason hinv hopen hstatus =>
      rename_i id inv
      have hne : status ≠ .released := by rcases hstatus with rfl | rfl <;> simp
      exact h.store rfl (h.funded id inv hinv) (fun hs => absurd hs hne) fun _ _ => rfl
  | giveBack payer hinv hstatus hpos =>
      refine ⟨fun j found hfound => ?_, h.full⟩
      rw [giveBackTo, paidIn_cons_other (by simp)]
      exact h.funded j found hfound

theorem Recorded.moves {b b' : Books} (hb : b.Sound) (h : b.Recorded)
    (hmoves : ReflTransGen Move b b') : b'.Recorded := by
  induction hmoves with
  | refl => exact h
  | tail hfirst hlast ih => exact ih.move (hb.moves hfirst) hlast

end Books

theorem reach_recorded (calls : List (Env × Op)) : (reach calls).books.Recorded := by
  have hfresh : Store.fresh.books.Recorded := by
    constructor <;> intro id inv hinv <;> cases hinv
  refine (runAll_invariant (I := fun s : Store => s.Sound ∧ s.books.Recorded) ?_
    ⟨fresh_sound, hfresh⟩ calls).2
  rintro s ⟨env, op⟩ v t ⟨hs, hrec⟩ hstep
  refine ⟨step_sound hs hstep, ?_⟩
  rcases step_moves hstep with ⟨hmoves, -⟩ | ⟨hinv, hlog⟩
  · exact hrec.moves hs.solvent.sound hmoves
  · constructor
    · intro id inv hfound
      have hold : s.invoices id = some inv := hinv ▸ (hfound : t.invoices id = some inv)
      change inv.fundedAmount = Books.paidIn t.log id
      rw [hlog]
      exact hrec.funded id inv hold
    · intro id inv hfound
      have hold : s.invoices id = some inv := hinv ▸ (hfound : t.invoices id = some inv)
      exact hrec.full id inv hold

/-- Nothing has been paid out of the invoice: it was not released, and its recorded deposits
still sum to the funded amount. -/
def Intact (s : Store) (id : ℕ) : Prop :=
  ∀ inv ∈ s.invoices id, inv.status ≠ .released ∧ (s.deposits id).total = inv.fundedAmount

/-- The sum of the reported balances of the invoices in a token. -/
def reportedTotal (s : Store) (tok : Address) : ℤ :=
  ∑ i ∈ Finset.range (s.counter.getD 0),
    if (s.invoices i).any (fun inv => inv.token = tok) then getEscrowBalance s i else 0

theorem heldFor_of_released {s : Store} {id : ℕ} {inv : EscrowInvoice} (hs : s.Sound)
    (hinv : s.invoices id = some inv) (hstatus : inv.status = .released) :
    Books.heldFor s.log id = 0 := by
  have hacc := hs.solvent.sound.account id
  obtain ⟨hpaid, hlog⟩ := hacc.whenReleased inv hinv hstatus
  have hback : Books.paidBack s.log id = 0 := Books.AccountSound.refunded_zero hlog
  have hin : Books.paidIn s.log id = (s.deposits id).total + Books.paidBack s.log id := hacc.inTotal
  have hout : Books.paidToCreator s.log id = (s.deposits id).total := hpaid
  unfold Books.heldFor
  omega

theorem heldFor_of_unreleased {s : Store} {id : ℕ} {inv : EscrowInvoice} (hs : s.Sound)
    (hinv : s.invoices id = some inv) (hstatus : inv.status ≠ .released) :
    Books.heldFor s.log id = (s.deposits id).total := by
  have hacc := hs.solvent.sound.account id
  have hout : Books.paidToCreator s.log id = 0 :=
    Books.AccountSound.released_zero (hacc.unlessReleased inv hinv hstatus)
  have hin : Books.paidIn s.log id = (s.deposits id).total + Books.paidBack s.log id := hacc.inTotal
  unfold Books.heldFor
  omega

theorem reported_eq_held_iff {s : Store} (hs : s.Sound) (hrec : s.books.Recorded) (id : ℕ) :
    getEscrowBalance s id = Books.heldFor s.log id ↔ Intact s id := by
  have hacc := hs.solvent.sound.account id
  cases hinv : s.invoices id with
  | none =>
      obtain ⟨-, hlog⟩ := hacc.absent hinv
      have hnone : ∀ m : Memo, m.invoice = id → ∀ t ∈ s.log, t.memo ≠ m := by
        rintro m hm t ht rfl
        exact hlog t ht hm
      have hin : Books.paidIn s.log id = 0 :=
        tally_eq_zero fun t ht => by simp [hnone (.deposit id) rfl t ht]
      have hout : Books.paidToCreator s.log id = 0 :=
        Books.AccountSound.released_zero (hnone (.release id) rfl)
      have hback : Books.paidBack s.log id = 0 :=
        Books.AccountSound.refunded_zero (hnone (.refund id) rfl)
      simp [getEscrowBalance, Books.heldFor, Intact, hinv, hin, hout, hback]
  | some inv =>
      have hbalance : getEscrowBalance s id = inv.fundedAmount := by simp [getEscrowBalance, hinv]
      have hintact : Intact s id ↔
          inv.status ≠ .released ∧ (s.deposits id).total = inv.fundedAmount := by
        simp [Intact, hinv]
      rw [hintact, hbalance]
      by_cases hstatus : inv.status = .released
      · -- a released invoice was full, so the reported amount is positive
        obtain ⟨-, -, htotal⟩ := hacc.funded inv hinv
        have hfull := hrec.full id inv hinv hstatus
        rw [heldFor_of_released hs hinv hstatus]
        simp only [hstatus, ne_eq, not_true_eq_false, false_and, iff_false]
        omega
      · rw [heldFor_of_unreleased hs hinv hstatus]
        simp only [ne_eq, hstatus, not_false_eq_true, true_and]
        exact eq_comm

theorem reported_term_le {s : Store} (hs : s.Sound) {tok : Address} {i : ℕ}
    (hintact : ∀ inv ∈ s.invoices i, inv.token = tok → Intact s i) :
    (if (s.invoices i).any (fun inv => inv.token = tok) then getEscrowBalance s i else 0) ≤
      s.books.owed tok i := by
  cases hinv : s.invoices i with
  | none => simpa using Books.owed_nonneg hs.solvent.sound tok i
  | some inv =>
      by_cases htok : inv.token = tok
      · obtain ⟨hstatus, htotal⟩ := hintact inv hinv htok inv hinv
        have howed : s.books.owed tok i = (s.deposits i).total := by
          rw [Books.owed_some (b := s.books) hinv]
          exact if_pos ⟨htok, hstatus⟩
        have hbalance : getEscrowBalance s i = inv.fundedAmount := by simp [getEscrowBalance, hinv]
        rw [howed, htotal]
        simp [htok, hbalance]
      · simpa [htok] using Books.owed_nonneg hs.solvent.sound tok i

/-- In every reachable state the reported balance of an invoice is what the contract holds for it
exactly when nothing has been paid out of the invoice; while that is so for all invoices of a
token, the reported balances sum to at most the contract's balance of the token. -/
theorem reported_balance_iff (calls : List (Env × Op)) :
    (∀ id, getEscrowBalance (reach calls) id = Books.heldFor (reach calls).log id ↔
      Intact (reach calls) id) ∧
    ∀ tok, (∀ id, ∀ inv ∈ (reach calls).invoices id, inv.token = tok → Intact (reach calls) id) →
      reportedTotal (reach calls) tok ≤ held (reach calls).log tok := by
  have hs := reach_sound calls
  refine ⟨reported_eq_held_iff hs (reach_recorded calls), fun tok hintact => ?_⟩
  calc reportedTotal (reach calls) tok
      ≤ ∑ i ∈ Finset.range ((reach calls).counter.getD 0), (reach calls).books.owed tok i :=
        Finset.sum_le_sum fun i _ => reported_term_le hs (hintact i)
    _ ≤ held (reach calls).log tok := hs.solvent.sound.backed tok

/-- Payer 3 fills invoice 0, which is released at once. -/
def fullDeposit : List (Env × Op) :=
  [(openEnv 0, .initializeEscrow 1), (openEnv 0, .createInvoice 2 9 100 50),
    (openEnv 1, .deposit 3 0 100)]

theorem released_balance_reported :
    getEscrowBalance (reach fullDeposit) 0 = 100 ∧ Books.heldFor (reach fullDeposit).log 0 = 0 ∧
      reportedTotal (reach fullDeposit) 9 = 100 ∧ held (reach fullDeposit).log 9 = 0 := by
  refine ⟨?_, ?_, ?_, ?_⟩ <;> decide +kernel

end StellarSplit.Escrow
