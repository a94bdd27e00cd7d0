import Mathlib.Logic.Function.Basic
import Mathlib.Logic.Relation
import StellarSplit.Lib.Totals
import StellarSplit.Escrow.Contract

/-!
# The books of the escrow

The part of the storage that money depends on, and the moves it can make:
open an invoice, fund it, pay its creator, close it, give a deposit back.
`Books.Sound` says that every deposit is settled at most once and that the
contract holds what it still owes. Every move keeps it.
-/

namespace StellarSplit.Escrow

open Function

/-- Invoices, recorded deposits and token movements. -/
structure Books where
  count : ℕ
  invoices : ℕ → Option EscrowInvoice
  deposits : ℕ → KeyMap ℤ
  log : List (Transfer Memo)

namespace Books

def withInvoice (b : Books) (id : ℕ) (inv : EscrowInvoice) : Books :=
  { b with invoices := update b.invoices id (some inv) }

/-- A deposit of `amount` by `payer`. -/
def fundBy (b : Books) (id : ℕ) (inv : EscrowInvoice) (payer : Address) (amount : ℤ) : Books :=
  { b.withInvoice id { inv with fundedAmount := inv.fundedAmount + amount, status := .active } with
    deposits := update b.deposits id
      ((b.deposits id).set payer ((b.deposits id).value payer + amount))
    log := ⟨inv.token, payer, currentContract, amount, .deposit id⟩ :: b.log }

/-- The payment of the whole invoice to its creator. -/
def payCreator (b : Books) (id : ℕ) (inv : EscrowInvoice) : Books :=
  { b.withInvoice id { inv with status := .released } with
    log := creatorPayment id inv :: b.log }

/-- The return of the recorded deposit of `payer`. -/
def giveBackTo (b : Books) (id : ℕ) (token payer : Address) : Books :=
  { b with
    deposits := update b.deposits id ((b.deposits id).erase payer)
    log := ⟨token, currentContract, payer, (b.deposits id).value payer, .refund id⟩ :: b.log }

/-- One movement of money, or a change of an invoice that decides about money. -/
inductive Move : Books → Books → Prop where
  | create {b : Books} (inv : EscrowInvoice) (hstatus : inv.status = .pending)
      (hfunded : inv.fundedAmount = 0) (htotal : 0 < inv.totalAmount) :
      Move b { b.withInvoice b.count inv with count := b.count + 1 }
  | fund {b : Books} {id : ℕ} {inv : EscrowInvoice} {payer : Address} {amount : ℤ}
      (hinv : b.invoices id = some inv) (hopen : isOpen inv = true) (hpos : 0 < amount)
      (hpayer : payer ≠ currentContract) (hfit : inv.fundedAmount + amount ≤ inv.totalAmount) :
      Move b (b.fundBy id inv payer amount)
  | payOut {b : Books} (id : ℕ) (inv : EscrowInvoice)
      (hinv : b.invoices id = some inv) (hopen : isOpen inv = true)
      (hfull : inv.totalAmount ≤ inv.fundedAmount) :
      Move b (b.payCreator id inv)
  | close {b : Books} {id : ℕ} {inv : EscrowInvoice} (status : EscrowStatus)
      (reason : Option RefundReason) (hinv : b.invoices id = some inv) (hopen : isOpen inv = true)
      (hstatus : status = .refunded ∨ status = .cancelled) :
      Move b (b.withInvoice id { inv with status := status, refundReason := reason })
  | giveBack {b : Books} {id : ℕ} {inv : EscrowInvoice} (payer : Address)
      (hinv : b.invoices id = some inv) (hstatus : inv.status = .refunded)
      (hpos : 0 < (b.deposits id).value payer) :
      Move b (b.giveBackTo id inv.token payer)

/-! ## What the log says about an invoice -/

/-- The tokens deposited into an invoice by a payer. -/
def received (log : List (Transfer Memo)) (id : ℕ) (payer : Address) : ℤ :=
  tally (fun t => t.memo = .deposit id ∧ t.src = payer) log

/-- The tokens refunded to a payer of an invoice. -/
def returned (log : List (Transfer Memo)) (id : ℕ) (payer : Address) : ℤ :=
  tally (fun t => t.memo = .refund id ∧ t.dst = payer) log

/-- The tokens deposited into an invoice. -/
def paidIn (log : List (Transfer Memo)) (id : ℕ) : ℤ :=
  tally (fun t => t.memo = .deposit id) log

/-- The tokens an invoice paid to its creator. -/
def paidToCreator (log : List (Transfer Memo)) (id : ℕ) : ℤ :=
  tally (fun t => t.memo = .release id) log

/-- The tokens an invoice gave back to its payers. -/
def paidBack (log : List (Transfer Memo)) (id : ℕ) : ℤ :=
  tally (fun t => t.memo = .refund id) log

/-- What the contract owes in `tok` for an invoice that was not released. -/
def owed (b : Books) (tok : Address) (id : ℕ) : ℤ :=
  match b.invoices id with
  | some inv => if inv.token = tok ∧ inv.status ≠ .released then (b.deposits id).total else 0
  | none => 0

/-! ## The invariant -/

/-- The account of one invoice agrees with the log: what was deposited is recorded or was
given back, and nothing is both paid out and given back. -/
structure AccountSound (o : Option EscrowInvoice) (deposits : KeyMap ℤ)
    (log : List (Transfer Memo)) (id : ℕ) : Prop where
  absent : o = none → deposits = .empty ∧ ∀ t ∈ log, t.memo.invoice ≠ id
  positive : ∀ p ∈ deposits.entries, 0 < p.2
  funded : ∀ inv ∈ o,
    0 ≤ inv.fundedAmount ∧ inv.fundedAmount ≤ inv.totalAmount ∧ 0 < inv.totalAmount
  whileOpen : ∀ inv ∈ o, isOpen inv = true →
    inv.fundedAmount = deposits.total ∧ ∀ t ∈ log, t.memo ≠ .release id ∧ t.memo ≠ .refund id
  whenReleased : ∀ inv ∈ o, inv.status = .released →
    paidToCreator log id = deposits.total ∧ ∀ t ∈ log, t.memo ≠ .refund id
  unlessReleased : ∀ inv ∈ o, inv.status ≠ .released → ∀ t ∈ log, t.memo ≠ .release id
  byPayer : ∀ p, received log id p = deposits.value p + returned log id p
  inTotal : paidIn log id = deposits.total + paidBack log id

/-- Every account agrees with the log and what is owed is held. -/
structure Sound (b : Books) : Prop where
  beyond : ∀ id, b.count ≤ id → b.invoices id = none
  account : ∀ id, AccountSound (b.invoices id) (b.deposits id) b.log id
  backed : ∀ tok, ∑ i ∈ Finset.range b.count, b.owed tok i ≤ held b.log tok

namespace AccountSound

variable {o : Option EscrowInvoice} {deposits : KeyMap ℤ} {log : List (Transfer Memo)} {id : ℕ}

/-- A movement for another invoice does not matter. -/
theorem frame (h : AccountSound o deposits log id) {t : Transfer Memo} (ht : t.memo.invoice ≠ id) :
    AccountSound o deposits (t :: log) id := by
  have hd : t.memo ≠ .deposit id := fun e => ht (by rw [e]; rfl)
  have hr : t.memo ≠ .release id := fun e => ht (by rw [e]; rfl)
  have hf : t.memo ≠ .refund id := fun e => ht (by rw [e]; rfl)
  refine
    { absent := ?_, positive := h.positive, funded := h.funded, whileOpen := ?_,
      whenReleased := ?_, unlessReleased := ?_, byPayer := ?_, inTotal := ?_ }
  · intro ho
    obtain ⟨hempty, hlog⟩ := h.absent ho
    exact ⟨hempty, List.forall_mem_cons.2 ⟨ht, hlog⟩⟩
  · intro inv hi ho
    obtain ⟨hfunded, hlog⟩ := h.whileOpen inv hi ho
    exact ⟨hfunded, List.forall_mem_cons.2 ⟨⟨hr, hf⟩, hlog⟩⟩
  · intro inv hi hs
    obtain ⟨hpaid, hlog⟩ := h.whenReleased inv hi hs
    refine ⟨?_, List.forall_mem_cons.2 ⟨hf, hlog⟩⟩
    simpa [paidToCreator, hr] using hpaid
  · intro inv hi hs
    exact List.forall_mem_cons.2 ⟨hr, h.unlessReleased inv hi hs⟩
  · intro p
    simpa [received, returned, hd, hf] using h.byPayer p
  · simpa [paidIn, paidBack, hd, hf] using h.inTotal

theorem total_nonneg (h : AccountSound o deposits log id) : 0 ≤ deposits.total :=
  deposits.total_nonneg fun p hp => (h.positive p hp).le

theorem value_nonneg (h : AccountSound o deposits log id) (p : Address) : 0 ≤ deposits.value p :=
  deposits.value_nonneg (fun q hq => (h.positive q hq).le) p

theorem value_le_total (h : AccountSound o deposits log id) (p : Address) :
    deposits.value p ≤ deposits.total :=
  deposits.value_le_total (fun q hq => (h.positive q hq).le) p

theorem released_zero (hlog : ∀ t ∈ log, t.memo ≠ .release id) : paidToCreator log id = 0 :=
  tally_eq_zero fun t ht => by simp [hlog t ht]

theorem refunded_zero (hlog : ∀ t ∈ log, t.memo ≠ .refund id) : paidBack log id = 0 :=
  tally_eq_zero fun t ht => by simp [hlog t ht]

/-- No invoice is both paid out and given back. -/
theorem not_both (h : AccountSound o deposits log id) {t u : Transfer Memo} (ht : t ∈ log)
    (hrel : t.memo = .release id) (hu : u ∈ log) (href : u.memo = .refund id) : False := by
  cases o with
  | none =>
      refine (h.absent rfl).2 t ht ?_
      rw [hrel]
      rfl
  | some inv =>
      by_cases hs : inv.status = .released
      · exact (h.whenReleased inv rfl hs).2 u hu href
      · exact h.unlessReleased inv rfl hs t ht hrel

/-- What an invoice sends out was deposited into it. -/
theorem paid_le (h : AccountSound o deposits log id) :
    paidToCreator log id + paidBack log id ≤ paidIn log id := by
  have hin := h.inTotal
  have htotal := h.total_nonneg
  have hcreator : paidToCreator log id ≤ deposits.total := by
    cases o with
    | none =>
        have hno : ∀ t ∈ log, t.memo ≠ .release id := by
          intro t ht e
          exact (h.absent rfl).2 t ht (by rw [e]; rfl)
        rw [released_zero hno]
        exact htotal
    | some inv =>
        by_cases hs : inv.status = .released
        · exact (h.whenReleased inv rfl hs).1.le
        · rw [released_zero (h.unlessReleased inv rfl hs)]
          exact htotal
  omega

end AccountSound

/-! ## Lookups after a move -/

@[simp] theorem withInvoice_self (b : Books) (id : ℕ) (inv : EscrowInvoice) :
    (b.withInvoice id inv).invoices id = some inv := by
  simp [withInvoice]

theorem withInvoice_ne (b : Books) {id j : ℕ} (h : j ≠ id) (inv : EscrowInvoice) :
    (b.withInvoice id inv).invoices j = b.invoices j := by
  simp [withInvoice, h]

@[simp] theorem withInvoice_count (b : Books) (id : ℕ) (inv : EscrowInvoice) :
    (b.withInvoice id inv).count = b.count := rfl

@[simp] theorem withInvoice_deposits (b : Books) (id : ℕ) (inv : EscrowInvoice) :
    (b.withInvoice id inv).deposits = b.deposits := rfl

@[simp] theorem withInvoice_log (b : Books) (id : ℕ) (inv : EscrowInvoice) :
    (b.withInvoice id inv).log = b.log := rfl

theorem owed_congr {b b' : Books} {i : ℕ} (hinv : b'.invoices i = b.invoices i)
    (hdep : b'.deposits i = b.deposits i) (tok : Address) :
    b'.owed tok i = b.owed tok i := by
  simp [owed, hinv, hdep]

theorem owed_some {b : Books} {id : ℕ} {inv : EscrowInvoice} (h : b.invoices id = some inv)
    (tok : Address) :
    b.owed tok id =
      if inv.token = tok ∧ inv.status ≠ .released then (b.deposits id).total else 0 := by
  simp [owed, h]

theorem owed_nonneg {b : Books} (hb : b.Sound) (tok : Address) (id : ℕ) : 0 ≤ b.owed tok id := by
  cases h : b.invoices id with
  | none => simp [owed, h]
  | some inv =>
      rw [owed_some h]
      split
      · exact (hb.account id).total_nonneg
      · exact le_rfl

namespace Sound

variable {b b' : Books} {id : ℕ} {inv : EscrowInvoice}

theorem lt_count (hb : b.Sound) (h : b.invoices id = some inv) : id < b.count := by
  by_contra hle
  rw [hb.beyond id (not_lt.1 hle)] at h
  cases h

/-- What an invoice that was not released still owes is held. -/
theorem total_le_held (hb : b.Sound) (h : b.invoices id = some inv) (hs : inv.status ≠ .released) :
    (b.deposits id).total ≤ held b.log inv.token := by
  have hmem : id ∈ Finset.range b.count := Finset.mem_range.2 (hb.lt_count h)
  have hone : b.owed inv.token id = (b.deposits id).total := by simp [owed_some h, hs]
  calc (b.deposits id).total = b.owed inv.token id := hone.symm
    _ ≤ ∑ i ∈ Finset.range b.count, b.owed inv.token i :=
        Finset.single_le_sum (fun i _ => owed_nonneg hb inv.token i) hmem
    _ ≤ held b.log inv.token := hb.backed inv.token

/-- A change of one existing account keeps the books sound when the new account is sound
and the holdings follow what is owed for it. -/
theorem change (hb : b.Sound) (hid : id < b.count) (hcount : b'.count = b.count)
    (hinv : ∀ j, j ≠ id → b'.invoices j = b.invoices j)
    (hdep : ∀ j, j ≠ id → b'.deposits j = b.deposits j)
    (hother : ∀ j, j ≠ id → AccountSound (b.invoices j) (b.deposits j) b'.log j)
    (hself : AccountSound (b'.invoices id) (b'.deposits id) b'.log id)
    (hheld : ∀ tok, b'.owed tok id + held b.log tok ≤ b.owed tok id + held b'.log tok) :
    b'.Sound := by
  refine { beyond := ?_, account := ?_, backed := ?_ }
  · intro j hj
    have hne : j ≠ id := by omega
    rw [hinv j hne]
    exact hb.beyond j (by omega)
  · intro j
    by_cases hne : j = id
    · subst hne
      exact hself
    · rw [hinv j hne, hdep j hne]
      exact hother j hne
  · intro tok
    have hsum := Totals.sum_change (Finset.mem_range.2 hid) fun j hj =>
      owed_congr (hinv j hj) (hdep j hj) tok
    have hbacked := hb.backed tok
    have hstep := hheld tok
    rw [hcount]
    omega

/-! ## Every move keeps the books sound -/

theorem create (hb : b.Sound) (hstatus : inv.status = .pending) (hfunded : inv.fundedAmount = 0)
    (htotal : 0 < inv.totalAmount) :
    Sound { b.withInvoice b.count inv with count := b.count + 1 } := by
  have hfresh : b.invoices b.count = none := hb.beyond _ le_rfl
  have hacc := hb.account b.count
  obtain ⟨hempty, hlog⟩ := hacc.absent hfresh
  refine { beyond := ?_, account := ?_, backed := ?_ }
  · intro j hj
    have hj' : b.count + 1 ≤ j := hj
    have hne : j ≠ b.count := by omega
    simpa [withInvoice_ne b hne] using hb.beyond j (by omega)
  · intro j
    by_cases hne : j = b.count
    · subst hne
      have hnone : ∀ t ∈ b.log, t.memo ≠ .release b.count ∧ t.memo ≠ .refund b.count := by
        intro t ht
        exact ⟨fun e => hlog t ht (by rw [e]; rfl), fun e => hlog t ht (by rw [e]; rfl)⟩
      refine
        { absent := by simp, positive := hacc.positive, funded := ?_, whileOpen := ?_,
          whenReleased := ?_, unlessReleased := ?_, byPayer := hacc.byPayer,
          inTotal := hacc.inTotal }
      · simp [hfunded, htotal, htotal.le]
      · simpa [hfunded, hempty] using fun _ => hnone
      · simp [hstatus]
      · simpa using fun _ t ht => (hnone t ht).1
    · simpa [withInvoice_ne b hne] using hb.account j
  · intro tok
    have hsame : ∀ i ∈ Finset.range b.count,
        owed { b.withInvoice b.count inv with count := b.count + 1 } tok i = b.owed tok i := by
      intro i hi
      have hne : i ≠ b.count := (Finset.mem_range.1 hi).ne
      exact owed_congr (withInvoice_ne b hne inv) rfl tok
    have hnew : owed { b.withInvoice b.count inv with count := b.count + 1 } tok b.count = 0 := by
      simp [owed, hempty]
    change ∑ i ∈ Finset.range (b.count + 1), _ ≤ _
    rw [Finset.sum_range_succ, hnew, Finset.sum_congr rfl hsame, add_zero]
    exact hb.backed tok

theorem not_released_of_isOpen (h : isOpen inv = true) : inv.status ≠ .released := by
  rcases of_decide_eq_true h with h | h <;> simp [h]

theorem close {status : EscrowStatus} {reason : Option RefundReason} (hb : b.Sound)
    (hinv : b.invoices id = some inv) (hopen : isOpen inv = true)
    (hstatus : status = .refunded ∨ status = .cancelled) :
    Sound (b.withInvoice id { inv with status := status, refundReason := reason }) := by
  have hacc := hb.account id
  have hlog := (hacc.whileOpen inv hinv hopen).2
  have hnr : status ≠ .released := by rcases hstatus with rfl | rfl <;> simp
  refine change hb (hb.lt_count hinv) rfl (fun j hj => withInvoice_ne b hj _) (fun _ _ => rfl)
    (fun j _ => hb.account j) ?_ ?_
  · rw [withInvoice_self]
    refine
      { absent := by simp, positive := hacc.positive, funded := ?_, whileOpen := ?_,
        whenReleased := ?_, unlessReleased := ?_, byPayer := hacc.byPayer,
        inTotal := hacc.inTotal }
    · simpa using hacc.funded inv hinv
    · rcases hstatus with rfl | rfl <;> simp [isOpen]
    · simpa using fun h => absurd h hnr
    · simpa using fun _ t ht => (hlog t ht).1
  · intro tok
    have hold := not_released_of_isOpen hopen
    simp [owed, hinv, hnr, hold]

theorem fund {payer : Address} {amount : ℤ} (hb : b.Sound) (hinv : b.invoices id = some inv)
    (hopen : isOpen inv = true) (hpos : 0 < amount) (hpayer : payer ≠ currentContract)
    (hfit : inv.fundedAmount + amount ≤ inv.totalAmount) :
    Sound (b.fundBy id inv payer amount) := by
  have hacc := hb.account id
  obtain ⟨hfunded, hlog⟩ := hacc.whileOpen inv hinv hopen
  have hvalue := hacc.value_nonneg payer
  refine change hb (hb.lt_count hinv) rfl (fun j hj => withInvoice_ne b hj _)
    (fun j hj => by simp [fundBy, hj]) (fun j hj => (hb.account j).frame hj.symm) ?_ ?_
  · simp only [fundBy, withInvoice_self, update_self]
    refine
      { absent := by simp, positive := ?_, funded := ?_, whileOpen := ?_, whenReleased := by simp,
        unlessReleased := ?_, byPayer := ?_, inTotal := ?_ }
    · intro p hp
      rcases KeyMap.mem_set hp with rfl | hp
      · dsimp only
        omega
      · exact hacc.positive p hp
    · have h := hacc.funded inv hinv
      simp only [Option.mem_def, Option.some.injEq, forall_eq']
      omega
    · simp only [Option.mem_def, Option.some.injEq, forall_eq', KeyMap.total_set]
      refine fun _ => ⟨by omega, List.forall_mem_cons.2 ⟨by simp, hlog⟩⟩
    · simp only [Option.mem_def, Option.some.injEq, forall_eq']
      exact fun _ => List.forall_mem_cons.2 ⟨by simp, fun t ht => (hlog t ht).1⟩
    · intro p
      have h := hacc.byPayer p
      by_cases hp : p = payer
      · subst hp
        simp [received, returned] at h ⊢
        omega
      · simpa [received, returned, Ne.symm hp, KeyMap.value_set_ne _ hp] using h
    · have h := hacc.inTotal
      simp [paidIn, paidBack, KeyMap.total_set] at h ⊢
      omega
  · intro tok
    have hold := not_released_of_isOpen hopen
    by_cases htok : inv.token = tok
    · simp [fundBy, owed, hinv, hold, htok, held, hpayer, KeyMap.total_set]
      omega
    · simp [fundBy, owed, hinv, hold, htok, held]

theorem payOut (hb : b.Sound) (hinv : b.invoices id = some inv) (hopen : isOpen inv = true)
    (hfull : inv.totalAmount ≤ inv.fundedAmount) :
    Sound (b.payCreator id inv) := by
  have hacc := hb.account id
  obtain ⟨hfunded, hlog⟩ := hacc.whileOpen inv hinv hopen
  have hbound := hacc.funded inv hinv
  refine change hb (hb.lt_count hinv) rfl (fun j hj => withInvoice_ne b hj _)
    (fun _ _ => rfl) (fun j hj => (hb.account j).frame hj.symm) ?_ ?_
  · simp only [payCreator, creatorPayment, withInvoice_self]
    refine
      { absent := by simp, positive := hacc.positive, funded := ?_, whileOpen := by simp [isOpen],
        whenReleased := ?_, unlessReleased := by simp, byPayer := ?_, inTotal := ?_ }
    · simpa using hbound
    · have hzero := AccountSound.released_zero fun t ht => (hlog t ht).1
      simp only [Option.mem_def, Option.some.injEq, forall_eq']
      refine fun _ => ⟨?_, List.forall_mem_cons.2 ⟨by simp, fun t ht => (hlog t ht).2⟩⟩
      simp only [paidToCreator] at hzero
      simp [paidToCreator, hzero]
      omega
    · intro p
      simpa [received, returned] using hacc.byPayer p
    · simpa [paidIn, paidBack] using hacc.inTotal
  · intro tok
    have hold := not_released_of_isOpen hopen
    by_cases htok : inv.token = tok
    · simp only [payCreator, creatorPayment, owed, withInvoice_self, hinv, held, tally_cons, htok]
      simp [hold]
      split <;> omega
    · simp [payCreator, creatorPayment, owed, hinv, hold, htok, held]

theorem giveBack {payer : Address} (hb : b.Sound) (hinv : b.invoices id = some inv)
    (hstatus : inv.status = .refunded) (hpos : 0 < (b.deposits id).value payer) :
    Sound (b.giveBackTo id inv.token payer) := by
  have hacc := hb.account id
  refine change hb (hb.lt_count hinv) rfl (fun _ _ => rfl)
    (fun j hj => by simp [giveBackTo, hj]) (fun j hj => (hb.account j).frame hj.symm) ?_ ?_
  · simp only [giveBackTo, update_self, hinv]
    refine
      { absent := by simp, positive := fun p hp => hacc.positive p (KeyMap.mem_erase hp),
        funded := by simpa using hacc.funded inv hinv, whileOpen := by simp [isOpen, hstatus],
        whenReleased := by simp [hstatus], unlessReleased := ?_, byPayer := ?_, inTotal := ?_ }
    · have h := hacc.unlessReleased inv hinv (by simp [hstatus])
      simp only [Option.mem_def, Option.some.injEq, forall_eq']
      exact fun _ => List.forall_mem_cons.2 ⟨by simp, h⟩
    · intro p
      have h := hacc.byPayer p
      by_cases hp : p = payer
      · subst hp
        simp [received, returned] at h ⊢
        omega
      · simpa [received, returned, Ne.symm hp, KeyMap.value_erase_ne _ hp] using h
    · have h := hacc.inTotal
      simp [paidIn, paidBack, KeyMap.total_erase] at h ⊢
      omega
  · intro tok
    by_cases htok : inv.token = tok
    · simp only [giveBackTo, owed, hinv, held, tally_cons, htok]
      simp [hstatus, KeyMap.total_erase]
      split <;> omega
    · simp [giveBackTo, owed, hinv, htok, held]

end Sound

/-- A move keeps the books sound. -/
theorem Move.sound {b b' : Books} (h : Move b b') (hb : b.Sound) : b'.Sound := by
  cases h with
  | create _ hstatus hfunded htotal => exact hb.create hstatus hfunded htotal
  | fund hinv hopen hpos hpayer hfit => exact hb.fund hinv hopen hpos hpayer hfit
  | payOut _ _ hinv hopen hfull => exact hb.payOut hinv hopen hfull
  | close _ _ hinv hopen hstatus => exact hb.close hinv hopen hstatus
  | giveBack _ hinv hstatus hpos => exact hb.giveBack hinv hstatus hpos

/-- So does any number of moves. -/
theorem Sound.moves {b b' : Books} (hb : b.Sound) (h : Relation.ReflTransGen Move b b') :
    b'.Sound := by
  induction h with
  | refl => exact hb
  | tail _ hlast ih => exact hlast.sound ih

end Books

end StellarSplit.Escrow
