import StellarSplit.Lib.Totals
import StellarSplit.Movements
import StellarSplit.CharitySplit.Contract

/-!
# The charity split conserves money

The part of the storage that money depends on, the moves it can make, and an
invariant of all of them: contributions are recorded until they are paid out or given
back, and the contract holds the funding of all invoices that are not released.
-/

namespace StellarSplit.CharitySplit

open Exec Function

/-! ## What the log says -/

/-- The invoice a movement belongs to. -/
def Memo.invoice : Memo → ℕ
  | .payment id | .payout id | .donation id | .extra id | .refund id => id

/-- What a payer paid into an invoice. -/
def received (log : List (Transfer Memo)) (id : ℕ) (payer : Address) : ℤ :=
  tally (fun m => m.memo = .payment id ∧ m.src = payer) log

/-- What an invoice gave back to a payer. -/
def givenBack (log : List (Transfer Memo)) (id : ℕ) (payer : Address) : ℤ :=
  tally (fun m => m.memo = .refund id ∧ m.dst = payer) log

/-- The movement is a donation, from a release or beside it. -/
def Memo.donates : Memo → Bool
  | .donation _ | .extra _ => true
  | _ => false

/-- What a charity received in donations. -/
def donatedTo (log : List (Transfer Memo)) (charity token : Address) : ℤ :=
  tally (fun m => m.memo.donates = true ∧ m.dst = charity ∧ m.token = token) log

/-! ## The law -/

/-- What the contract owes in a token for an invoice. -/
def Store.owed (s : Store) (tok : Address) (id : ℕ) : ℤ :=
  match s.invoices id with
  | some inv => if inv.token = tok ∧ inv.status ≠ .released then inv.funded else 0
  | none => 0

def Store.invoiceCount (s : Store) : ℕ := s.counter.getD 0

/-- The payer gets the contribution back in full when claiming it, or has got it back and gets no
more. -/
def Reclaims (s : Store) (id : ℕ) (payer : Address) : Prop :=
  (givenBack s.log id payer = 0 ∧ ∀ env : Ledger Memo, env.PaysHeld → env.auth payer = true →
      payer ≠ currentContract → 0 < received s.log id payer →
      ∃ t, claimRefund env payer id s = .ok (received s.log id payer, t) ∧
        givenBack t.log id payer = received t.log id payer) ∨
    (givenBack s.log id payer = received s.log id payer ∧ ∀ env r, claimRefund env payer id s ≠ .ok r)

/-- What holds in each state that is reached. -/
structure Conserved (s : Store) : Prop where
  solvent : ∀ tok, ∑ id ∈ Finset.range s.invoiceCount, s.owed tok id ≤ held s.log tok
  funded : ∀ id inv, s.invoices id = some inv → inv.status ≠ .released →
    inv.funded = (s.contributions id).total
  recorded : ∀ id inv payer, s.invoices id = some inv → inv.status ≠ .released →
    s.getContribution id payer + givenBack s.log id payer = received s.log id payer
  reclaims : ∀ id inv payer, s.invoices id = some inv → inv.status = .cancelled → Reclaims s id payer
  donated : ∀ charity token, s.getCharityTotal charity token = donatedTo s.log charity token

/-- What each call does to the invoices: a new invoice is open, a call releases an invoice exactly
if it is the payment that completes the funding, and that payment moves the net amounts to the
recipients and the parts cut off to the charity. -/
structure Settles (c : CharityCall) (s t : Store) : Prop where
  creates : ∀ id inv, s.invoices id = none → t.invoices id = some inv → inv.status = .opened
  releases : ∀ id inv, s.invoices id = some inv → inv.status ≠ .released →
    ∃ inv', t.invoices id = some inv' ∧ (inv'.status = .released ↔
      ∃ payer amount, c = .pay payer id amount ∧ inv.funded + amount = inv.total)
  pays : ∀ payer id amount inv, c = .pay payer id amount → s.invoices id = some inv →
    inv.funded + amount = inv.total →
      t.log = inv.payouts.reverse ++ paymentOf inv payer amount id :: s.log ∧
        inv.netAmounts.sum + inv.share = inv.total ∧ inv.recipients.length = inv.netAmounts.length

/-! ## The books -/

/-- Invoices, contributions, totals of the charities and token movements. -/
structure Books where
  count : ℕ
  invoices : ℕ → Option CharityInvoice
  contributions : ℕ → KeyMap ℤ
  totals : Address → Address → ℤ
  log : List (Transfer Memo)

def Store.books (s : Store) : Books :=
  ⟨s.invoiceCount, s.invoices, s.contributions, s.charityTotals, s.log⟩

namespace Books

def withInvoice (b : Books) (inv : CharityInvoice) : Books :=
  { b with invoices := update b.invoices inv.id (some inv) }

/-- A payment into an invoice that is saved as `inv'`, with the movements that follow it. -/
def fundBy (b : Books) (inv inv' : CharityInvoice) (payer : Address) (amount : ℤ)
    (totals : Address → Address → ℤ) (sent : List (Transfer Memo)) : Books :=
  { b.withInvoice inv' with
    contributions := update b.contributions inv.id
      ((b.contributions inv.id).set payer ((b.contributions inv.id).value payer + amount))
    totals := totals
    log := sent ++ paymentOf inv payer amount inv.id :: b.log }

/-- One movement of money, or a change of an invoice that decides about money, with the payer, the
invoice and the amount when it is a payment. -/
inductive Move : Option (Address × ℕ × ℤ) → Books → Books → Prop where
  | create {b : Books} (inv : CharityInvoice) (hid : inv.id = b.count) (hstatus : inv.status = .opened)
      (hfunded : inv.funded = 0) (hterms : inv.Terms) :
      Move none b { b.withInvoice inv with count := b.count + 1 }
  | fund {b : Books} (inv : CharityInvoice) (payer : Address) (amount : ℤ)
      (hinv : b.invoices inv.id = some inv) (hopen : inv.status = .opened) (hpos : 0 < amount)
      (hpayer : payer ≠ currentContract) (hfit : inv.funded + amount < inv.total) :
      Move (some (payer, inv.id, amount)) b
        (b.fundBy inv { inv with funded := inv.funded + amount } payer amount b.totals [])
  | settle {b : Books} (inv : CharityInvoice) (payer : Address) (amount : ℤ)
      (hinv : b.invoices inv.id = some inv) (hopen : inv.status = .opened) (hpos : 0 < amount)
      (hpayer : payer ≠ currentContract) (hfull : inv.funded + amount = inv.total) :
      Move (some (payer, inv.id, amount)) b
        (b.fundBy inv { inv with funded := inv.total, donated := inv.share, status := .released }
          payer amount (inv.credit b.totals) inv.payouts.reverse)
  | donate {b : Books} (inv : CharityInvoice) (donor : Address) (amount : ℤ)
      (hinv : b.invoices inv.id = some inv) (hpos : 0 < amount) (hdonor : donor ≠ currentContract) :
      Move none b { b with
        totals := update b.totals inv.charity
          (update (b.totals inv.charity) inv.token (b.totals inv.charity inv.token + amount))
        log := ⟨inv.token, donor, inv.charity, amount, .extra inv.id⟩ :: b.log }
  | cancel {b : Books} (inv : CharityInvoice) (hinv : b.invoices inv.id = some inv)
      (hopen : inv.status = .opened) :
      Move none b (b.withInvoice { inv with status := .cancelled })
  | giveBack {b : Books} (inv : CharityInvoice) (payer : Address)
      (hinv : b.invoices inv.id = some inv) (hstatus : inv.status = .cancelled)
      (hpos : 0 < (b.contributions inv.id).value payer) :
      Move none b { b.withInvoice { inv with funded := inv.funded - (b.contributions inv.id).value payer } with
        contributions := update b.contributions inv.id ((b.contributions inv.id).erase payer)
        log := refundTo inv payer ((b.contributions inv.id).value payer) inv.id :: b.log }

def owed (b : Books) (tok : Address) (id : ℕ) : ℤ :=
  match b.invoices id with
  | some inv => if inv.token = tok ∧ inv.status ≠ .released then inv.funded else 0
  | none => 0

/-- The account of one invoice agrees with the log. -/
structure AccountSound (o : Option CharityInvoice) (contributions : KeyMap ℤ)
    (log : List (Transfer Memo)) (id : ℕ) : Prop where
  absent : o = none → contributions = .empty ∧ ∀ m ∈ log, m.memo.invoice ≠ id
  positive : ∀ p ∈ contributions.entries, 0 < p.2
  terms : ∀ inv ∈ o, inv.id = id ∧ inv.Terms
  whileOpen : ∀ inv ∈ o, inv.status = .opened → inv.funded < inv.total ∧ ∀ m ∈ log, m.memo ≠ .refund id
  funded : ∀ inv ∈ o, inv.status ≠ .released → inv.funded = contributions.total
  byPayer : ∀ p, contributions.value p + givenBack log id p = received log id p
  once : ∀ p, contributions.value p = 0 ∨ givenBack log id p = 0

/-- Every account agrees with the log, what is owed is held, and the donations are counted. -/
structure Sound (b : Books) : Prop where
  beyond : ∀ id, b.count ≤ id → b.invoices id = none
  account : ∀ id, AccountSound (b.invoices id) (b.contributions id) b.log id
  backed : ∀ tok, ∑ id ∈ Finset.range b.count, b.owed tok id ≤ held b.log tok
  donated : ∀ charity token, b.totals charity token = donatedTo b.log charity token

namespace AccountSound

variable {o : Option CharityInvoice} {contributions : KeyMap ℤ} {log : List (Transfer Memo)} {id : ℕ}

/-- Movements that neither pay into the invoice nor give back from it do not matter to it. -/
theorem frame (h : AccountSound o contributions log id) (ms : List (Transfer Memo))
    (hms : ∀ m ∈ ms, m.memo ≠ .payment id ∧ m.memo ≠ .refund id ∧ (o = none → m.memo.invoice ≠ id)) :
    AccountSound o contributions (ms ++ log) id := by
  have hin : ∀ p, received (ms ++ log) id p = received log id p := by
    intro p
    unfold received
    have hzero : tally (fun m => m.memo = .payment id ∧ m.src = p) ms = 0 :=
      tally_eq_zero fun m hm => by simp [(hms m hm).1]
    rw [tally_append, hzero, zero_add]
  have hout : ∀ p, givenBack (ms ++ log) id p = givenBack log id p := by
    intro p
    unfold givenBack
    have hzero : tally (fun m => m.memo = .refund id ∧ m.dst = p) ms = 0 :=
      tally_eq_zero fun m hm => by simp [(hms m hm).2.1]
    rw [tally_append, hzero, zero_add]
  refine
    { absent := ?_, positive := h.positive, terms := h.terms, whileOpen := ?_, funded := h.funded,
      byPayer := ?_, once := ?_ }
  · intro ho
    obtain ⟨hempty, hlog⟩ := h.absent ho
    refine ⟨hempty, fun m hm => ?_⟩
    rcases List.mem_append.1 hm with hm | hm
    · exact (hms m hm).2.2 ho
    · exact hlog m hm
  · intro inv hinv hopen
    obtain ⟨hless, hlog⟩ := h.whileOpen inv hinv hopen
    refine ⟨hless, fun m hm => ?_⟩
    rcases List.mem_append.1 hm with hm | hm
    · exact (hms m hm).2.1
    · exact hlog m hm
  · intro p
    rw [hin, hout]
    exact h.byPayer p
  · intro p
    rw [hout]
    exact h.once p

/-- A payment into the invoice, which is saved as `inv'`. -/
theorem fund {inv : CharityInvoice} (h : AccountSound (some inv) contributions log id) (inv' : CharityInvoice)
    (payer : Address) (hopen : inv.status = .opened) {amount : ℤ} (hpos : 0 < amount)
    (hid : inv'.id = id) (hterms : inv'.Terms) (hless : inv'.status = .opened → inv'.funded < inv'.total)
    (hfunded : inv'.status ≠ .released → inv'.funded = inv.funded + amount) :
    AccountSound (some inv') (contributions.set payer (contributions.value payer + amount))
      (paymentOf inv payer amount id :: log) id := by
  obtain ⟨-, hlog⟩ := h.whileOpen inv rfl hopen
  have hnone : ∀ p, givenBack (paymentOf inv payer amount id :: log) id p = 0 := by
    intro p
    refine tally_eq_zero fun m hm => ?_
    rcases List.mem_cons.1 hm with rfl | hm
    · simp [paymentOf]
    · simp [hlog m hm]
  refine
    { absent := nofun, positive := ?_, terms := ?_, whileOpen := ?_, funded := ?_, byPayer := ?_,
      once := fun p => .inr (hnone p) }
  · intro p hp
    rcases KeyMap.mem_set hp with rfl | hp
    · have hvalue := contributions.value_nonneg (fun q hq => (h.positive q hq).le) payer
      dsimp only
      omega
    · exact h.positive p hp
  · rintro _ ⟨⟩
    exact ⟨hid, hterms⟩
  · rintro _ ⟨⟩ hstatus
    refine ⟨hless hstatus, List.forall_mem_cons.2 ⟨by simp [paymentOf], hlog⟩⟩
  · rintro _ ⟨⟩ hstatus
    rw [hfunded hstatus, KeyMap.total_set, h.funded inv rfl (by simp [hopen])]
    ring
  · intro p
    have hbefore := h.byPayer p
    have hzero : givenBack log id p = 0 := tally_eq_zero fun m hm => by simp [hlog m hm]
    rw [hnone p]
    by_cases hp : p = payer
    · subst hp
      simp only [KeyMap.value_set_self, received, tally_cons, paymentOf] at hbefore ⊢
      simp only [decide_true, and_self, if_true]
      omega
    · rw [KeyMap.value_set_ne _ hp]
      simp only [received, tally_cons, paymentOf] at hbefore ⊢
      simp only [Ne.symm hp, and_false, decide_false, Bool.false_eq_true, if_false]
      omega

/-- The return of a contribution. -/
theorem giveBack {inv inv' : CharityInvoice} (h : AccountSound (some inv) contributions log id)
    (hstatus : inv.status = .cancelled) {payer : Address} (hpos : 0 < contributions.value payer)
    (hsame : inv' = { inv with funded := inv.funded - contributions.value payer }) :
    AccountSound (some inv') (contributions.erase payer)
      (refundTo inv payer (contributions.value payer) id :: log) id := by
  subst hsame
  obtain ⟨hid, hterms⟩ := h.terms inv rfl
  have hfirst : givenBack log id payer = 0 := (h.once payer).resolve_left hpos.ne'
  have hpayer : givenBack (refundTo inv payer (contributions.value payer) id :: log) id payer =
      contributions.value payer := by
    unfold givenBack at hfirst ⊢
    rw [tally_cons, hfirst]
    simp [refundTo]
  have hothers : ∀ p, p ≠ payer →
      givenBack (refundTo inv payer (contributions.value payer) id :: log) id p = givenBack log id p := by
    intro p hp
    simp [givenBack, refundTo, Ne.symm hp]
  have hin : ∀ p, received (refundTo inv payer (contributions.value payer) id :: log) id p =
      received log id p := fun p => by simp [received, refundTo]
  refine
    { absent := nofun, positive := fun p hp => h.positive p (KeyMap.mem_erase hp), terms := ?_,
      whileOpen := ?_, funded := ?_, byPayer := ?_, once := ?_ }
  · rintro _ ⟨⟩
    exact ⟨hid, hterms.length, hterms.positive, hterms.total, hterms.donationBps, hterms.nonempty⟩
  · rintro _ ⟨⟩ hopen
    rw [hstatus] at hopen
    cases hopen
  · rintro _ ⟨⟩ -
    rw [KeyMap.total_erase, ← h.funded inv rfl (by simp [hstatus])]
  · intro p
    have hbefore := h.byPayer p
    rw [hin]
    by_cases hp : p = payer
    · subst hp
      rw [hpayer, KeyMap.value_erase_self]
      omega
    · rw [hothers p hp, KeyMap.value_erase_ne _ hp]
      exact hbefore
  · intro p
    by_cases hp : p = payer
    · subst hp
      exact .inl (KeyMap.value_erase_self _ _)
    · rw [hothers p hp, KeyMap.value_erase_ne _ hp]
      exact h.once p

end AccountSound

/-! ## What a release moves -/

section Payouts

variable {inv : CharityInvoice} {m : Transfer Memo}

theorem share_nonneg (h : inv.Terms) : 0 ≤ inv.share := by
  refine List.sum_nonneg fun x hx => ?_
  obtain ⟨amount, hamount, rfl⟩ := List.mem_map.1 hx
  exact (h.cut_bounds (h.positive amount hamount)).1

/-- A movement of a release is a payout of a net amount or the donation. -/
theorem mem_payouts (hm : m ∈ inv.payouts) :
    (∃ recipient, ∃ net ∈ inv.netAmounts, m = payoutTo inv recipient net) ∨
      m = donationOf inv inv.share ∧ 0 < inv.share := by
  rcases List.mem_append.1 hm with hm | hm
  · obtain ⟨⟨recipient, net⟩, hp, rfl⟩ := List.mem_map.1 hm
    exact .inl ⟨recipient, net, (List.of_mem_zip hp).2, rfl⟩
  · split_ifs at hm with hpos
    · exact .inr ⟨List.mem_singleton.1 hm, hpos⟩
    · cases hm

theorem payouts_positive (h : inv.Terms) (hm : m ∈ inv.payouts) : 0 < m.amount := by
  rcases mem_payouts hm with ⟨recipient, net, hnet, rfl⟩ | ⟨rfl, hpos⟩
  · obtain ⟨amount, hamount, rfl⟩ := List.mem_map.1 hnet
    have hcut := (h.cut_bounds (h.positive amount hamount)).2
    change 0 < amount - inv.cut amount
    omega
  · exact hpos

theorem payouts_token (hm : m ∈ inv.payouts) : m.token = inv.token := by
  rcases mem_payouts hm with ⟨recipient, net, -, rfl⟩ | ⟨rfl, -⟩ <;> rfl

theorem payouts_memo (hm : m ∈ inv.payouts) :
    m.memo.invoice = inv.id ∧ m.memo ≠ .payment inv.id ∧ m.memo ≠ .refund inv.id := by
  rcases mem_payouts hm with ⟨recipient, net, -, rfl⟩ | ⟨rfl, -⟩
  · exact ⟨rfl, nofun, nofun⟩
  · exact ⟨rfl, nofun, nofun⟩

theorem length_netAmounts (inv : CharityInvoice) : inv.netAmounts.length = inv.amounts.length :=
  List.length_map ..

/-- A release pays out exactly the total. -/
theorem netAmounts_add_share (h : inv.Terms) : inv.netAmounts.sum + inv.share = inv.total := by
  rw [inv.sum_netAmounts, h.total]
  ring

theorem sum_payouts (h : inv.Terms) : (inv.payouts.map Transfer.amount).sum = inv.total := by
  have hlength : inv.netAmounts.length ≤ inv.recipients.length := by
    rw [length_netAmounts, h.length]
  have hnets : ((inv.recipients.zip inv.netAmounts).map fun p => payoutTo inv p.1 p.2).map Transfer.amount =
      inv.netAmounts := by
    rw [List.map_map]
    exact List.map_snd_zip hlength
  rw [CharityInvoice.payouts, List.map_append, hnets, List.sum_append]
  have hshare := share_nonneg h
  have htotal := netAmounts_add_share h
  split_ifs with hpos
  · simpa [donationOf] using htotal
  · simp only [List.map_nil, List.sum_nil]
    omega

/-- The part cut off is counted for the charity. -/
theorem donatedTo_payouts (h : inv.Terms) (log : List (Transfer Memo)) (charity token : Address) :
    donatedTo (inv.payouts.reverse ++ log) charity token =
      donatedTo log charity token + if charity = inv.charity ∧ token = inv.token then inv.share else 0 := by
  have hnets : donatedTo ((inv.recipients.zip inv.netAmounts).map fun p => payoutTo inv p.1 p.2).reverse
      charity token = 0 := by
    refine tally_eq_zero fun m hm => ?_
    obtain ⟨p, -, rfl⟩ := List.mem_map.1 (List.mem_reverse.1 hm)
    simp [payoutTo, Memo.donates]
  have hshare := share_nonneg h
  unfold donatedTo at hnets ⊢
  rw [CharityInvoice.payouts, List.reverse_append, tally_append, tally_append, hnets]
  by_cases hpos : 0 < inv.share
  · rw [if_pos hpos]
    simp only [List.reverse_singleton, tally_cons, tally_nil, donationOf, Memo.donates]
    simp only [true_and, decide_eq_true_eq, eq_comm (a := inv.charity), eq_comm (a := inv.token)]
    omega
  · have hzero : inv.share = 0 := by omega
    simp [hzero]

end Payouts

/-! ## Every move keeps the books sound -/

namespace Sound

variable {b b' : Books} {inv inv' : CharityInvoice} {id : ℕ}

theorem owed_some {i : CharityInvoice} (h : b.invoices id = some i) (tok : Address) :
    b.owed tok id = if i.token = tok ∧ i.status ≠ .released then i.funded else 0 := by
  simp [owed, h]

theorem lt_count (hb : b.Sound) (h : b.invoices id = some inv) : id < b.count := by
  by_contra hge
  rw [hb.beyond id (not_lt.1 hge)] at h
  cases h

/-- A change of one invoice that draws from the balance at most what is owed for it. -/
theorem change (hb : b.Sound) (hinv : b.invoices id = some inv) (ms : List (Transfer Memo))
    (hcount : b'.count = b.count) (hinvoices : b'.invoices = update b.invoices id (some inv'))
    (hcontributions : ∀ j, j ≠ id → b'.contributions j = b.contributions j)
    (hlog : b'.log = ms ++ b.log) (hmemo : ∀ m ∈ ms, m.memo.invoice = id)
    (haccount : AccountSound (some inv') (b'.contributions id) b'.log id)
    (hheld : ∀ tok, held b.log tok + b'.owed tok id ≤ held b'.log tok + b.owed tok id)
    (hdonated : ∀ charity token, b'.totals charity token = donatedTo b'.log charity token) : Sound b' := by
  have hid := hb.lt_count hinv
  refine { beyond := ?_, account := ?_, backed := ?_, donated := hdonated }
  · intro j hj
    rw [hcount] at hj
    have hne : j ≠ id := by omega
    rw [hinvoices, update_of_ne hne]
    exact hb.beyond j hj
  · intro j
    by_cases hj : j = id
    · subst hj
      rw [hinvoices, update_self]
      exact haccount
    · rw [hinvoices, update_of_ne hj, hcontributions j hj, hlog]
      refine (hb.account j).frame ms fun m hm => ?_
      have hmj : m.memo.invoice ≠ j := fun h => hj (h.symm.trans (hmemo m hm))
      exact ⟨fun e => hmj (by rw [e]; rfl), fun e => hmj (by rw [e]; rfl), fun _ => hmj⟩
  · intro tok
    have hothers : ∀ j, j ≠ id → b'.owed tok j = b.owed tok j := by
      intro j hj
      simp [owed, hinvoices, update_of_ne hj]
    have hsum := Totals.sum_change (Finset.mem_range.2 hid) hothers
    have hbacked := hb.backed tok
    have hstep := hheld tok
    rw [hcount, hsum]
    omega

theorem create (hb : b.Sound) (hid : inv.id = b.count)
    (hfunded : inv.funded = 0) (hterms : inv.Terms) :
    Sound { b.withInvoice inv with count := b.count + 1 } := by
  obtain ⟨hempty, hlog⟩ := (hb.account b.count).absent (hb.beyond _ le_rfl)
  refine { beyond := ?_, account := ?_, backed := ?_, donated := hb.donated }
  · intro j hj
    have hj' : b.count + 1 ≤ j := hj
    have hne : j ≠ inv.id := by omega
    simpa [withInvoice, update_of_ne hne] using hb.beyond j (by omega)
  · intro j
    by_cases hj : j = b.count
    · subst hj
      have hnone : ∀ p, received b.log b.count p = 0 ∧ givenBack b.log b.count p = 0 := by
        refine fun p => ⟨tally_eq_zero fun m hm => ?_, tally_eq_zero fun m hm => ?_⟩
        · have hmemo : m.memo ≠ .payment b.count := fun e => hlog m hm (by rw [e]; rfl)
          simp [hmemo]
        · have hmemo : m.memo ≠ .refund b.count := fun e => hlog m hm (by rw [e]; rfl)
          simp [hmemo]
      have hself : (b.withInvoice inv).invoices b.count = some inv := by
        rw [← hid]
        exact update_self ..
      change AccountSound ((b.withInvoice inv).invoices b.count) (b.contributions b.count) b.log b.count
      rw [hself, hempty]
      refine
        { absent := nofun, positive := nofun, terms := ?_, whileOpen := ?_, funded := ?_,
          byPayer := fun p => by simp [hnone p], once := fun p => .inr (hnone p).2 }
      · rintro _ ⟨⟩
        exact ⟨hid, hterms⟩
      · rintro _ ⟨⟩ -
        refine ⟨by rw [hfunded]; exact hterms.nonempty, fun m hm e => hlog m hm (by rw [e]; rfl)⟩
      · rintro _ ⟨⟩ -
        simpa using hfunded
    · have hne : j ≠ inv.id := by omega
      have hother : (b.withInvoice inv).invoices j = b.invoices j := update_of_ne hne _ _
      change AccountSound ((b.withInvoice inv).invoices j) (b.contributions j) b.log j
      rw [hother]
      exact hb.account j
  · intro tok
    have hothers : ∀ j, j < b.count →
        owed { b.withInvoice inv with count := b.count + 1 } tok j = b.owed tok j := by
      intro j hj
      have hne : j ≠ inv.id := by omega
      simp [owed, withInvoice, update_of_ne hne]
    have hnew : owed { b.withInvoice inv with count := b.count + 1 } tok b.count = 0 := by
      rw [owed_some (i := inv) (by simp [withInvoice, ← hid]), hfunded, ite_self]
    have hbacked := hb.backed tok
    change ∑ j ∈ Finset.range (b.count + 1), _ ≤ held b.log tok
    rw [Totals.sum_range_grow hothers, hnew, add_zero]
    exact hbacked

theorem fund (hb : b.Sound) {payer : Address} {amount : ℤ} (hinv : b.invoices inv.id = some inv)
    (hopen : inv.status = .opened) (hpos : 0 < amount) (hpayer : payer ≠ currentContract)
    (hfit : inv.funded + amount < inv.total) :
    Sound (b.fundBy inv { inv with funded := inv.funded + amount } payer amount b.totals []) := by
  have haccount := hb.account inv.id
  rw [hinv] at haccount
  obtain ⟨-, hterms⟩ := haccount.terms inv rfl
  refine hb.change hinv [paymentOf inv payer amount inv.id] rfl rfl
    (fun j hj => update_of_ne hj _ _) rfl (by simp [paymentOf, Memo.invoice]) ?_ ?_ ?_
  · have hnew := haccount.fund { inv with funded := inv.funded + amount } payer hopen hpos rfl
      ⟨hterms.length, hterms.positive, hterms.total, hterms.donationBps, hterms.nonempty⟩
      (fun _ => hfit) fun _ => rfl
    simpa [fundBy, withInvoice] using hnew
  · intro tok
    have hin := held_receive (m := paymentOf inv payer amount inv.id) (l := b.log) (a := tok) hpayer rfl
    rw [owed_some hinv, owed_some (i := { inv with funded := inv.funded + amount })
      (by simp [fundBy, withInvoice])]
    change _ ≤ held (paymentOf inv payer amount inv.id :: b.log) tok + _
    rw [hin]
    simp only [hopen, paymentOf]
    split_ifs <;> simp_all
    omega
  · intro charity token
    have hsame := hb.donated charity token
    simpa [donatedTo, fundBy, paymentOf, Memo.donates] using hsame

theorem settle (hb : b.Sound) {payer : Address} {amount : ℤ} (hinv : b.invoices inv.id = some inv)
    (hopen : inv.status = .opened) (hpos : 0 < amount) (hpayer : payer ≠ currentContract)
    (hfull : inv.funded + amount = inv.total) :
    Sound (b.fundBy inv { inv with funded := inv.total, donated := inv.share, status := .released }
      payer amount (inv.credit b.totals) inv.payouts.reverse) := by
  have haccount := hb.account inv.id
  rw [hinv] at haccount
  obtain ⟨-, hterms⟩ := haccount.terms inv rfl
  refine hb.change hinv (inv.payouts.reverse ++ [paymentOf inv payer amount inv.id]) rfl rfl
    (fun j hj => update_of_ne hj _ _) (by simp [fundBy, withInvoice]) ?_ ?_ ?_ ?_
  · intro m hm
    rcases List.mem_append.1 hm with hm | hm
    · exact (payouts_memo (List.mem_reverse.1 hm)).1
    · rw [List.mem_singleton.1 hm]
      rfl
  · have hnew := haccount.fund
      { inv with funded := inv.total, donated := inv.share, status := .released } payer hopen hpos rfl
      ⟨hterms.length, hterms.positive, hterms.total, hterms.donationBps, hterms.nonempty⟩ nofun
      fun h => absurd rfl h
    have hframe := hnew.frame inv.payouts.reverse fun m hm => by
      obtain ⟨-, hpayment, hrefund⟩ := payouts_memo (List.mem_reverse.1 hm)
      exact ⟨hpayment, hrefund, nofun⟩
    simpa [fundBy, withInvoice] using hframe
  · intro tok
    have hin := held_receive (m := paymentOf inv payer amount inv.id) (l := b.log) (a := tok) hpayer rfl
    have hout := held_send_all (w := inv.payouts.reverse) (l := paymentOf inv payer amount inv.id :: b.log)
      (a := tok) (fun m hm => payouts_token (List.mem_reverse.1 hm))
      fun m hm => (payouts_positive hterms (List.mem_reverse.1 hm)).le
    rw [List.map_reverse, List.sum_reverse, sum_payouts hterms, hin] at hout
    rw [owed_some hinv,
      owed_some (i := { inv with funded := inv.total, donated := inv.share, status := .released })
        (by simp [fundBy, withInvoice])]
    change _ ≤ held (inv.payouts.reverse ++ paymentOf inv payer amount inv.id :: b.log) tok + _
    simp only [hopen, paymentOf] at hout ⊢
    split_ifs at hout ⊢ <;> simp_all
    omega
  · intro charity token
    have hsame := hb.donated charity token
    have hpayment : donatedTo (paymentOf inv payer amount inv.id :: b.log) charity token =
        donatedTo b.log charity token := by simp [donatedTo, paymentOf, Memo.donates]
    change inv.credit b.totals charity token =
      donatedTo (inv.payouts.reverse ++ paymentOf inv payer amount inv.id :: b.log) charity token
    rw [donatedTo_payouts hterms, hpayment, ← hsame]
    unfold CharityInvoice.credit
    by_cases hcharity : charity = inv.charity
    · subst hcharity
      by_cases htoken : token = inv.token
      · subst htoken
        simp
      · simp [htoken]
    · simp [hcharity]

theorem donate (hb : b.Sound) {donor : Address} {amount : ℤ} (hinv : b.invoices inv.id = some inv)
    (hpos : 0 < amount) (hdonor : donor ≠ currentContract) :
    Sound { b with
      totals := update b.totals inv.charity
        (update (b.totals inv.charity) inv.token (b.totals inv.charity inv.token + amount))
      log := ⟨inv.token, donor, inv.charity, amount, .extra inv.id⟩ :: b.log } := by
  have hsame : b.invoices = update b.invoices inv.id (some inv) := (update_eq_self_iff.2 hinv.symm).symm
  refine hb.change hinv [⟨inv.token, donor, inv.charity, amount, .extra inv.id⟩] rfl hsame (fun _ _ => rfl) rfl
    (by simp [Memo.invoice]) ?_ ?_ ?_
  · have haccount := hb.account inv.id
    rw [hinv] at haccount
    exact haccount.frame [⟨inv.token, donor, inv.charity, amount, .extra inv.id⟩] (by simp)
  · intro tok
    have hin := held_le_of_src (m := (⟨inv.token, donor, inv.charity, amount, .extra inv.id⟩ : Transfer Memo))
      (l := b.log) (a := tok) hdonor hpos.le
    exact Int.add_le_add_right hin _
  · intro charity token
    have hsame := hb.donated charity token
    simp only [donatedTo, tally_cons, Memo.donates] at hsame ⊢
    by_cases hcharity : charity = inv.charity
    · subst hcharity
      by_cases htoken : token = inv.token
      · subst htoken
        simp [hsame, add_comm]
      · simp [htoken, Ne.symm htoken, hsame]
    · simp [hcharity, Ne.symm hcharity, hsame]

theorem cancel (hb : b.Sound) (hinv : b.invoices inv.id = some inv) (hopen : inv.status = .opened) :
    Sound (b.withInvoice { inv with status := .cancelled }) := by
  have haccount := hb.account inv.id
  rw [hinv] at haccount
  obtain ⟨hid, hterms⟩ := haccount.terms inv rfl
  refine hb.change hinv [] rfl rfl (fun _ _ => rfl) rfl nofun ?_ ?_ hb.donated
  · refine
      { absent := nofun, positive := haccount.positive, terms := ?_, whileOpen := ?_, funded := ?_,
        byPayer := haccount.byPayer, once := haccount.once }
    · rintro _ ⟨⟩
      exact ⟨hid, hterms.length, hterms.positive, hterms.total, hterms.donationBps, hterms.nonempty⟩
    · rintro _ ⟨⟩ h
      cases h
    · rintro _ ⟨⟩ -
      exact haccount.funded inv rfl (by simp [hopen])
  · intro tok
    rw [owed_some hinv, owed_some (i := { inv with status := .cancelled }) (by simp [withInvoice])]
    simp [hopen, withInvoice]

theorem giveBack (hb : b.Sound) {payer : Address} (hinv : b.invoices inv.id = some inv)
    (hstatus : inv.status = .cancelled) (hpos : 0 < (b.contributions inv.id).value payer) :
    Sound { b.withInvoice { inv with funded := inv.funded - (b.contributions inv.id).value payer } with
      contributions := update b.contributions inv.id ((b.contributions inv.id).erase payer)
      log := refundTo inv payer ((b.contributions inv.id).value payer) inv.id :: b.log } := by
  have haccount := hb.account inv.id
  rw [hinv] at haccount
  refine hb.change hinv [refundTo inv payer ((b.contributions inv.id).value payer) inv.id] rfl rfl
    (fun j hj => update_of_ne hj _ _) rfl (by simp [refundTo, Memo.invoice]) ?_ ?_ ?_
  · have hnew := haccount.giveBack hstatus hpos rfl
    simpa using hnew
  · intro tok
    have hout := held_send (m := refundTo inv payer ((b.contributions inv.id).value payer) inv.id)
      (l := b.log) (a := tok) hpos.le
    rw [owed_some hinv,
      owed_some (i := { inv with funded := inv.funded - (b.contributions inv.id).value payer })
        (by simp [withInvoice])]
    simp only [hstatus, refundTo] at hout ⊢
    split_ifs at hout ⊢ <;> simp_all
    omega
  · intro charity token
    have hsame := hb.donated charity token
    simpa [donatedTo, refundTo, Memo.donates, withInvoice] using hsame

end Sound

theorem Move.sound {b b' : Books} {paid : Option (Address × ℕ × ℤ)} (hmove : Move paid b b') (hb : b.Sound) : b'.Sound := by
  cases hmove with
  | create inv hid hstatus hfunded hterms => exact hb.create hid hfunded hterms
  | fund inv payer amount hinv hopen hpos hpayer hfit => exact hb.fund hinv hopen hpos hpayer hfit
  | settle inv payer amount hinv hopen hpos hpayer hfull => exact hb.settle hinv hopen hpos hpayer hfull
  | donate inv donor amount hinv hpos hdonor => exact hb.donate hinv hpos hdonor
  | cancel inv hinv hopen => exact hb.cancel hinv hopen
  | giveBack inv payer hinv hstatus hpos => exact hb.giveBack hinv hstatus hpos

end Books

/-! ## The calls are moves -/

/-- The books are sound, and no invoice was created before the contract was set up. -/
structure Store.Sound (s : Store) : Prop where
  books : s.books.Sound
  counter : s.admin = none → s.counter = none

section Steps

variable {env : Ledger Memo} {s t : Store} {v : Unit} {c : Ledger Memo × CharityCall} {id : ℕ}
  {inv : CharityInvoice} {payer : Address}

/-- The payer, the invoice and the amount of a payment. -/
def CharityCall.payment : CharityCall → Option (Address × ℕ × ℤ)
  | .pay payer id amount => some (payer, id, amount)
  | _ => none

/-- Every call leaves the books alone or makes one move, and the payments are the moves of `pay`. -/
theorem charityStep_moves (hs : s.Sound) (hrun : charityStep c s = .ok (v, t)) :
    (c.2.payment = none ∧ t.books = s.books ∨ Books.Move c.2.payment s.books t.books) ∧ (t.admin = none → t.counter = none) := by
  obtain ⟨env, call⟩ := c
  cases call with
  | setUp admin =>
      have h : initializeContract admin s = .ok (v, t) := hrun
      rw [initializeContract, get_bind, require_bind, set_ok, Option.isNone_iff_eq_none] at h
      obtain ⟨hnone, rfl⟩ := h
      refine ⟨.inl ⟨rfl, ?_⟩, nofun⟩
      simp [Store.books, Store.invoiceCount, hs.counter hnone]
  | register admin charity name =>
      have h : registerCharity env admin charity name s = .ok (v, t) := hrun
      unfold registerCharity at h
      obtain ⟨_, u, hadmin, h⟩ := bind_ok.1 h
      obtain rfl := requireAdmin_frame hadmin
      rw [get_bind, require_bind] at h
      obtain rfl := modify_ok.1 h.2
      exact ⟨.inl ⟨rfl, rfl⟩, hs.counter⟩
  | setActive admin charity active =>
      have h : setCharityActive env admin charity active s = .ok (v, t) := hrun
      unfold setCharityActive loadCharity at h
      obtain ⟨_, u, hadmin, h⟩ := bind_ok.1 h
      obtain rfl := requireAdmin_frame hadmin
      rw [bind_assoc, get_bind, orError_bind] at h
      obtain ⟨record, -, h⟩ := h
      obtain rfl := modify_ok.1 h
      exact ⟨.inl ⟨rfl, rfl⟩, hs.counter⟩
  | create creator token recipients amounts charity bps =>
      obtain ⟨id, h⟩ := ignore_ok.1 hrun
      obtain ⟨hcounter, inv, rfl, hstatus, hfunded, hterms, rfl⟩ := createInvoice_ok h
      have hcount : s.books.count = inv.id := by simp [Store.books, Store.invoiceCount, hcounter]
      refine ⟨.inr ?_, fun hnone => ?_⟩
      · have hmove := Books.Move.create (b := s.books) inv hcount.symm hstatus hfunded hterms
        rw [hcount] at hmove
        exact hmove
      · rw [hs.counter hnone] at hcounter
        cases hcounter
  | pay payer id amount =>
      obtain ⟨n, h⟩ := ignore_ok.1 hrun
      obtain ⟨hpayer, hpos, inv, hinv, hopen, hfits, -⟩ := pay_ok h
      obtain ⟨rfl, hterms⟩ := (hs.books.account id).terms inv hinv
      by_cases hfull : inv.funded + amount = inv.total
      · obtain ⟨charities, rfl⟩ := pay_full h hinv hterms hfull
        exact ⟨.inr (Books.Move.settle (b := s.books) inv payer amount hinv hopen hpos hpayer hfull),
          hs.counter⟩
      · obtain rfl := pay_part h hinv hfull
        have hless := lt_of_le_of_ne hfits hfull
        exact ⟨.inr (Books.Move.fund (b := s.books) inv payer amount hinv hopen hpos hpayer hless),
          hs.counter⟩
  | donate donor id amount =>
      have h : donateExtra env donor id amount s = .ok (v, t) := hrun
      obtain ⟨hdonor, hpos, inv, hinv, donorTotals, rfl⟩ := donateExtra_ok h
      obtain ⟨rfl, -⟩ := (hs.books.account id).terms inv hinv
      exact ⟨.inr (Books.Move.donate (b := s.books) inv donor amount hinv hpos hdonor), hs.counter⟩
  | cancel creator id =>
      have h : cancelInvoice env creator id s = .ok (v, t) := hrun
      obtain ⟨inv, hinv, hopen, rfl⟩ := cancelInvoice_ok h
      obtain ⟨rfl, -⟩ := (hs.books.account id).terms inv hinv
      exact ⟨.inr (Books.Move.cancel (b := s.books) inv hinv hopen), hs.counter⟩
  | refund payer id =>
      obtain ⟨n, h⟩ := ignore_ok.1 hrun
      obtain ⟨-, inv, hinv, hstatus, hpos, rfl, -, rfl⟩ := claimRefund_ok.1 h
      obtain ⟨rfl, -⟩ := (hs.books.account id).terms inv hinv
      exact ⟨.inr (Books.Move.giveBack (b := s.books) inv payer hinv hstatus hpos), hs.counter⟩

theorem charityStep_sound (hs : s.Sound) (hrun : charityStep c s = .ok (v, t)) : t.Sound := by
  obtain ⟨⟨-, hsame⟩ | hmove, hcounter⟩ := charityStep_moves hs hrun
  · exact ⟨hsame ▸ hs.books, hcounter⟩
  · exact ⟨hmove.sound hs.books, hcounter⟩

theorem fresh_sound : ({} : Store).Sound := by
  refine ⟨⟨fun _ _ => rfl, fun id => ?_, fun tok => ?_, fun _ _ => rfl⟩, fun _ => rfl⟩
  · exact
      { absent := fun _ => ⟨rfl, nofun⟩, positive := nofun, terms := nofun, whileOpen := nofun,
        funded := nofun, byPayer := fun _ => rfl, once := fun _ => .inl rfl }
  · simp [Store.books, Store.invoiceCount]

theorem run_sound (calls : List (Ledger Memo × CharityCall)) : (runAll charityStep {} calls).Sound :=
  runAll_invariant (fun _ _ _ _ hs hrun => charityStep_sound hs hrun) fresh_sound calls

/-! ## The law -/

/-- What is owed for one invoice is within the balance. -/
theorem Store.Sound.funded_le_held (hs : s.Sound) (hinv : s.invoices id = some inv)
    (hstatus : inv.status ≠ .released) : inv.funded ≤ held s.log inv.token := by
  have hnonneg : ∀ j ∈ Finset.range s.invoiceCount, 0 ≤ s.books.owed inv.token j := by
    intro j _
    unfold Books.owed
    split
    · rename_i inv' hinv'
      split_ifs with howed
      · rw [(hs.books.account j).funded inv' hinv' howed.2]
        exact (s.contributions j).total_nonneg fun p hp => ((hs.books.account j).positive p hp).le
      · exact le_rfl
    · exact le_rfl
  have hone := Finset.single_le_sum hnonneg (Finset.mem_range.2 (hs.books.lt_count hinv))
  rw [Books.Sound.owed_some (b := s.books) hinv, if_pos ⟨rfl, hstatus⟩] at hone
  exact hone.trans (hs.books.backed inv.token)

theorem Store.Sound.reclaims (hs : s.Sound) (hinv : s.invoices id = some inv)
    (hstatus : inv.status = .cancelled) (payer : Address) : Reclaims s id payer := by
  have haccount := hs.books.account id
  have hby : (s.contributions id).value payer + givenBack s.log id payer = received s.log id payer :=
    haccount.byPayer payer
  rcases haccount.once payer with hnone | hfirst
  · refine .inr ⟨?_, fun env r hrun => ?_⟩
    · have hzero : (s.contributions id).value payer = 0 := hnone
      omega
    · obtain ⟨-, _, -, -, hpos, hvalue, -⟩ := claimRefund_ok.1 hrun
      rw [hvalue] at hpos
      exact hpos.ne' hnone
  · have hzero : givenBack s.log id payer = 0 := hfirst
    refine .inl ⟨hzero, fun env hpays hauth hpayer hpos => ?_⟩
    have hvalue : received s.log id payer = (s.contributions id).value payer := by omega
    have hle : received s.log id payer ≤ held s.log inv.token := by
      rw [hvalue]
      refine le_trans ?_ (hs.funded_le_held hinv (by simp [hstatus]))
      rw [haccount.funded inv hinv (by simp [hstatus])]
      exact (s.contributions id).value_le_total (fun p hp => (haccount.positive p hp).le) payer
    have haccepts := hpays s.log (refundTo inv payer (received s.log id payer) id) rfl hpos hle
    refine ⟨_, claimRefund_ok.2 ⟨⟨hauth, hpayer⟩, inv, hinv, hstatus, hpos, hvalue, haccepts, rfl⟩, ?_⟩
    have hout : givenBack (refundTo inv payer (received s.log id payer) id :: s.log) id payer =
        received s.log id payer := by
      unfold givenBack at hzero ⊢
      rw [tally_cons, hzero]
      simp [refundTo]
    have hin : received (refundTo inv payer (received s.log id payer) id :: s.log) id payer =
        received s.log id payer := by
      simp [received, refundTo]
    exact hout.trans hin.symm

theorem Store.Sound.conserved (hs : s.Sound) : Conserved s where
  solvent := hs.books.backed
  funded id inv hinv hstatus := (hs.books.account id).funded inv hinv hstatus
  recorded id _ payer _ _ := (hs.books.account id).byPayer payer
  reclaims _ _ payer hinv hstatus := hs.reclaims hinv hstatus payer
  donated := hs.books.donated

/-- An invoice that a move adds is open. -/
theorem Books.Move.creates {b b' : Books} {paid : Option (Address × ℕ × ℤ)} (hmove : Books.Move paid b b')
    (hnone : b.invoices id = none) (hinv : b'.invoices id = some inv) : inv.status = .opened := by
  have hold : ∀ inv₁ inv₂ : CharityInvoice, b.invoices inv₁.id = some inv₁ → inv₂.id = inv₁.id →
      (b.withInvoice inv₂).invoices id ≠ some inv := by
    intro inv₁ inv₂ hinv₁ hid h
    have hne : id ≠ inv₂.id := by
      rintro rfl
      rw [hid, hinv₁] at hnone
      cases hnone
    have hsame : (b.withInvoice inv₂).invoices id = b.invoices id := update_of_ne hne _ _
    rw [hsame, hnone] at h
    cases h
  cases hmove with
  | create inv₁ hid hopen _ _ =>
      by_cases hne : id = inv₁.id
      · subst hne
        have hself : (b.withInvoice inv₁).invoices inv₁.id = some inv₁ := update_self ..
        obtain rfl := Option.some.inj (hself.symm.trans hinv)
        exact hopen
      · have hsame : (b.withInvoice inv₁).invoices id = b.invoices id := update_of_ne hne _ _
        rw [hsame.symm.trans hinv] at hnone
        cases hnone
  | fund inv₁ payer amount hinv₁ _ _ _ _ => exact absurd hinv (hold inv₁ _ hinv₁ rfl)
  | settle inv₁ payer amount hinv₁ _ _ _ _ => exact absurd hinv (hold inv₁ _ hinv₁ rfl)
  | donate inv₁ donor amount _ _ _ =>
      rw [hnone] at hinv
      cases hinv
  | cancel inv₁ hinv₁ _ => exact absurd hinv (hold inv₁ _ hinv₁ rfl)
  | giveBack inv₁ payer hinv₁ _ _ => exact absurd hinv (hold inv₁ _ hinv₁ rfl)

/-- What a move does to an invoice that is not released. -/
theorem Books.Move.releases {b b' : Books} {paid : Option (Address × ℕ × ℤ)} (hmove : Books.Move paid b b')
    (hb : b.Sound) (hinv : b.invoices id = some inv) (hstatus : inv.status ≠ .released) :
    ∃ inv', b'.invoices id = some inv' ∧ (inv'.status = .released ↔
      ∃ payer amount, paid = some (payer, id, amount) ∧ inv.funded + amount = inv.total) := by
  have hother : ∀ inv', inv'.id ≠ id → (b.withInvoice inv').invoices id = some inv := by
    intro inv' hne
    exact (update_of_ne (Ne.symm hne) _ _).trans hinv
  have hself : ∀ inv', inv'.id = id → (b.withInvoice inv').invoices id = some inv' := by
    rintro inv' rfl
    exact update_self ..
  cases hmove with
  | create inv₁ hid hopen _ _ =>
      have hlt := hb.lt_count hinv
      exact ⟨inv, hother inv₁ (by omega), by simp [hstatus]⟩
  | fund inv₁ payer amount hinv₁ hopen hpos hpayer hfit =>
      by_cases hne : inv₁.id = id
      · subst hne
        obtain rfl := Option.some.inj (hinv.symm.trans hinv₁)
        refine ⟨_, hself _ rfl, ?_⟩
        simp only [hopen, reduceCtorEq, Option.some.injEq, Prod.mk.injEq, false_iff, not_exists, not_and]
        rintro _ _ ⟨-, -, rfl⟩
        exact hfit.ne
      · refine ⟨inv, hother _ hne, ?_⟩
        simp [hstatus, hne]
  | settle inv₁ payer amount hinv₁ hopen hpos hpayer hfull =>
      by_cases hne : inv₁.id = id
      · subst hne
        obtain rfl := Option.some.inj (hinv.symm.trans hinv₁)
        refine ⟨_, hself _ rfl, ?_⟩
        simp only [true_iff]
        exact ⟨payer, amount, rfl, hfull⟩
      · refine ⟨inv, hother _ hne, ?_⟩
        simp [hstatus, hne]
  | donate inv₁ donor amount hinv₁ hpos hdonor => exact ⟨inv, hinv, by simp [hstatus]⟩
  | cancel inv₁ hinv₁ hopen =>
      by_cases hne : inv₁.id = id
      · exact ⟨_, hself _ hne, by simp⟩
      · exact ⟨inv, hother _ hne, by simp [hstatus]⟩
  | giveBack inv₁ payer hinv₁ hcancelled hpos =>
      by_cases hne : inv₁.id = id
      · exact ⟨_, hself _ hne, by simp [hcancelled]⟩
      · exact ⟨inv, hother _ hne, by simp [hstatus]⟩

theorem CharityCall.payment_eq {call : CharityCall} {amount : ℤ} :
    call.payment = some (payer, id, amount) ↔ call = .pay payer id amount := by
  cases call <;> simp [CharityCall.payment]

theorem Store.Sound.settles (hs : s.Sound) (hrun : charityStep c s = .ok (v, t)) : Settles c.2 s t := by
  refine ⟨fun id inv hnone hinv => ?_, ?_, ?_⟩
  · obtain ⟨⟨-, hsame⟩ | hmove, -⟩ := charityStep_moves hs hrun
    · have hinvoices : t.invoices = s.invoices := congrArg Books.invoices hsame
      rw [hinvoices, hnone] at hinv
      cases hinv
    · exact hmove.creates hnone hinv
  · intro id inv hinv hstatus
    obtain ⟨⟨hnone, hsame⟩ | hmove, -⟩ := charityStep_moves hs hrun
    · have hinvoices : t.invoices = s.invoices := congrArg Books.invoices hsame
      refine ⟨inv, hinvoices ▸ hinv, ?_⟩
      simp [hstatus, ← CharityCall.payment_eq, hnone]
    · simp only [← CharityCall.payment_eq]
      exact hmove.releases hs.books hinv hstatus
  · intro payer id amount inv hcall hinv hfull
    obtain ⟨env, call⟩ := c
    obtain rfl : call = .pay payer id amount := hcall
    obtain ⟨n, h⟩ := ignore_ok.1 hrun
    obtain ⟨rfl, hterms⟩ := (hs.books.account id).terms inv hinv
    obtain ⟨charities, rfl⟩ := pay_full h hinv hterms hfull
    refine ⟨rfl, Books.netAmounts_add_share hterms, ?_⟩
    rw [Books.length_netAmounts, hterms.length]

end Steps

/-- Whatever the calls, money is conserved in the state they lead to, and the next call releases an
invoice only if it completes the funding. -/
theorem charity_split_conserves (calls : List (Ledger Memo × CharityCall)) :
    Conserved (runAll charityStep {} calls) ∧
      ∀ c t, charityStep c (runAll charityStep {} calls) = .ok ((), t) →
        Settles c.2 (runAll charityStep {} calls) t :=
  ⟨(run_sound calls).conserved, fun _ _ hrun => (run_sound calls).settles hrun⟩

end StellarSplit.CharitySplit
