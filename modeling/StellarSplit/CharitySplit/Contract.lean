import Mathlib.Logic.Function.Basic
import StellarSplit.Lib.KeyMap
import StellarSplit.Lib.Runs
import StellarSplit.Host

/-!
# The charity split

Invoices that give a share of every payout to a charity. The entry points of the
contract in the order of their checks, and for each what it does when it returns.
-/

namespace StellarSplit.CharitySplit

open Exec Function Machine

/-! ## Data -/

inductive Error where
  | alreadyInitialized | notInitialized | notAdmin | charityAlreadyRegistered | charityNotFound
  | charityInactive | invalidDonationBps | invalidRecipients | invalidAmount | totalMismatch
  | invoiceNotFound | invoiceNotOpen | overFunded | notCreator | notCancelled | nothingToRefund
  | charityIsRecipient | overflow
deriving DecidableEq, Repr

structure Charity where
  address : Address
  name : String
  active : Bool
  registeredAt : ℕ
  donationCount : ℕ
deriving DecidableEq, Repr

inductive CharityInvoiceStatus where
  | opened | released | cancelled
deriving DecidableEq, Repr

structure CharityInvoice where
  id : ℕ
  creator : Address
  token : Address
  total : ℤ
  funded : ℤ
  recipients : List Address
  amounts : List ℤ
  charity : Address
  donationBps : ℕ
  donated : ℤ
  status : CharityInvoiceStatus
  createdAt : ℕ
deriving DecidableEq, Repr

structure DonationSplit where
  payouts : List ℤ
  donation : ℤ
deriving DecidableEq, Repr

/-- What a token movement was for. -/
inductive Memo where
  | payment (id : ℕ)
  | payout (id : ℕ)
  | donation (id : ℕ)
  | extra (id : ℕ)
  | refund (id : ℕ)
deriving DecidableEq, Repr

/-- The contract's storage, with the log of accepted token movements. An absent total is zero. -/
structure Store where
  admin : Option Address := none
  counter : Option ℕ := none
  charities : Address → Option Charity := fun _ => none
  invoices : ℕ → Option CharityInvoice := fun _ => none
  contributions : ℕ → KeyMap ℤ := fun _ => .empty
  charityTotals : Address → Address → ℤ := fun _ _ => 0
  donorTotals : Address → Address → ℤ := fun _ _ => 0
  log : List (Transfer Memo) := []

abbrev CharityM (α : Type) := Call Store (Fault Error) α

def minDonationBps : ℕ := 1

def maxDonationBps : ℕ := 5000

def maxRecipients : ℕ := 20

/-! ## Internal helpers -/

def requireAdmin (env : Ledger Memo) (admin : Address) : CharityM Unit := do
  let s ← get
  let stored ← orError s.admin .notInitialized
  require (stored = admin) (.error .notAdmin)
  requireAuth env admin

def loadCharity (charity : Address) : CharityM Charity := do
  let s ← get
  orError (s.charities charity) .charityNotFound

def saveCharity (charity : Address) (record : Charity) : CharityM Unit :=
  modify fun s => { s with charities := update s.charities charity (some record) }

def loadInvoice (id : ℕ) : CharityM CharityInvoice := do
  let s ← get
  orError (s.invoices id) .invoiceNotFound

def saveInvoice (inv : CharityInvoice) : CharityM Unit :=
  modify fun s => { s with invoices := update s.invoices inv.id (some inv) }

/-- Add to a stored total, given how it is read and written. -/
def addToTotal (read : Store → ℤ) (write : ℤ → Store → Store) (amount : ℤ) : CharityM Unit := do
  let s ← get
  let next ← orError (checkedAddI128 (read s) amount) .overflow
  set (write next s)

/-- A token transfer; it traps when the token contract refuses. -/
def transfer (env : Ledger Memo) (m : Transfer Memo) : CharityM Unit := do
  let s ← get
  require (env.accepts s.log m = true) .tokenRefused
  set { s with log := m :: s.log }

namespace Store

def getContribution (s : Store) (id : ℕ) (payer : Address) : ℤ := (s.contributions id).value payer

def getCharityTotal (s : Store) (charity token : Address) : ℤ := s.charityTotals charity token

def getDonorTotal (s : Store) (donor token : Address) : ℤ := s.donorTotals donor token

def setContribution (id : ℕ) (payer : Address) (amount : ℤ) (s : Store) : Store :=
  { s with contributions := update s.contributions id ((s.contributions id).set payer amount) }

def setCharityTotal (charity token : Address) (amount : ℤ) (s : Store) : Store :=
  { s with
    charityTotals := update s.charityTotals charity (update (s.charityTotals charity) token amount) }

def setDonorTotal (donor token : Address) (amount : ℤ) (s : Store) : Store :=
  { s with donorTotals := update s.donorTotals donor (update (s.donorTotals donor) token amount) }

end Store

/-- One round of the split: the payouts and their sum so far. The part cut off is at most the
amount, so the subtraction stays in range. -/
def splitOne (donationBps : ℕ) (p : List ℤ × ℤ) (amount : ℤ) : Except (Fault Error) (List ℤ × ℤ) :=
  match checkedMulI128 amount donationBps with
  | none => .error (.error .overflow)
  | some scaled =>
      let net := amount - scaled.tdiv 10000
      match checkedAddI128 p.2 net with
      | none => .error (.error .overflow)
      | some paidOut => .ok (p.1 ++ [net], paidOut)

def computeSplit (inv : CharityInvoice) : Except (Fault Error) DonationSplit := do
  let (payouts, paidOut) ← inv.amounts.foldlM (splitOne inv.donationBps) ([], 0)
  pure { payouts := payouts, donation := inv.total - paidOut }

def payoutTo (inv : CharityInvoice) (recipient : Address) (payout : ℤ) : Transfer Memo :=
  ⟨inv.token, currentContract, recipient, payout, .payout inv.id⟩

def donationOf (inv : CharityInvoice) (donation : ℤ) : Transfer Memo :=
  ⟨inv.token, currentContract, inv.charity, donation, .donation inv.id⟩

def release (env : Ledger Memo) (inv : CharityInvoice) : CharityM CharityInvoice := do
  let split ← ofResult (computeSplit inv)
  forM (inv.recipients.zip split.payouts) fun (recipient, payout) =>
    onlyIf (0 < payout) (transfer env (payoutTo inv recipient payout))
  onlyIf (0 < split.donation) do
    transfer env (donationOf inv split.donation)
    addToTotal (·.getCharityTotal inv.charity inv.token) (Store.setCharityTotal inv.charity inv.token)
      split.donation
  let charity ← loadCharity inv.charity
  saveCharity inv.charity { charity with donationCount := satAddU32 charity.donationCount 1 }
  pure { inv with donated := split.donation, status := .released }

/-! ## Entry points -/

def initializeContract (admin : Address) : CharityM Unit := do
  let s ← get
  require (s.admin.isNone = true) (.error .alreadyInitialized)
  set { s with admin := some admin, counter := some 0 }

def registerCharity (env : Ledger Memo) (admin charity : Address) (name : String) : CharityM Unit := do
  requireAdmin env admin
  let s ← get
  require ((s.charities charity).isNone = true) (.error .charityAlreadyRegistered)
  saveCharity charity
    { address := charity, name := name, active := true, registeredAt := env.now, donationCount := 0 }

def setCharityActive (env : Ledger Memo) (admin charity : Address) (active : Bool) : CharityM Unit := do
  requireAdmin env admin
  let record ← loadCharity charity
  saveCharity charity { record with active := active }

/-- The sum of the amounts, each of them positive. -/
def sumAmounts (amounts : List ℤ) : Except (Fault Error) ℤ :=
  amounts.foldlM (fun total amount =>
    if amount ≤ 0 then .error (.error .invalidAmount)
    else
      match checkedAddI128 total amount with
      | none => .error (.error .overflow)
      | some next => .ok next) 0

def createInvoice (env : Ledger Memo) (creator token : Address) (recipients : List Address)
    (amounts : List ℤ) (charity : Address) (donationBps : ℕ) : CharityM ℕ := do
  requireAuth env creator
  require (minDonationBps ≤ donationBps ∧ donationBps ≤ maxDonationBps) (.error .invalidDonationBps)
  require (recipients ≠ [] ∧ recipients.length = amounts.length ∧ recipients.length ≤ maxRecipients)
    (.error .invalidRecipients)
  require (charity ∉ recipients) (.error .charityIsRecipient)
  let record ← loadCharity charity
  require (record.active = true) (.error .charityInactive)
  let total ← ofResult (sumAmounts amounts)
  let s ← get
  let id ← orError s.counter .notInitialized
  let next ← orError (checkedAddU64 id 1) .overflow
  set { s with counter := some next }
  saveInvoice
    { id := id, creator := creator, token := token, total := total, funded := 0,
      recipients := recipients, amounts := amounts, charity := charity, donationBps := donationBps,
      donated := 0, status := .opened, createdAt := env.now }
  pure id

def paymentOf (inv : CharityInvoice) (payer : Address) (amount : ℤ) (invoiceId : ℕ) : Transfer Memo :=
  ⟨inv.token, payer, currentContract, amount, .payment invoiceId⟩

def pay (env : Ledger Memo) (payer : Address) (invoiceId : ℕ) (amount : ℤ) : CharityM ℤ := do
  requireAuth env payer
  require (0 < amount) (.error .invalidAmount)
  let inv ← loadInvoice invoiceId
  require (inv.status = .opened) (.error .invoiceNotOpen)
  let funded ← orError (checkedAddI128 inv.funded amount) .overflow
  require (funded ≤ inv.total) (.error .overFunded)
  transfer env (paymentOf inv payer amount invoiceId)
  addToTotal (·.getContribution invoiceId payer) (Store.setContribution invoiceId payer) amount
  let inv ←
    (if funded = inv.total then release env { inv with funded := funded }
      else pure { inv with funded := funded } : CharityM CharityInvoice)
  saveInvoice inv
  pure funded

def donateExtra (env : Ledger Memo) (donor : Address) (invoiceId : ℕ) (amount : ℤ) : CharityM Unit := do
  requireAuth env donor
  require (0 < amount) (.error .invalidAmount)
  let inv ← loadInvoice invoiceId
  require (inv.status ≠ .cancelled) (.error .invoiceNotOpen)
  transfer env ⟨inv.token, donor, inv.charity, amount, .extra invoiceId⟩
  addToTotal (·.getCharityTotal inv.charity inv.token) (Store.setCharityTotal inv.charity inv.token) amount
  addToTotal (·.getDonorTotal donor inv.token) (Store.setDonorTotal donor inv.token) amount

def cancelInvoice (env : Ledger Memo) (creator : Address) (invoiceId : ℕ) : CharityM Unit := do
  requireAuth env creator
  let inv ← loadInvoice invoiceId
  require (inv.creator = creator) (.error .notCreator)
  require (inv.status = .opened) (.error .invoiceNotOpen)
  saveInvoice { inv with status := .cancelled }

def refundTo (inv : CharityInvoice) (payer : Address) (amount : ℤ) (invoiceId : ℕ) : Transfer Memo :=
  ⟨inv.token, currentContract, payer, amount, .refund invoiceId⟩

def claimRefund (env : Ledger Memo) (payer : Address) (invoiceId : ℕ) : CharityM ℤ := do
  requireAuth env payer
  let inv ← loadInvoice invoiceId
  require (inv.status = .cancelled) (.error .notCancelled)
  let s ← get
  let amount := s.getContribution invoiceId payer
  require (0 < amount) (.error .nothingToRefund)
  set { s with
    contributions := update s.contributions invoiceId ((s.contributions invoiceId).erase payer) }
  saveInvoice { inv with funded := inv.funded - amount }
  transfer env (refundTo inv payer amount invoiceId)
  pure amount

/-! ## The split of an invoice -/

namespace CharityInvoice

/-- The part of an amount that is donated, rounded down. -/
def cut (inv : CharityInvoice) (amount : ℤ) : ℤ := amount * inv.donationBps / 10000

def netAmounts (inv : CharityInvoice) : List ℤ := inv.amounts.map fun amount => amount - inv.cut amount

/-- The sum of the parts cut off. -/
def share (inv : CharityInvoice) : ℤ := (inv.amounts.map inv.cut).sum

/-- The movements of a release, in their order. -/
def payouts (inv : CharityInvoice) : List (Transfer Memo) :=
  (inv.recipients.zip inv.netAmounts).map (fun p => payoutTo inv p.1 p.2) ++
    if 0 < inv.share then [donationOf inv inv.share] else []

/-- What `createInvoice` has checked. -/
structure Terms (inv : CharityInvoice) : Prop where
  length : inv.recipients.length = inv.amounts.length
  positive : ∀ amount ∈ inv.amounts, 0 < amount
  total : inv.amounts.sum = inv.total
  donationBps : inv.donationBps ≤ maxDonationBps
  nonempty : 0 < inv.total

variable {inv : CharityInvoice} {amount : ℤ}

theorem Terms.cut_bounds (h : inv.Terms) (hpos : 0 < amount) : 0 ≤ inv.cut amount ∧ inv.cut amount < amount := by
  have hbps : (inv.donationBps : ℤ) ≤ 5000 := by exact_mod_cast h.donationBps
  have hscaled : amount * inv.donationBps ≤ amount * 5000 := by gcongr
  constructor
  · exact Int.ediv_nonneg (by positivity) (by norm_num)
  · unfold cut
    omega

theorem sum_netAmounts (inv : CharityInvoice) : inv.netAmounts.sum = inv.amounts.sum - inv.share := by
  unfold netAmounts share
  induction inv.amounts with
  | nil => rfl
  | cons a l ih =>
      simp only [List.map_cons, List.sum_cons, ih]
      ring

end CharityInvoice

/-! ## What the calls do -/

section Calls

variable {env : Ledger Memo} {s t : Store} {v : Unit} {id : ℕ} {inv inv' : CharityInvoice} {amount n : ℤ}
  {admin charity token payer : Address}

theorem loadInvoice_bind {β : Type} {k : CharityInvoice → CharityM β} {r : β × Store} :
    (loadInvoice id >>= k) s = .ok r ↔ ∃ inv, s.invoices id = some inv ∧ k inv s = .ok r := by
  simp only [loadInvoice, bind_assoc, get_bind, orError_bind]

@[simp] theorem saveInvoice_ok :
    saveInvoice inv s = .ok (v, t) ↔ { s with invoices := update s.invoices inv.id (some inv) } = t := by
  simp [saveInvoice]

@[simp] theorem transfer_ok {m : Transfer Memo} :
    transfer env m s = .ok (v, t) ↔ env.accepts s.log m = true ∧ { s with log := m :: s.log } = t := by
  simp [transfer]

theorem addToTotal_ok {read : Store → ℤ} {write : ℤ → Store → Store} :
    addToTotal read write amount s = .ok (v, t) ↔
      InI128 (read s + amount) ∧ write (read s + amount) s = t := by
  unfold addToTotal checkedAddI128
  rw [get_bind, orError_bind]
  split_ifs with hfits <;> simp [hfits]

theorem requireAdmin_frame (hrun : requireAdmin env admin s = .ok (v, t)) : s = t := by
  unfold requireAdmin at hrun
  simp only [get_bind, orError_bind, require_bind, requireAuth_ok] at hrun
  obtain ⟨_, -, -, -, hsame⟩ := hrun
  exact hsame

theorem splitOne_ok (hpos : 0 < amount) {p q : List ℤ × ℤ}
    (hrun : splitOne inv.donationBps p amount = .ok q) :
    q = (p.1 ++ [amount - inv.cut amount], p.2 + (amount - inv.cut amount)) := by
  unfold splitOne at hrun
  split at hrun
  · cases hrun
  · rename_i scaled hscaled
    obtain rfl := checkedMulI128_eq hscaled
    have hcut : (amount * inv.donationBps).tdiv 10000 = inv.cut amount :=
      Int.tdiv_eq_ediv_of_nonneg (by positivity)
    dsimp only at hrun
    rw [hcut] at hrun
    split at hrun
    · cases hrun
    · rename_i paidOut hpaid
      rw [← checkedAddI128_eq hpaid]
      exact (Except.ok.inj hrun).symm

theorem splitFold_ok {l : List ℤ} (hl : ∀ amount ∈ l, 0 < amount) {p q : List ℤ × ℤ}
    (hrun : l.foldlM (splitOne inv.donationBps) p = .ok q) :
    q = (p.1 ++ l.map (fun amount => amount - inv.cut amount),
      p.2 + (l.map fun amount => amount - inv.cut amount).sum) := by
  induction l generalizing p with
  | nil =>
      cases hrun
      simp
  | cons a l ih =>
      rw [List.foldlM_cons] at hrun
      obtain ⟨p', hfirst, hrest⟩ := except_bind_ok.1 hrun
      obtain rfl := splitOne_ok (hl a (by simp)) hfirst
      rw [ih (fun amount hamount => hl amount (List.mem_cons_of_mem a hamount)) hrest]
      simp [add_assoc]

/-- The split of an invoice with checked terms: the parts cut off go to the charity. -/
theorem computeSplit_ok (hterms : inv.Terms) {split : DonationSplit} (hrun : computeSplit inv = .ok split) :
    split = { payouts := inv.netAmounts, donation := inv.share } := by
  unfold computeSplit at hrun
  obtain ⟨q, hfold, hpure⟩ := except_bind_ok.1 hrun
  obtain rfl := splitFold_ok hterms.positive hfold
  have hdonation : inv.total - inv.netAmounts.sum = inv.share := by
    rw [inv.sum_netAmounts, hterms.total]
    ring
  rw [← Except.ok.inj hpure, ← hdonation]
  simp [CharityInvoice.netAmounts]

theorem payEach_ok {l : List (Address × ℤ)} (hl : ∀ p ∈ l, 0 < p.2)
    (hrun : (forM l fun (recipient, payout) =>
      onlyIf (0 < payout) (transfer env (payoutTo inv recipient payout)) : CharityM PUnit) s = .ok (v, t)) :
    t = { s with log := (l.map fun p => payoutTo inv p.1 p.2).reverse ++ s.log } := by
  induction l generalizing s with
  | nil => exact (pure_ok.1 hrun).2.symm
  | cons p l ih =>
      rw [List.forM_cons] at hrun
      obtain ⟨_, u, hfirst, hrest⟩ := bind_ok.1 hrun
      rcases onlyIf_ok.1 hfirst with ⟨-, hpaid⟩ | ⟨hzero, -⟩
      · obtain ⟨-, rfl⟩ := transfer_ok.1 hpaid
        rw [ih (fun q hq => hl q (List.mem_cons_of_mem p hq)) hrest]
        simp
      · exact absurd (hl p (by simp)) hzero

/-- The totals after a release. -/
def CharityInvoice.credit (inv : CharityInvoice) (totals : Address → Address → ℤ) : Address → Address → ℤ :=
  update totals inv.charity
    (update (totals inv.charity) inv.token (totals inv.charity inv.token + inv.share))

theorem CharityInvoice.credit_zero (h : inv.share = 0) (totals : Address → Address → ℤ) :
    inv.credit totals = totals := by
  unfold CharityInvoice.credit
  simp [h]

theorem release_ok (hterms : inv.Terms) (hrun : release env inv s = .ok (inv', t)) :
    inv' = { inv with donated := inv.share, status := .released } ∧
      ∃ charities, t = { s with
        log := inv.payouts.reverse ++ s.log
        charityTotals := inv.credit s.charityTotals
        charities := charities } := by
  simp only [release, ofResult_bind] at hrun
  obtain ⟨split, hsplit, hrun⟩ := hrun
  obtain rfl := computeSplit_ok hterms hsplit
  obtain ⟨_, u, hpay, hrun⟩ := bind_ok.1 hrun
  have hnets : ∀ p ∈ inv.recipients.zip inv.netAmounts, 0 < p.2 := by
    rintro ⟨recipient, net⟩ hp
    obtain ⟨amount, hamount, rfl⟩ := List.mem_map.1 (List.of_mem_zip hp).2
    have := (hterms.cut_bounds (hterms.positive amount hamount)).2
    dsimp only
    omega
  obtain rfl := payEach_ok hnets hpay
  have hshare : 0 ≤ inv.share := by
    refine List.sum_nonneg fun x hx => ?_
    obtain ⟨amount, hamount, rfl⟩ := List.mem_map.1 hx
    exact (hterms.cut_bounds (hterms.positive amount hamount)).1
  obtain ⟨_, w, hdonate, hrun⟩ := bind_ok.1 hrun
  simp only [loadCharity, bind_assoc, get_bind, orError_bind] at hrun
  obtain ⟨record, -, hrun⟩ := hrun
  obtain ⟨_, _, hcount, hrun⟩ := bind_ok.1 hrun
  obtain rfl := modify_ok.1 hcount
  obtain ⟨rfl, rfl⟩ := pure_ok.1 hrun
  refine ⟨rfl, update w.charities inv.charity
    (some { record with donationCount := satAddU32 record.donationCount 1 }), ?_⟩
  rcases onlyIf_ok.1 hdonate with ⟨hpos, hsend⟩ | ⟨hzero, rfl⟩
  · obtain ⟨_, w', hmove, htotal⟩ := bind_ok.1 hsend
    obtain ⟨-, rfl⟩ := transfer_ok.1 hmove
    obtain ⟨-, rfl⟩ := addToTotal_ok.1 htotal
    simp [CharityInvoice.payouts, hpos, Store.setCharityTotal, Store.getCharityTotal,
      CharityInvoice.credit]
  · have hnone : inv.share = 0 := le_antisymm (not_lt.1 hzero) hshare
    simp [CharityInvoice.payouts, hnone, CharityInvoice.credit_zero hnone]

/-- The payment is taken and recorded. -/
def Store.take (s : Store) (inv : CharityInvoice) (payer : Address) (id : ℕ) (amount : ℤ) : Store :=
  { s with
    contributions := update s.contributions id
      ((s.contributions id).set payer ((s.contributions id).value payer + amount))
    log := paymentOf inv payer amount id :: s.log }

theorem pay_ok (hrun : pay env payer id amount s = .ok (n, t)) :
    payer ≠ currentContract ∧ 0 < amount ∧ ∃ inv, s.invoices id = some inv ∧ inv.status = .opened ∧
      inv.funded + amount ≤ inv.total ∧
      ∃ inv' u, (if inv.funded + amount = inv.total
          then release env { inv with funded := inv.funded + amount }
          else pure { inv with funded := inv.funded + amount } : CharityM CharityInvoice)
            (s.take inv payer id amount) = .ok (inv', u) ∧
        t = { u with invoices := update u.invoices inv'.id (some inv') } := by
  simp only [pay, requireAuth_bind, require_bind, loadInvoice_bind, orError_bind] at hrun
  obtain ⟨⟨-, hpayer⟩, hpos, inv, hinv, hopen, funded, hfunded, hfits, hrun⟩ := hrun
  obtain rfl := checkedAddI128_eq hfunded
  obtain ⟨_, u, hmove, hrun⟩ := bind_ok.1 hrun
  obtain ⟨-, rfl⟩ := transfer_ok.1 hmove
  obtain ⟨_, w, htotal, hrun⟩ := bind_ok.1 hrun
  obtain ⟨-, rfl⟩ := addToTotal_ok.1 htotal
  obtain ⟨inv', w, hsettle, hrun⟩ := bind_ok.1 hrun
  obtain ⟨_, _, hsave, hrun⟩ := bind_ok.1 hrun
  obtain rfl := saveInvoice_ok.1 hsave
  exact ⟨hpayer, hpos, inv, hinv, hopen, hfits, inv', w, hsettle, (pure_ok.1 hrun).2.symm⟩

/-- A payment that leaves something open. -/
theorem pay_part (hrun : pay env payer id amount s = .ok (n, t)) (hinv : s.invoices id = some inv)
    (hpart : inv.funded + amount ≠ inv.total) :
    t = { s.take inv payer id amount with
      invoices := update s.invoices inv.id (some { inv with funded := inv.funded + amount }) } := by
  obtain ⟨-, -, inv₁, hinv₁, -, -, inv', u, hsettle, rfl⟩ := pay_ok hrun
  obtain rfl := Option.some.inj (hinv.symm.trans hinv₁)
  rw [if_neg hpart] at hsettle
  obtain ⟨rfl, rfl⟩ := pure_ok.1 hsettle
  rfl

/-- The payment that completes the funding also releases the invoice. -/
theorem pay_full (hrun : pay env payer id amount s = .ok (n, t)) (hinv : s.invoices id = some inv)
    (hterms : inv.Terms) (hfull : inv.funded + amount = inv.total) :
    ∃ charities, t = { s.take inv payer id amount with
      invoices := update s.invoices inv.id
        (some { inv with funded := inv.total, donated := inv.share, status := .released })
      log := inv.payouts.reverse ++ paymentOf inv payer amount id :: s.log
      charityTotals := inv.credit s.charityTotals
      charities := charities } := by
  obtain ⟨-, -, inv₁, hinv₁, -, -, inv', u, hsettle, rfl⟩ := pay_ok hrun
  obtain rfl := Option.some.inj (hinv.symm.trans hinv₁)
  rw [if_pos hfull] at hsettle
  have hfunded : CharityInvoice.Terms { inv with funded := inv.funded + amount } :=
    ⟨hterms.length, hterms.positive, hterms.total, hterms.donationBps, hterms.nonempty⟩
  obtain ⟨rfl, charities, rfl⟩ := release_ok hfunded hsettle
  refine ⟨charities, ?_⟩
  rw [← hfull]
  rfl

theorem sumAmounts_ok {amounts : List ℤ} {total : ℤ} (hrun : sumAmounts amounts = .ok total) :
    (∀ amount ∈ amounts, 0 < amount) ∧ amounts.sum = total := by
  have hfold : ∀ (l : List ℤ) (start total : ℤ),
      l.foldlM (fun total amount =>
        if amount ≤ 0 then (.error (.error .invalidAmount) : Except (Fault Error) ℤ)
        else
          match checkedAddI128 total amount with
          | none => .error (.error .overflow)
          | some next => .ok next) start = .ok total →
      (∀ amount ∈ l, 0 < amount) ∧ start + l.sum = total := by
    intro l
    induction l with
    | nil =>
        intro start total h
        cases h
        simp
    | cons a l ih =>
        intro start total h
        rw [List.foldlM_cons] at h
        obtain ⟨next, hfirst, hrest⟩ := except_bind_ok.1 h
        split_ifs at hfirst with hle
        split at hfirst
        · cases hfirst
        · rename_i next' hnext
          obtain rfl := Except.ok.inj hfirst
          obtain rfl := checkedAddI128_eq hnext
          obtain ⟨hl, hsum⟩ := ih _ _ hrest
          exact ⟨List.forall_mem_cons.2 ⟨not_le.1 hle, hl⟩, by rw [List.sum_cons, ← hsum]; ring⟩
  simpa using hfold amounts 0 total hrun

theorem createInvoice_ok {creator : Address} {recipients : List Address} {amounts : List ℤ} {bps : ℕ}
    (hrun : createInvoice env creator token recipients amounts charity bps s = .ok (id, t)) :
    s.counter = some id ∧ ∃ inv, inv.id = id ∧ inv.status = .opened ∧ inv.funded = 0 ∧ inv.Terms ∧
      t = { s with counter := some (id + 1), invoices := update s.invoices id (some inv) } := by
  simp only [createInvoice, requireAuth_bind, require_bind, loadCharity, bind_assoc, get_bind,
    orError_bind, ofResult_bind] at hrun
  obtain ⟨-, ⟨-, hbps⟩, ⟨hnonempty, hlength, -⟩, -, record, -, -, total, htotal, id', hcounter, next, hnext,
    hrun⟩ := hrun
  obtain rfl := checkedAddU64_eq hnext
  obtain ⟨_, _, hcount, hrun⟩ := bind_ok.1 hrun
  obtain rfl := set_ok.1 hcount
  obtain ⟨_, _, hsave, hrun⟩ := bind_ok.1 hrun
  obtain rfl := saveInvoice_ok.1 hsave
  obtain ⟨rfl, rfl⟩ := pure_ok.1 hrun
  obtain ⟨hpositive, hsum⟩ := sumAmounts_ok htotal
  refine ⟨hcounter, _, rfl, rfl, rfl, ⟨hlength, hpositive, hsum, hbps, ?_⟩, rfl⟩
  change 0 < total
  rw [← hsum]
  cases amounts with
  | nil => exact absurd (List.length_eq_zero_iff.1 hlength) hnonempty
  | cons a l =>
      have hrest : 0 ≤ l.sum := List.sum_nonneg fun x hx => (hpositive x (by simp [hx])).le
      have hfirst := hpositive a (by simp)
      rw [List.sum_cons]
      omega

theorem donateExtra_ok {donor : Address} (hrun : donateExtra env donor id amount s = .ok (v, t)) :
    donor ≠ currentContract ∧ 0 < amount ∧ ∃ inv, s.invoices id = some inv ∧ ∃ donorTotals,
      t = { s with
        log := ⟨inv.token, donor, inv.charity, amount, .extra id⟩ :: s.log
        charityTotals := update s.charityTotals inv.charity (update (s.charityTotals inv.charity) inv.token
          (s.charityTotals inv.charity inv.token + amount))
        donorTotals := donorTotals } := by
  simp only [donateExtra, requireAuth_bind, require_bind, loadInvoice_bind] at hrun
  obtain ⟨⟨-, hdonor⟩, hpos, inv, hinv, -, hrun⟩ := hrun
  obtain ⟨_, _, hmove, hrun⟩ := bind_ok.1 hrun
  obtain ⟨-, rfl⟩ := transfer_ok.1 hmove
  obtain ⟨_, _, htotal, hrun⟩ := bind_ok.1 hrun
  obtain ⟨-, rfl⟩ := addToTotal_ok.1 htotal
  obtain ⟨-, rfl⟩ := addToTotal_ok.1 hrun
  exact ⟨hdonor, hpos, inv, hinv, _, rfl⟩

theorem cancelInvoice_ok {creator : Address} (hrun : cancelInvoice env creator id s = .ok (v, t)) :
    ∃ inv, s.invoices id = some inv ∧ inv.status = .opened ∧
      t = { s with invoices := update s.invoices inv.id (some { inv with status := .cancelled }) } := by
  simp only [cancelInvoice, requireAuth_bind, require_bind, loadInvoice_bind, saveInvoice_ok] at hrun
  obtain ⟨-, inv, hinv, -, hopen, rfl⟩ := hrun
  exact ⟨inv, hinv, hopen, rfl⟩

theorem claimRefund_ok :
    claimRefund env payer id s = .ok (n, t) ↔
      (env.auth payer = true ∧ payer ≠ currentContract) ∧ ∃ inv, s.invoices id = some inv ∧
        inv.status = .cancelled ∧ 0 < n ∧ n = (s.contributions id).value payer ∧
        env.accepts s.log (refundTo inv payer n id) = true ∧
        t = { s with
          contributions := update s.contributions id ((s.contributions id).erase payer)
          invoices := update s.invoices inv.id (some { inv with funded := inv.funded - n })
          log := refundTo inv payer n id :: s.log } := by
  simp only [claimRefund, requireAuth_bind, require_bind, loadInvoice_bind, get_bind]
  refine and_congr_right fun _ => exists_congr fun inv => and_congr_right fun _ => and_congr_right fun _ => ?_
  simp only [bind_ok, set_ok, saveInvoice_ok, transfer_ok, pure_ok, Store.getContribution]
  constructor
  · rintro ⟨hpos, _, _, rfl, _, _, rfl, _, _, ⟨haccepts, rfl⟩, rfl, rfl⟩
    exact ⟨hpos, rfl, haccepts, rfl⟩
  · rintro ⟨hpos, rfl, haccepts, rfl⟩
    exact ⟨hpos, (), _, rfl, (), _, rfl, (), _, ⟨haccepts, rfl⟩, rfl, rfl⟩

end Calls

/-! ## Runs -/

inductive CharityCall where
  | setUp (admin : Address)
  | register (admin charity : Address) (name : String)
  | setActive (admin charity : Address) (active : Bool)
  | create (creator token : Address) (recipients : List Address) (amounts : List ℤ)
      (charity : Address) (donationBps : ℕ)
  | pay (payer : Address) (invoiceId : ℕ) (amount : ℤ)
  | donate (donor : Address) (invoiceId : ℕ) (amount : ℤ)
  | cancel (creator : Address) (invoiceId : ℕ)
  | refund (payer : Address) (invoiceId : ℕ)
deriving DecidableEq

def charityStep (c : Ledger Memo × CharityCall) : CharityM Unit :=
  match c.2 with
  | .setUp admin => initializeContract admin
  | .register admin charity name => registerCharity c.1 admin charity name
  | .setActive admin charity active => setCharityActive c.1 admin charity active
  | .create creator token recipients amounts charity donationBps =>
      ignore (createInvoice c.1 creator token recipients amounts charity donationBps)
  | .pay payer invoiceId amount => ignore (pay c.1 payer invoiceId amount)
  | .donate donor invoiceId amount => donateExtra c.1 donor invoiceId amount
  | .cancel creator invoiceId => cancelInvoice c.1 creator invoiceId
  | .refund payer invoiceId => ignore (claimRefund c.1 payer invoiceId)

end StellarSplit.CharitySplit
