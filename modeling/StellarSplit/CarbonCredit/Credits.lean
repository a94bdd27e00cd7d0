import StellarSplit.Lib.KeyMap
import StellarSplit.Lib.Runs
import StellarSplit.Host
import StellarSplit.Split.Strkey

/-!
# Carbon credits

An administrator records the credits of an invoice; linking the invoice to a wallet is to add its credits
to the balance of the wallet, and the wallet redeems them. The storage keys are symbols made from text, and
a symbol has at most 32 characters. The key of a wallet is seven characters and the 56 letters of its
address, so every call that touches a wallet traps: no balance is ever written, however often an invoice is
linked and whatever amount is redeemed.
-/

namespace StellarSplit.CarbonCredit

open Exec Machine Split

/-! ## The contract -/

structure CarbonRecord where
  invoiceId : Symbol
  credits : ℤ
  source : Symbol
  timestamp : ℕ
  verified : Bool
deriving DecidableEq, Repr

inductive Error where
  | notFound | insufficientFunds | unauthorized | invalidAmount
deriving DecidableEq, Repr

/-- The host knows the text of a symbol, and of an address whether it is a contract and its 32 bytes. -/
structure Env extends Ledger Unit where
  symbolText : Symbol → List UInt8
  isContract : Address → Bool
  payload : Address → Strkey.Payload

def Env.addressText (env : Env) (a : Address) : List UInt8 :=
  Strkey.encodeStrkey (if env.isContract a then Strkey.versionContract else Strkey.versionAccount) (env.payload a)

structure Store where
  admin : Option Address := none
  records : KeyMap CarbonRecord := .empty
  wallets : KeyMap ℤ := .empty

abbrev CarbonM (α : Type) := Call Store (Fault Error) α

def setAdmin (admin : Address) : CarbonM Unit := modify fun s => { s with admin := some admin }

def getAdmin : CarbonM Address := do
  let s ← get
  orError s.admin .notFound

def maxSymbolLen : ℕ := 32

def symbolChar (c : UInt8) : Bool :=
  c = '_'.toUInt8 || '0'.toUInt8 ≤ c && c ≤ '9'.toUInt8 || 'A'.toUInt8 ≤ c && c ≤ 'Z'.toUInt8 ||
    'a'.toUInt8 ≤ c && c ≤ 'z'.toUInt8

/-- A symbol made from text: a text that is too long, or has another character, traps. -/
def newSymbol (text : List UInt8) : CarbonM Unit :=
  require (text.length ≤ maxSymbolLen ∧ text.all symbolChar = true) (.panic "invalid symbol")

def carbonRecordsPrefix : List UInt8 := "carbon_".toList.map Char.toUInt8

def walletCreditsPrefix : List UInt8 := "wallet_".toList.map Char.toUInt8

def carbonKey (env : Env) (invoiceId : Symbol) : CarbonM Unit :=
  newSymbol (carbonRecordsPrefix ++ env.symbolText invoiceId)

def walletKey (env : Env) (wallet : Address) : CarbonM Unit :=
  newSymbol (walletCreditsPrefix ++ env.addressText wallet)

def storeCarbonRecord (env : Env) (invoiceId : Symbol) (record : CarbonRecord) : CarbonM Unit := do
  carbonKey env invoiceId
  modify fun s => { s with records := s.records.set invoiceId record }

def getCarbonRecord (env : Env) (invoiceId : Symbol) : CarbonM CarbonRecord := do
  carbonKey env invoiceId
  let s ← get
  orError (s.records.lookup invoiceId) .notFound

def linkWalletCredits (env : Env) (wallet : Address) (amount : ℤ) : CarbonM Unit := do
  walletKey env wallet
  let s ← get
  let current := s.wallets.value wallet
  require (InI128 (current + amount)) .overflow
  set { s with wallets := s.wallets.set wallet (current + amount) }

def getWalletCredits (env : Env) (wallet : Address) : CarbonM (Option ℤ) := do
  walletKey env wallet
  let s ← get
  pure (s.wallets.lookup wallet)

def updateWalletCredits (env : Env) (wallet : Address) (amount : ℤ) : CarbonM Unit := do
  walletKey env wallet
  modify fun s => { s with wallets := s.wallets.set wallet amount }

def initializeContract (env : Env) (admin : Address) : CarbonM Unit := do
  requireAuth env.toLedger admin
  setAdmin admin

def registerInvoiceCarbon (env : Env) (invoiceId : Symbol) (credits : ℤ) (source : Symbol) :
    CarbonM Unit := do
  let admin ← getAdmin
  requireAuth env.toLedger admin
  require (0 < credits) (.panic "credits must be positive")
  storeCarbonRecord env invoiceId
    { invoiceId := invoiceId, credits := credits, source := source, timestamp := env.now, verified := false }

def linkInvoiceCredits (env : Env) (invoiceId : Symbol) (wallet : Address) : CarbonM ℤ := do
  let record ← getCarbonRecord env invoiceId
  linkWalletCredits env wallet record.credits
  pure record.credits

def verifyCarbonRecord (env : Env) (invoiceId : Symbol) : CarbonM Unit := do
  let admin ← getAdmin
  requireAuth env.toLedger admin
  let record ← getCarbonRecord env invoiceId
  storeCarbonRecord env invoiceId { record with verified := true }

def redeemCredits (env : Env) (wallet : Address) (amount : ℤ) : CarbonM Unit := do
  requireAuth env.toLedger wallet
  let credits ← getWalletCredits env wallet
  let current ← orError credits .insufficientFunds
  require (amount ≤ current) (.panic "insufficient credits")
  require (InI128 (current - amount)) .overflow
  updateWalletCredits env wallet (current - amount)

/-! ## Runs -/

inductive CarbonCall where
  | setUp (admin : Address)
  | register (invoiceId : Symbol) (credits : ℤ) (source : Symbol)
  | link (invoiceId : Symbol) (wallet : Address)
  | verify (invoiceId : Symbol)
  | redeem (wallet : Address) (amount : ℤ)
deriving DecidableEq

def carbonStep (c : Env × CarbonCall) : CarbonM Unit :=
  match c.2 with
  | .setUp admin => initializeContract c.1 admin
  | .register invoiceId credits source => registerInvoiceCarbon c.1 invoiceId credits source
  | .link invoiceId wallet => ignore (linkInvoiceCredits c.1 invoiceId wallet)
  | .verify invoiceId => verifyCarbonRecord c.1 invoiceId
  | .redeem wallet amount => redeemCredits c.1 wallet amount

/-- The wallets each invoice has been credited to, one for each link, and the credits redeemed; a
negative amount redeems nothing. -/
structure Notes where
  links : Symbol → List Address := fun _ => []
  redeemed : ℤ := 0

def Notes.next (call : CarbonCall) (n : Notes) : Notes :=
  match call with
  | .link invoiceId wallet => { n with links := Function.update n.links invoiceId (wallet :: n.links invoiceId) }
  | .redeem _ amount => { n with redeemed := n.redeemed + max amount 0 }
  | _ => n

/-- A call with the notes kept beside the storage. -/
def notedStep (c : Env × CarbonCall) : Call (Store × Notes) (Fault Error) Unit :=
  beside (fun n _ _ => n.next c.2) (carbonStep c)

abbrev after (calls : List (Env × CarbonCall)) : Store × Notes := runAll notedStep ({}, {}) calls

/-! ## The law -/

/-- The credits recorded for the invoices. -/
def Store.registered (s : Store) : KeyMap ℤ := s.records.mapValues CarbonRecord.credits

structure Conserved (p : Store × Notes) : Prop where
  nonneg : ∀ wallet, 0 ≤ p.1.wallets.value wallet
  bounded : p.1.wallets.total + p.2.redeemed ≤ p.1.registered.total
  once : ∀ invoiceId, (p.2.links invoiceId).length ≤ 1

def CarbonLaw (calls : List (Env × CarbonCall)) : Prop := ∀ xs, xs <+: calls → Conserved (after xs)

/-! ## What the calls do -/

variable {env : Env} {s t : Store} {v : Unit} {id : Symbol} {wallet admin : Address} {amount credits k : ℤ}
  {c : Env × CarbonCall}

theorem length_walletKey (env : Env) (wallet : Address) :
    (walletCreditsPrefix ++ env.addressText wallet).length = 63 := by
  have hprefix : walletCreditsPrefix.length = 7 := by decide
  rw [List.length_append, hprefix, Env.addressText, Strkey.length_encodeStrkey]
  rfl

/-- The text of a wallet's key is too long for a symbol, whatever the wallet. -/
theorem walletKey_traps (h : walletKey env wallet s = .ok (v, t)) : False := by
  rw [walletKey, newSymbol, require_ok, length_walletKey] at h
  exact absurd h.1.1 (by decide)

theorem linkInvoiceCredits_traps (hrun : linkInvoiceCredits env id wallet s = .ok (k, t)) : False := by
  obtain ⟨record, u, -, hlink⟩ := bind_ok.1 hrun
  obtain ⟨v, w, hlink, -⟩ := bind_ok.1 hlink
  obtain ⟨v, w, hkey, -⟩ := bind_ok.1 hlink
  exact walletKey_traps hkey

theorem redeemCredits_traps (hrun : redeemCredits env wallet amount s = .ok (v, t)) : False := by
  obtain ⟨-, hrun⟩ := requireAuth_bind.1 hrun
  obtain ⟨current, u, hread, -⟩ := bind_ok.1 hrun
  obtain ⟨v, w, hkey, -⟩ := bind_ok.1 hread
  exact walletKey_traps hkey

theorem registerInvoiceCarbon_ok {source : Symbol}
    (hrun : registerInvoiceCarbon env id credits source s = .ok (v, t)) :
    0 < credits ∧ ∃ record : CarbonRecord, record.credits = credits ∧
      t = { s with records := s.records.set id record } := by
  simp only [registerInvoiceCarbon, getAdmin, bind_assoc, get_bind, orError_bind, requireAuth_bind, require_bind,
    storeCarbonRecord, carbonKey, newSymbol, modify_ok] at hrun
  obtain ⟨admin, -, -, hpos, -, rfl⟩ := hrun
  exact ⟨hpos, _, rfl, rfl⟩

theorem verifyCarbonRecord_ok (hrun : verifyCarbonRecord env id s = .ok (v, t)) :
    ∃ record, s.records.lookup id = some record ∧
      t = { s with records := s.records.set id { record with verified := true } } := by
  simp only [verifyCarbonRecord, getAdmin, getCarbonRecord, bind_assoc, get_bind, orError_bind, requireAuth_bind,
    require_bind, storeCarbonRecord, carbonKey, newSymbol, modify_ok] at hrun
  obtain ⟨admin, -, -, -, record, hrecord, -, rfl⟩ := hrun
  exact ⟨record, hrecord, rfl⟩

theorem initializeContract_ok (hrun : initializeContract env admin s = .ok (v, t)) :
    t = { s with admin := some admin } := by
  rw [initializeContract, requireAuth_bind, setAdmin, modify_ok] at hrun
  exact hrun.2.symm

/-! ## The invariant -/

theorem registered_set (s : Store) (record : CarbonRecord) :
    (s.records.set id record).mapValues CarbonRecord.credits = s.registered.set id record.credits :=
  KeyMap.mapValues_set _ _ _ _

theorem registered_value {record : CarbonRecord} (h : s.records.lookup id = some record) :
    s.registered.value id = record.credits := by
  rw [KeyMap.value, Store.registered, KeyMap.lookup_mapValues, h, Option.map_some, Option.getD_some]

/-- No wallet is written, nothing is linked or redeemed, and no record has negative credits. -/
structure Unlinked (p : Store × Notes) : Prop where
  wallets : p.1.wallets = .empty
  notes : p.2 = {}
  records : ∀ e ∈ p.1.registered.entries, 0 ≤ e.2

namespace Unlinked

variable {p : Store × Notes}

theorem start : Unlinked ({}, {}) := ⟨rfl, rfl, fun _ he => absurd he List.not_mem_nil⟩

theorem conserved (h : Unlinked p) : Conserved p where
  nonneg wallet := by rw [h.wallets, KeyMap.value_empty]
  bounded := by
    rw [h.wallets, h.notes, KeyMap.total_empty]
    exact KeyMap.total_nonneg _ h.records
  once invoiceId := by
    rw [h.notes]
    exact Nat.zero_le _

theorem record {n : Notes} (h : Unlinked (s, n)) {record : CarbonRecord} (hpos : 0 ≤ record.credits) :
    Unlinked ({ s with records := s.records.set id record }, n) := by
  refine ⟨h.wallets, h.notes, fun e he => ?_⟩
  rw [Store.registered, registered_set] at he
  rcases KeyMap.mem_set he with rfl | he
  · exact hpos
  · exact h.records e he

end Unlinked

theorem notedStep_unlinked {p q : Store × Notes} (hp : Unlinked p) (hrun : notedStep c p = .ok (v, q)) :
    Unlinked q := by
  obtain ⟨s, n⟩ := p
  obtain ⟨t, m⟩ := q
  obtain ⟨hcall, rfl⟩ := beside_ok.1 hrun
  obtain ⟨env, call⟩ := c
  cases call with
  | setUp admin =>
      obtain rfl := initializeContract_ok hcall
      exact ⟨hp.wallets, hp.notes, hp.records⟩
  | register id credits source =>
      obtain ⟨hpos, record, rfl, rfl⟩ := registerInvoiceCarbon_ok hcall
      exact hp.record hpos.le
  | link id wallet =>
      obtain ⟨k, hlink⟩ := ignore_ok.1 hcall
      exact (linkInvoiceCredits_traps hlink).elim
  | verify id =>
      obtain ⟨record, hrecord, rfl⟩ := verifyCarbonRecord_ok hcall
      refine hp.record ?_
      exact registered_value hrecord ▸ s.registered.value_nonneg hp.records id
  | redeem wallet amount => exact (redeemCredits_traps hcall).elim

/-- In every run the credits are conserved: none ever reaches a wallet. -/
theorem carbon_law (calls : List (Env × CarbonCall)) : CarbonLaw calls := by
  intro xs _
  have hkeeps : ∀ p c v q, Unlinked p → notedStep c p = .ok (v, q) → Unlinked q :=
    fun _ _ _ _ hp hrun => notedStep_unlinked hp hrun
  exact (runAll_invariant hkeeps Unlinked.start xs).conserved

end StellarSplit.CarbonCredit
