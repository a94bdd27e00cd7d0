import Mathlib.Algebra.BigOperators.Group.List.Basic
import Mathlib.Algebra.Order.BigOperators.Group.List
import Mathlib.Tactic.SplitIfs
import StellarSplit.Lib.Call
import StellarSplit.Lib.Machine

/-!
# The host the contracts run on

Addresses, the ways a call traps, and the token movements a contract asks
for. Balances are not stored: the log holds every
movement a token contract accepted, newest first, and `held` is the net
amount of a token the contract received. Each movement carries a memo that
says what it was for; the contracts never read it.
-/

namespace StellarSplit

open Exec

abbrev Address := ℕ

/-- A symbol, by its encoding as a number. -/
abbrev Symbol := ℕ

/-- The address of the contract under study. -/
def currentContract : Address := 0

/-! ## Traps -/

/-- Why a call traps: an error code of the contract, a panic with a message, a missing
authorisation, a token contract or another contract that fails, or an overflow. -/
inductive Fault (ε : Type) where
  | error (e : ε)
  | panic (msg : String)
  | unauthorized (a : Address)
  | tokenRefused
  | callFailed (contract : Address)
  | overflow
deriving DecidableEq, Repr

section Traps

variable {σ ε α : Type}

def orPanic (x : Option α) (msg : String) : Call σ (Fault ε) α :=
  match x with
  | some a => pure a
  | none => throw (.panic msg)

def orError (x : Option α) (e : ε) : Call σ (Fault ε) α :=
  match x with
  | some a => pure a
  | none => throw (.error e)

@[simp] theorem orPanic_ok {x : Option α} {msg : String} {s t : σ} {a : α} :
    (orPanic x msg : Call σ (Fault ε) α) s = .ok (a, t) ↔ x = some a ∧ s = t := by
  cases x <;> simp [orPanic]

@[simp] theorem orError_ok {x : Option α} {e : ε} {s t : σ} {a : α} :
    (orError x e : Call σ (Fault ε) α) s = .ok (a, t) ↔ x = some a ∧ s = t := by
  cases x <;> simp [orError]

theorem orPanic_bind {β : Type} {x : Option α} {msg : String} {k : α → Call σ (Fault ε) β} {s : σ}
    {r : β × σ} : (orPanic x msg >>= k) s = .ok r ↔ ∃ a, x = some a ∧ k a s = .ok r := by
  simp only [bind_ok, orPanic_ok]
  constructor
  · rintro ⟨a, _, ⟨hx, rfl⟩, h⟩
    exact ⟨a, hx, h⟩
  · rintro ⟨a, hx, h⟩
    exact ⟨a, s, ⟨hx, rfl⟩, h⟩

theorem orError_bind {β : Type} {x : Option α} {e : ε} {k : α → Call σ (Fault ε) β} {s : σ}
    {r : β × σ} : (orError x e >>= k) s = .ok r ↔ ∃ a, x = some a ∧ k a s = .ok r := by
  simp only [bind_ok, orError_ok]
  constructor
  · rintro ⟨a, _, ⟨hx, rfl⟩, h⟩
    exact ⟨a, hx, h⟩
  · rintro ⟨a, hx, h⟩
    exact ⟨a, s, ⟨hx, rfl⟩, h⟩

end Traps

/-! ## Token movements -/

/-- A movement of `amount` units of `token`, with a memo of type `μ`. -/
structure Transfer (μ : Type) where
  token : Address
  src : Address
  dst : Address
  amount : ℤ
  memo : μ
deriving DecidableEq, Repr

section Tally

variable {μ : Type}

/-- The sum of the amounts of the selected movements. -/
def tally (p : Transfer μ → Bool) (log : List (Transfer μ)) : ℤ :=
  (log.map fun t => if p t then t.amount else 0).sum

@[simp] theorem tally_nil (p : Transfer μ → Bool) : tally p [] = 0 := rfl

@[simp] theorem tally_cons (p : Transfer μ → Bool) (t : Transfer μ) (log : List (Transfer μ)) :
    tally p (t :: log) = (if p t then t.amount else 0) + tally p log := rfl

theorem tally_append (p : Transfer μ → Bool) (l₁ l₂ : List (Transfer μ)) :
    tally p (l₁ ++ l₂) = tally p l₁ + tally p l₂ := by
  simp [tally]

theorem tally_eq_zero {p : Transfer μ → Bool} {log : List (Transfer μ)}
    (h : ∀ t ∈ log, p t = false) : tally p log = 0 := by
  induction log with
  | nil => rfl
  | cons t log ih =>
      simp [h t (by simp), ih fun u hu => h u (List.mem_cons_of_mem t hu)]

/-- The net amount of `tok` the contract received over the log. -/
def held (log : List (Transfer μ)) (tok : Address) : ℤ :=
  tally (fun t => t.token = tok ∧ t.dst = currentContract) log -
    tally (fun t => t.token = tok ∧ t.src = currentContract) log

@[simp] theorem held_nil (tok : Address) : held ([] : List (Transfer μ)) tok = 0 := rfl

end Tally

/-! ## The environment of one call -/

/-- What a call reads from the ledger and from other contracts: the time, the
ledger sequence, who authorised the call, and whether a token contract accepts
a movement after the movements already logged. -/
structure Ledger (μ : Type) where
  now : ℕ
  sequence : ℕ
  auth : Address → Bool
  accepts : List (Transfer μ) → Transfer μ → Bool

/-- A token that pays out whatever the contract's balance covers. -/
def Ledger.PaysHeld {μ : Type} (env : Ledger μ) : Prop :=
  ∀ log t, t.src = currentContract → 0 < t.amount → t.amount ≤ held log t.token →
    env.accepts log t = true

/-- `require_auth`: no top-level call carries an authorisation of the contract itself. -/
def requireAuth {σ ε μ : Type} (env : Ledger μ) (a : Address) : Call σ (Fault ε) Unit :=
  require (env.auth a = true ∧ a ≠ currentContract) (.unauthorized a)

@[simp] theorem requireAuth_ok {σ ε μ : Type} {env : Ledger μ} {a : Address} {s t : σ} {v : Unit} :
    (requireAuth env a : Call σ (Fault ε) Unit) s = .ok (v, t) ↔
      (env.auth a = true ∧ a ≠ currentContract) ∧ s = t := by
  simp [requireAuth]

theorem requireAuth_bind {σ ε μ β : Type} {env : Ledger μ} {a : Address}
    {k : Unit → Call σ (Fault ε) β} {s : σ} {r : β × σ} :
    (requireAuth env a >>= k) s = .ok r ↔
      (env.auth a = true ∧ a ≠ currentContract) ∧ k () s = .ok r := require_bind

end StellarSplit
