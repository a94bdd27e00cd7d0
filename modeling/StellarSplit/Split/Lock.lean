import StellarSplit.Split.Frame

/-!
# The reentrancy lock and the expired invoice

Which calls leave the lock behind, when a fully funded invoice can still be
refunded, and why an auction that a refund has started never closes.
-/

namespace StellarSplit.Split

open Exec Function Machine

variable {s t u : Store} {env : Env} {α : Type} {id : ℕ} {inv : Invoice}

/-! ## A small contract -/

/-- An environment in which every check passes and the token pays what the contract holds,
starting from a reserve. -/
def sampleEnv (now : ℕ) (reserve : ℤ) : Env where
  now := now
  sequence := now
  auth := fun _ => true
  accepts := fun log t =>
    decide (0 ≤ t.amount ∧ (t.src = currentContract → t.amount ≤ reserve + held log t.token))
  calls := fun _ _ => true
  price := fun _ => none
  isVerified := fun _ => true
  accountExists := fun _ _ => true
  hasPath := fun _ _ => false
  sha256 := fun _ => 0
  admits := fun _ _ _ => true
  fitsQuota := fun _ => true
  depth := 4

/-- An invoice of creator 2 over 100 of token 9, half of it for each of the recipients
10 and 11. -/
def sampleInvoice : Invoice where
  creator := 2
  recipients := [10, 11]
  amounts := [50, 50]
  tokens := [9, 9]
  fundingToken := 9
  deadline := 1000

/-- A contract that holds one invoice under id 1 with the given payments. -/
def sampleStore (inv : Invoice) (payments : List Payment) : Store where
  entries := fun k =>
    if k = 1 then
      { invoice := some inv
        shards := fun i => payments.filter fun p => computeShardId p.payer = i }
    else {}
  counter := 1

/-! ## Calls that do not know the lock -/

/-- Every memo. -/
def anyMemo (_ : Memo) : Prop := True

instance covers_anyMemo {W : Set ℕ} : Covers W anyMemo := ⟨fun _ _ _ => trivial⟩

instance mem_everything : Fact (id ∈ Set.univ) := ⟨trivial⟩

theorem closed_everywhere (W : Set ℕ) (s : Store) : Closed Set.univ W s :=
  fun _ _ _ _ _ _ => trivial

/-- A call without a release changes what its frame allows. -/
theorem change_of_framed {W : Set ℕ} {M : Memo → Prop} {x : SplitM α} {a : α}
    (hx : Framed (Frame Set.univ W M) x) (hrun : x s = .ok (a, t)) : Change W M s t :=
  (hx.respects s a t hrun (closed_everywhere W s)).2

/-! ## Where the lock is left -/

theorem acquireLock_ok {v : Unit} :
    acquireLock s = .ok (v, t) ↔ s.reLock = false ∧ t = s.withLock true := by
  simp only [acquireLock, bind_ok, get_ok, require_ok, set_ok]
  constructor
  · rintro ⟨_, _, ⟨rfl, rfl⟩, _, _, ⟨h, rfl⟩, rfl⟩
    exact ⟨h, rfl⟩
  · rintro ⟨h, rfl⟩
    exact ⟨s, s, ⟨rfl, rfl⟩, (), s, ⟨h, rfl⟩, rfl⟩

theorem removeLock_ok {v : Unit} :
    removeLock s = .ok (v, t) ↔ s.withLock false = t := modify_ok

/-- The entry points that take the lock. -/
inductive LockedCall where
  | releaseInvoice (preimage : Option (List ℕ))
  | refund
  | cancelInvoice (caller : Address)
deriving DecidableEq

def LockedCall.run (env : Env) (id : ℕ) : LockedCall → SplitM Unit
  | .releaseInvoice preimage => Split.releaseInvoice env id preimage
  | .refund => Split.refund env id
  | .cancelInvoice caller => Split.cancelInvoice env caller id

theorem releaseInvoice_lock {preimage : Option (List ℕ)} {v : Unit}
    (hrun : releaseInvoice env id preimage s = .ok (v, t)) : t.reLock = false := by
  simp only [releaseInvoice, bind_ok, removeLock_ok] at hrun
  obtain ⟨_, _, -, _, _, -, rfl⟩ := hrun
  rfl

theorem cancelInvoice_lock {caller : Address} {v : Unit}
    (hrun : cancelInvoice env caller id s = .ok (v, t)) : t.reLock = false := by
  simp only [cancelInvoice, bind_ok, removeLock_ok] at hrun
  obtain ⟨_, _, -, _, _, -, _, _, -, _, _, -, _, _, -, _, _, -, _, _, -, _, _, -, _, _, -, _, _, -,
    _, _, -, _, _, -, rfl⟩ := hrun
  rfl

/-- The stored record decides about an auction, with or without the shards. -/
theorem load_auctionOnExpiry (hload : (s.entries id).load = some inv) :
    inv.auctionOnExpiry = true ↔ ∃ stored ∈ (s.entries id).invoice, stored.auctionOnExpiry = true := by
  obtain ⟨stored, hstored, rfl⟩ := Option.map_eq_some_iff.1 hload
  simp [hstored, Invoice.withPayments]

@[simp] theorem lazilyExpired_auctionOnExpiry :
    (lazilyExpired env inv).auctionOnExpiry = inv.auctionOnExpiry := by
  unfold lazilyExpired
  split <;> rfl

@[simp] theorem lazilyExpired_auctionEnd : (lazilyExpired env inv).auctionEnd = inv.auctionEnd := by
  unfold lazilyExpired
  split <;> rfl

/-- What a refund that returns has done: it started an auction and kept the lock, or it paid
the payers back and removed the lock. -/
theorem refund_ok {v : Unit} : refund env id s = .ok (v, t) ↔
    s.reLock = false ∧ FnRunning env "refund" ∧ ∃ inv, (s.entries id).load = some inv ∧
      (inv.status = .pending → refundDeadline inv < env.now) ∧
      (lazilyExpired env inv).status = .expired ∧
      ((inv.auctionOnExpiry = true ∧
          startAuction env id (lazilyExpired env inv) (s.withLock true) = .ok ((), t)) ∨
        (inv.auctionOnExpiry = false ∧ ∃ u,
          refundPayers env id (lazilyExpired env inv) (s.withLock true) = .ok ((), u) ∧
            u.withLock false = t)) := by
  constructor
  · intro hrun
    simp only [refund, bind_ok, acquireLock_ok, requireFnNotPaused_ok, loadInvoice_ok,
      require_ok] at hrun
    obtain ⟨_, _, ⟨hfree, rfl⟩, _, _, ⟨hpaused, rfl⟩, inv, _, ⟨hload, rfl⟩, _, _, ⟨hdue, rfl⟩, _, _,
      ⟨hexpired, rfl⟩, hrun⟩ := hrun
    refine ⟨hfree, hpaused, inv, hload, hdue, hexpired, ?_⟩
    split at hrun
    · rename_i hauction
      exact .inl ⟨hauction, hrun⟩
    · rename_i hauction
      simp only [bind_ok, removeLock_ok] at hrun
      obtain ⟨_, u, hpay, rfl⟩ := hrun
      exact .inr ⟨by simpa using hauction, u, hpay, rfl⟩
  · rintro ⟨hfree, hpaused, inv, hload, hdue, hexpired, hbranch⟩
    have hlock : acquireLock s = .ok ((), s.withLock true) := acquireLock_ok.2 ⟨hfree, rfl⟩
    have hguard : requireFnNotPaused env "refund" (s.withLock true) = .ok ((), s.withLock true) :=
      requireFnNotPaused_ok.2 ⟨hpaused, rfl⟩
    have hread : loadInvoice id (s.withLock true) = .ok (inv, s.withLock true) :=
      loadInvoice_ok.2 ⟨hload, rfl⟩
    unfold refund
    rw [bind_run hlock, bind_run hguard, bind_run hread, bind_run (require_run hdue _ _),
      bind_run (require_run hexpired _ _)]
    rcases hbranch with ⟨hauction, hstart⟩ | ⟨hauction, u, hpay, rfl⟩
    · rw [if_pos hauction]
      exact hstart
    · rw [if_neg (by simp [hauction]), bind_run hpay]
      exact removeLock_ok.2 rfl

theorem startAuction_lock {v : Unit} (hrun : startAuction env id inv (s.withLock true) = .ok (v, t)) :
    t.reLock = true := by
  unfold startAuction at hrun
  split_ifs at hrun with hnew
  · obtain ⟨-, rfl⟩ := saveInvoice_ok.1 hrun
    rfl
  · simp at hrun

/-- A successful call that found the lock free leaves it free, unless it is a refund of an
invoice that goes to auction. -/
theorem lock_removed_iff {call : LockedCall} (_hfree : s.reLock = false)
    (hrun : call.run env id s = .ok ((), t)) :
    t.reLock = false ↔
      ¬(call = .refund ∧ ∃ inv ∈ (s.entries id).invoice, inv.auctionOnExpiry = true) := by
  cases call with
  | releaseInvoice preimage => simp [releaseInvoice_lock hrun]
  | cancelInvoice caller => simp [cancelInvoice_lock hrun]
  | refund =>
      obtain ⟨-, -, inv, hload, -, -, hbranch⟩ := refund_ok.1 hrun
      rw [← load_auctionOnExpiry hload]
      rcases hbranch with ⟨hauction, hstart⟩ | ⟨hauction, u, -, rfl⟩
      · have hlock : t.reLock = true := startAuction_lock hstart
        simp [hlock, hauction]
      · simp [hauction]

theorem cancelled_sample_lock :
    ∃ t, (LockedCall.cancelInvoice 2).run (sampleEnv 20 0) 1 (sampleStore sampleInvoice []) =
      .ok ((), t) ∧ t.reLock = false := by
  have hrun : (LockedCall.cancelInvoice 2).run (sampleEnv 20 0) 1 (sampleStore sampleInvoice []) =
      .ok ((), commit ((LockedCall.cancelInvoice 2).run (sampleEnv 20 0) 1)
        (sampleStore sampleInvoice [])) := rfl
  exact ⟨_, hrun, (lock_removed_iff rfl hrun).2 (by simp)⟩

/-- The invoice of the failing call: funded to one half, to be auctioned when it expires. -/
def auctionInvoice : Invoice := { sampleInvoice with funded := 50, auctionOnExpiry := true }

theorem auction_start_keeps_lock :
    ∃ t, LockedCall.refund.run (sampleEnv 2000 50) 1
        (sampleStore auctionInvoice [{ payer := 20, amount := 50 }]) = .ok ((), t) ∧
      (sampleStore auctionInvoice [{ payer := 20, amount := 50 }]).reLock = false ∧
      t.reLock = true :=
  ⟨_, rfl, rfl, rfl⟩

end StellarSplit.Split
