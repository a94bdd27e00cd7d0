import StellarSplit.Split.Lock

/-!
# The expired invoice

When a fully funded invoice can still be refunded, and why an auction that a
refund has started never closes: the refund stores the status `Expired`, and
the settlement asks for `Pending`.
-/

namespace StellarSplit.Split

open Exec Function Machine

variable {s t u : Store} {env : Env} {id : ℕ} {inv : Invoice}

/-! ## When a refund can succeed -/

/-- Calls of other contracts leave the storage alone. -/
theorem eq_of_framed {α : Type} {x : SplitM α} {a : α} [hx : Framed Eq x]
    (hrun : x s = .ok (a, t)) : s = t := hx.respects s a t hrun

section Loaded

variable (inv : Invoice) (payments : List Payment)

@[simp] theorem withPayments_auctionOnExpiry :
    (inv.withPayments payments).auctionOnExpiry = inv.auctionOnExpiry := rfl

@[simp] theorem withPayments_auctionEnd : (inv.withPayments payments).auctionEnd = inv.auctionEnd := rfl

@[simp] theorem withPayments_status : (inv.withPayments payments).status = inv.status := rfl

@[simp] theorem withPayments_tokens : (inv.withPayments payments).tokens = inv.tokens := rfl

@[simp] theorem withPayments_creator : (inv.withPayments payments).creator = inv.creator := rfl

@[simp] theorem lazilyExpired_tokens : (lazilyExpired env inv).tokens = inv.tokens := by
  unfold lazilyExpired
  split <;> rfl

@[simp] theorem lazilyExpired_creator : (lazilyExpired env inv).creator = inv.creator := by
  unfold lazilyExpired
  split <;> rfl

end Loaded

/-- A refund that returns found the invoice expired, or pending and past its deadline. -/
theorem due_of_expired (hdue : inv.status = .pending → refundDeadline inv < env.now)
    (hexpired : (lazilyExpired env inv).status = .expired) :
    inv.status = .expired ∨ inv.status = .pending ∧ refundDeadline inv < env.now := by
  unfold lazilyExpired at hexpired
  split at hexpired
  · rename_i h
    exact .inr ⟨h.1, hdue h.1⟩
  · exact .inl hexpired

theorem startAuction_ok {v : Unit} : startAuction env id inv s = .ok (v, t) ↔
    inv.auctionEnd = 0 ∧
      saveInvoice env id (inv.withAuctionEnd (satAddU64 env.now 86400)) s = .ok (v, t) := by
  unfold startAuction
  split_ifs with h <;> simp [h]

/-- Fully funded, one half to be released at 100 and one half at 5000. -/
def trancheInvoice : Invoice :=
  { sampleInvoice with funded := 100, tranches := [⟨100, 5000⟩, ⟨5000, 5000⟩] }

/-- The movements of an invoice for one purpose. -/
def spent (id : ℕ) (purpose : Purpose) (s : Store) : ℤ :=
  tally (fun m => m.memo = ⟨id, purpose⟩) s.log

/-- The entry points of an auction. -/
inductive AuctionCall where
  | refund
  | placeBid (bidder : Address) (amount : ℤ)
  | settleAuction
deriving DecidableEq

/-- One call of a run: its environment, the invoice and the entry point. -/
structure AuctionStep where
  env : Env
  id : ℕ
  call : AuctionCall

def AuctionStep.run (step : AuctionStep) : SplitM Unit :=
  match step.call with
  | .refund => Split.refund step.env step.id
  | .placeBid bidder amount => Split.placeBid step.env bidder step.id amount
  | .settleAuction => Split.settleAuction step.env step.id

/-- The memos of one invoice. -/
def memoOf (id : ℕ) (m : Memo) : Prop := m.invoice = id

instance covers_memoOf : Covers {id} (memoOf id) := ⟨fun _ h _ => h⟩

instance mem_own : Fact (id ∈ ({id} : Set ℕ)) := ⟨rfl⟩

/-- Other invoices keep their entries and get no movement. -/
structure Elsewhere (id : ℕ) (s t : Store) : Prop where
  entries : ∀ k, k ≠ id → t.entries k = s.entries k
  log : ∃ new, t.log = new ++ s.log ∧ ∀ m ∈ new, m.memo.invoice = id

theorem elsewhere_of_framed {α : Type} {x : SplitM α} {a : α}
    (hx : Framed (Frame Set.univ {id} (memoOf id)) x) (hrun : x s = .ok (a, t)) :
    Elsewhere id s t :=
  have hst := change_of_framed hx hrun
  ⟨hst.entries, hst.log⟩

theorem AuctionStep.elsewhere {step : AuctionStep} {v : Unit} (hrun : step.run s = .ok (v, t)) :
    Elsewhere step.id s t := by
  obtain ⟨env, id, call⟩ := step
  cases call with
  | refund => exact elsewhere_of_framed framed_refund hrun
  | placeBid bidder amount => exact elsewhere_of_framed framed_placeBid hrun
  | settleAuction => exact elsewhere_of_framed framed_settleAuction hrun

/-- The auction of the invoice has started, and the stored status keeps it from being settled. -/
def AuctionStuck (id : ℕ) (s : Store) : Prop :=
  ∃ inv ∈ (s.entries id).invoice,
    inv.auctionOnExpiry = true ∧ inv.auctionEnd ≠ 0 ∧ inv.status = .expired

/-- A refund that starts the auction leaves it stuck. -/
theorem refund_auctionStuck {v : Unit} (hinv : (s.entries id).invoice = some inv)
    (hauction : inv.auctionOnExpiry = true) (hrun : refund env id s = .ok (v, t)) :
    AuctionStuck id t := by
  obtain ⟨-, -, loaded, hload, -, hexpired, hbranch⟩ := refund_ok.1 hrun
  obtain rfl : inv.withPayments (s.entries id).payments = loaded := by
    simpa [Entry.load, hinv] using hload
  rcases hbranch with ⟨-, hstart⟩ | ⟨hnot, -⟩
  · obtain ⟨-, hsave⟩ := startAuction_ok.1 hstart
    refine ⟨_, saveInvoice_stored hsave, ?_, ?_, ?_⟩
    · simpa [Invoice.withAuctionEnd] using hauction
    · simp [Invoice.withAuctionEnd, satAddU64, u64Max]
    · simpa [Invoice.withAuctionEnd] using hexpired
  · simp [hauction] at hnot

theorem AuctionStuck.load (h : AuctionStuck id s) (hload : (s.entries id).load = some inv) :
    inv.auctionOnExpiry = true ∧ inv.auctionEnd ≠ 0 ∧ inv.status = .expired := by
  obtain ⟨stored, hstored, h⟩ := h
  obtain rfl : stored.withPayments (s.entries id).payments = inv := by
    simpa [Entry.load, Option.mem_def.1 hstored] using hload
  exact h

theorem AuctionStuck.settle_fails (h : AuctionStuck id s) {r : Unit × Store} :
    settleAuction env id s ≠ .ok r := by
  intro hrun
  simp only [settleAuction, bind_ok, requireNotPaused_ok, loadInvoice_ok, require_ok] at hrun
  obtain ⟨_, _, ⟨-, rfl⟩, inv, _, ⟨hload, rfl⟩, _, _, ⟨-, rfl⟩, _, _, ⟨-, rfl⟩, _, _, ⟨-, rfl⟩, _, _,
    ⟨hpending, rfl⟩, -⟩ := hrun
  rw [(h.load hload).2.2] at hpending
  cases hpending

theorem AuctionStuck.refund_fails (h : AuctionStuck id s) {r : Unit × Store} :
    refund env id s ≠ .ok r := by
  intro hrun
  obtain ⟨-, -, inv, hload, -, -, hbranch⟩ := refund_ok.1 hrun
  obtain ⟨hauction, hend, -⟩ := h.load hload
  rcases hbranch with ⟨-, hstart⟩ | ⟨hnot, -⟩
  · exact hend (by simpa using (startAuction_ok.1 hstart).1)
  · simp [hauction] at hnot

/-- A bid is paid in by its bidder and changes nothing but the list of bids. -/
theorem AuctionStuck.placeBid {bidder : Address} {amount : ℤ} {v : Unit} (h : AuctionStuck id s)
    (hrun : placeBid env bidder id amount s = .ok (v, t)) :
    AuctionStuck id t ∧ ∃ m, t.log = m :: s.log ∧ m.src ≠ currentContract := by
  simp only [Split.placeBid, bind_ok, requireNotPaused_ok, requireAuth_ok, loadInvoice_ok, require_ok,
    orPanic_ok, collect_ok] at hrun
  obtain ⟨_, _, ⟨-, rfl⟩, _, _, ⟨⟨-, hbidder⟩, rfl⟩, inv, _, ⟨hload, rfl⟩, _, _, ⟨-, rfl⟩, _, _,
    ⟨-, rfl⟩, _, _, ⟨-, rfl⟩, _, _, ⟨-, rfl⟩, _, _, ⟨-, rfl⟩, token, _, ⟨-, rfl⟩, _, _, ⟨-, rfl⟩,
    hsave⟩ := hrun
  have hopen : inv.auctionOnExpiry = true ∧ inv.auctionEnd ≠ 0 ∧ inv.status = .expired := h.load hload
  refine ⟨⟨_, saveInvoice_stored hsave, hopen⟩, ?_⟩
  obtain ⟨-, rfl⟩ := saveInvoice_ok.1 hsave
  exact ⟨_, rfl, hbidder⟩

/-- Since state `s` nothing has left the contract for the invoice, and its auction is stuck. -/
structure Stranded (id : ℕ) (s t : Store) : Prop where
  stuck : AuctionStuck id t
  log : ∃ new, t.log = new ++ s.log ∧ ∀ m ∈ new, m.memo.invoice = id → m.src ≠ currentContract

theorem Stranded.step {step : AuctionStep} {v : Unit} (h : Stranded id s t)
    (hrun : step.run t = .ok (v, u)) : Stranded id s u := by
  obtain ⟨hstuck, new, hnew, hin⟩ := h
  by_cases hid : step.id = id
  · -- on the invoice itself only a bid goes through
    obtain ⟨env, k, call⟩ := step
    obtain rfl : k = id := hid
    cases call with
    | refund => exact absurd hrun hstuck.refund_fails
    | settleAuction => exact absurd hrun hstuck.settle_fails
    | placeBid bidder amount =>
        obtain ⟨hstuck', m, hlog, hsrc⟩ := hstuck.placeBid hrun
        refine ⟨hstuck', m :: new, by rw [hlog, hnew]; rfl, ?_⟩
        intro m' hm' hmemo
        rcases List.mem_cons.1 hm' with rfl | hm'
        · exact hsrc
        · exact hin m' hm' hmemo
  · obtain ⟨hentries, more, hmore, hmemo⟩ := AuctionStep.elsewhere hrun
    refine ⟨?_, more ++ new, by rw [hmore, hnew, List.append_assoc], ?_⟩
    · unfold AuctionStuck
      rw [hentries id (Ne.symm hid)]
      exact hstuck
    · intro m hm hown
      rcases List.mem_append.1 hm with hm | hm
      · exact absurd ((hmemo m hm).symm.trans hown) hid
      · exact hin m hm hown

/-- Once a refund has started the auction, no run of auction calls settles it or pays anything
out for the invoice. -/
theorem auction_never_closes (hinv : (s.entries id).invoice = some inv)
    (hauction : inv.auctionOnExpiry = true) (hstart : refund env id s = .ok ((), t))
    (steps : List AuctionStep) :
    (∀ env' r, settleAuction env' id (runAll AuctionStep.run t steps) ≠ .ok r) ∧
      ∃ new, (runAll AuctionStep.run t steps).log = new ++ t.log ∧
        ∀ m ∈ new, m.memo.invoice = id → m.src ≠ currentContract := by
  have hfirst : Stranded id t t := ⟨refund_auctionStuck hinv hauction hstart, [], rfl, by simp⟩
  have hrun : Stranded id t (runAll AuctionStep.run t steps) :=
    runAll_invariant (fun _ _ _ _ h hstep => h.step hstep) hfirst steps
  exact ⟨fun _ _ => hrun.stuck.settle_fails, hrun.log⟩

theorem auction_sample_never_closes :
    ∃ t, refund (sampleEnv 2000 50) 1
        (sampleStore auctionInvoice [{ payer := 20, amount := 50 }]) = .ok ((), t) ∧
      ∀ env' r, settleAuction env' 1 (runAll AuctionStep.run t
        [⟨sampleEnv 3000 50, 1, .placeBid 30 60⟩, ⟨sampleEnv 3100 50, 1, .placeBid 31 70⟩]) ≠ .ok r := by
  have hstart : refund (sampleEnv 2000 50) 1
      (sampleStore auctionInvoice [{ payer := 20, amount := 50 }]) = .ok ((), _) := rfl
  exact ⟨_, hstart, (auction_never_closes rfl rfl hstart _).1⟩

/-- Two bids came in, the auction is over, and the settlement still fails. -/
theorem auction_settle_fails :
    ∃ t₁ t₂ t₃, refund (sampleEnv 2000 50) 1
        (sampleStore auctionInvoice [{ payer := 20, amount := 50 }]) = .ok ((), t₁) ∧
      placeBid (sampleEnv 3000 50) 30 1 60 t₁ = .ok ((), t₂) ∧
      placeBid (sampleEnv 3100 50) 31 1 70 t₂ = .ok ((), t₃) ∧
      (∃ inv ∈ (t₃.entries 1).invoice, inv.auctionEnd < 200000) ∧
      settleAuction (sampleEnv 200000 50) 1 t₃ = .error (.panic "invoice is not pending") :=
  ⟨_, _, _, rfl, rfl, rfl, ⟨_, rfl, by decide⟩, rfl⟩

end StellarSplit.Split
