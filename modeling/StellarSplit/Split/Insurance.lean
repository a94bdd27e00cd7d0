import Mathlib.Logic.Function.Basic
import StellarSplit.Lib.Registry
import StellarSplit.Lib.Runs
import StellarSplit.Lib.Totals
import StellarSplit.Split.Types

/-!
# The insurance pool

Members pay into a pool for each token; claims on it are voted on, a vote weighing what the
voter has paid in at that time. A claim is paid when more than half of all contributions
approve it. It is rejected once half of them reject it or the vote is over.
-/

namespace StellarSplit.Split.Insurance

open Exec Function Machine Registry

/-! ## The contract -/

def claimVotingLedgers : ℕ := 120960

inductive ClaimStatus where
  | opened | paid | rejected
deriving DecidableEq, Repr

structure InsuranceClaim where
  id : ℕ
  token : Address
  claimant : Address
  amount : ℤ
  reason : String
  invoiceId : ℕ
  approveWeight : ℤ
  rejectWeight : ℤ
  votingEndsLedger : ℕ
  status : ClaimStatus
deriving DecidableEq, Repr

/-- What a movement into or out of one of the side pools was for. -/
inductive PoolMemo where
  | funding
  | claim (id : ℕ)
  | deposit (coop : ℕ)
  | profit (coop : ℕ)
  | lockup (id : ℕ)
  | settlement (id : ℕ)
deriving DecidableEq, Repr

/-- The storage of the pool, with the log of accepted token movements. Contributions are kept for each
token; an absent amount is zero. -/
structure InsuranceStore where
  balance : Address → ℤ := fun _ => 0
  contributions : Address → KeyMap ℤ := fun _ => .empty
  totalContrib : Address → ℤ := fun _ => 0
  nextClaim : ℕ := 1
  claims : ℕ → Option InsuranceClaim := fun _ => none
  votes : ℕ → KeyMap Bool := fun _ => .empty
  log : List (Transfer PoolMemo) := []

abbrev InsuranceM (α : Type) := Call InsuranceStore SplitFault α

def loadClaim (claimId : ℕ) : InsuranceM InsuranceClaim := do
  let s ← get
  orPanic (s.claims claimId) "claim not found"

def saveClaim (claimId : ℕ) (claim : InsuranceClaim) : InsuranceM Unit :=
  modify fun s => { s with claims := update s.claims claimId (some claim) }

/-- A token transfer; it traps when the token contract refuses. -/
def poolTransfer (env : Ledger PoolMemo) (m : Transfer PoolMemo) : InsuranceM Unit := do
  let s ← get
  require (env.accepts s.log m = true) .tokenRefused
  set { s with log := m :: s.log }

def fundInsurancePool (env : Ledger PoolMemo) (member token : Address) (amount : ℤ) : InsuranceM Unit := do
  requireAuth env member
  require (0 < amount) (.panic "amount must be positive")
  poolTransfer env ⟨token, member, currentContract, amount, .funding⟩
  let s ← get
  require (InI128 (s.balance token + amount)) .overflow
  require (InI128 ((s.contributions token).value member + amount)) .overflow
  require (InI128 (s.totalContrib token + amount)) .overflow
  set { s with
    balance := update s.balance token (s.balance token + amount)
    contributions := update s.contributions token
      ((s.contributions token).set member ((s.contributions token).value member + amount))
    totalContrib := update s.totalContrib token (s.totalContrib token + amount) }

def fileInsuranceClaim (env : Ledger PoolMemo) (claimant token : Address) (amount : ℤ) (invoiceId : ℕ)
    (reason : String) : InsuranceM ℕ := do
  requireAuth env claimant
  require (0 < amount) (.panic "amount must be positive")
  let s ← get
  require (amount ≤ s.balance token) (.panic "claim exceeds pool balance")
  let id := s.nextClaim
  require (id + 1 ≤ u64Max) .overflow
  require (env.sequence + claimVotingLedgers ≤ u32Max) .overflow
  set { s with nextClaim := id + 1 }
  saveClaim id
    { id := id, token := token, claimant := claimant, amount := amount, reason := reason,
      invoiceId := invoiceId, approveWeight := 0, rejectWeight := 0,
      votingEndsLedger := env.sequence + claimVotingLedgers, status := .opened }
  pure id

/-- The claim with one more vote of this weight. -/
def InsuranceClaim.count (claim : InsuranceClaim) (approve : Bool) (weight : ℤ) : InsuranceClaim :=
  if approve then { claim with approveWeight := claim.approveWeight + weight }
  else { claim with rejectWeight := claim.rejectWeight + weight }

def voteInsuranceClaim (env : Ledger PoolMemo) (voter : Address) (claimId : ℕ) (approve : Bool) :
    InsuranceM Unit := do
  requireAuth env voter
  let claim ← loadClaim claimId
  require (claim.status = .opened) (.panic "claim not open")
  require (env.sequence ≤ claim.votingEndsLedger) (.panic "voting period ended")
  let s ← get
  let weight := (s.contributions claim.token).value voter
  require (0 < weight) (.panic "not a pool member")
  let votes := s.votes claimId
  require ((votes.lookup voter).isNone = true) (.panic "already voted")
  set { s with votes := update s.votes claimId (votes.set voter approve) }
  require (InI128 ((if approve then claim.approveWeight else claim.rejectWeight) + weight)) .overflow
  saveClaim claimId (claim.count approve weight)

def claimPayout (claim : InsuranceClaim) (claimId : ℕ) : Transfer PoolMemo :=
  ⟨claim.token, currentContract, claim.claimant, claim.amount, .claim claimId⟩

/-- The amount paid is positive and at most the balance, so the subtraction stays in range. -/
def executeInsuranceClaim (env : Ledger PoolMemo) (claimId : ℕ) : InsuranceM Unit := do
  let claim ← loadClaim claimId
  require (claim.status = .opened) (.panic "claim not open")
  let s ← get
  let total := s.totalContrib claim.token
  require (InI128 (claim.approveWeight * 2)) .overflow
  if total < claim.approveWeight * 2 then
    require (claim.amount ≤ s.balance claim.token) (.panic "claim exceeds pool balance")
    set { s with balance := update s.balance claim.token (s.balance claim.token - claim.amount) }
    poolTransfer env (claimPayout claim claimId)
    saveClaim claimId { claim with status := .paid }
  else
    require (InI128 (claim.rejectWeight * 2)) .overflow
    require (total ≤ claim.rejectWeight * 2 ∨ claim.votingEndsLedger < env.sequence)
      (.panic "claim undecided")
    saveClaim claimId { claim with status := .rejected }

/-! ## Runs -/

inductive InsuranceCall where
  | fund (member token : Address) (amount : ℤ)
  | file (claimant token : Address) (amount : ℤ) (invoiceId : ℕ) (reason : String)
  | vote (voter : Address) (claimId : ℕ) (approve : Bool)
  | execute (claimId : ℕ)
deriving DecidableEq

def insuranceStep (c : Ledger PoolMemo × InsuranceCall) : InsuranceM Unit :=
  match c.2 with
  | .fund member token amount => fundInsurancePool c.1 member token amount
  | .file claimant token amount invoiceId reason =>
      ignore (fileInsuranceClaim c.1 claimant token amount invoiceId reason)
  | .vote voter claimId approve => voteInsuranceClaim c.1 voter claimId approve
  | .execute claimId => executeInsuranceClaim c.1 claimId

/-- A vote as it was counted. -/
structure Ballot where
  voter : Address
  approve : Bool
  weight : ℤ
deriving DecidableEq, Repr

/-- What a voter has paid into the pool that the claim is on. -/
def InsuranceStore.stake (s : InsuranceStore) (id : ℕ) (voter : Address) : ℤ :=
  (s.claims id).elim 0 fun claim => (s.contributions claim.token).value voter

/-- The ballots on each claim after the call. -/
def castBallot (call : InsuranceCall) (ballots : ℕ → List Ballot) (s : InsuranceStore) : ℕ → List Ballot :=
  match call with
  | .vote voter id approve => update ballots id (⟨voter, approve, s.stake id voter⟩ :: ballots id)
  | _ => ballots

/-- A call on the pool with the ballots kept beside the storage. -/
def ballotStep (c : Ledger PoolMemo × InsuranceCall) :
    Call (InsuranceStore × (ℕ → List Ballot)) SplitFault Unit :=
  beside (fun ballots s _ => castBallot c.2 ballots s) (insuranceStep c)

abbrev after (calls : List (Ledger PoolMemo × InsuranceCall)) : InsuranceStore × (ℕ → List Ballot) :=
  runAll ballotStep ({}, fun _ => []) calls

/-! ## The law -/

/-- What a claim has taken from the pool of the token. -/
def claimPaid (token : Address) (o : Option InsuranceClaim) : ℤ :=
  o.elim 0 fun claim => if claim.status = .paid ∧ claim.token = token then claim.amount else 0

def InsuranceStore.paidClaims (s : InsuranceStore) (token : Address) : ℤ :=
  ∑ id ∈ Finset.range s.nextClaim, claimPaid token (s.claims id)

/-- The payments a claim has had, by its status. -/
def claimPayments (o : Option InsuranceClaim) (id : ℕ) : List (Transfer PoolMemo) :=
  o.elim [] fun claim => if claim.status = .paid then [claimPayout claim id] else []

/-- The sum of the weights of the ballots on one side. -/
def castFor (approve : Bool) (ballots : List Ballot) : ℤ :=
  (ballots.map fun b => if b.approve = approve then b.weight else 0).sum

/-- What holds of the pool in every state. -/
structure Exact (s : InsuranceStore) (ballots : ℕ → List Ballot) : Prop where
  balance : ∀ token, s.balance token = s.totalContrib token - s.paidClaims token
  covered : ∀ token, 0 ≤ s.balance token
  total : ∀ token, s.totalContrib token = (s.contributions token).total
  weights : ∀ id claim, s.claims id = some claim →
    claim.approveWeight = castFor true (ballots id) ∧ claim.rejectWeight = castFor false (ballots id) ∧
      ((ballots id).map Ballot.voter).Nodup ∧
      claim.approveWeight + claim.rejectWeight ≤ s.totalContrib claim.token
  payments : ∀ id, s.log.filter (fun m => m.memo = .claim id) = claimPayments (s.claims id) id

/-- However the calls go on, as long as nobody pays into the pool of the token, the claim is not paid
and does not reach a majority. -/
def Hopeless (s : InsuranceStore) (id : ℕ) (token : Address) : Prop :=
  ∀ more, Along (fun _ d => ∀ member amount, d.2 ≠ .fund member token amount) insuranceStep s more →
    ∀ claim, (runAll insuranceStep s more).claims id = some claim →
      claim.status ≠ .paid ∧ claim.approveWeight * 2 ≤ (runAll insuranceStep s more).totalContrib token

/-- What a call does to the claims. -/
structure Settles (c : Ledger PoolMemo × InsuranceCall) (s t : InsuranceStore) : Prop where
  files : ∀ id claim, s.claims id = none → t.claims id = some claim → claim.status = .opened
  settled : ∀ id claim, s.claims id = some claim → claim.status ≠ .opened → t.claims id = some claim
  pays : ∀ id claim claim', s.claims id = some claim → claim.status = .opened →
    t.claims id = some claim' → claim'.status = .paid →
      c.2 = .execute id ∧ s.totalContrib claim.token < claim.approveWeight * 2
  early : ∀ id claim claim', s.claims id = some claim → claim.status = .opened →
    t.claims id = some claim' → claim'.status = .rejected → c.1.sequence ≤ claim.votingEndsLedger →
      Hopeless s id claim.token

/-! ## What the calls do -/

section Calls

variable {env : Ledger PoolMemo} {s t : InsuranceStore} {v : Unit} {id n : ℕ} {claim : InsuranceClaim}
  {amount : ℤ} {member token voter claimant : Address} {approve : Bool}

@[simp] theorem poolTransfer_ok {m : Transfer PoolMemo} :
    poolTransfer env m s = .ok (v, t) ↔ env.accepts s.log m = true ∧ { s with log := m :: s.log } = t := by
  simp [poolTransfer]

theorem loadClaim_bind {β : Type} {k : InsuranceClaim → InsuranceM β} {r : β × InsuranceStore} :
    (loadClaim id >>= k) s = .ok r ↔ ∃ claim, s.claims id = some claim ∧ k claim s = .ok r := by
  simp only [loadClaim, bind_assoc, get_bind, orPanic_bind]

@[simp] theorem saveClaim_ok :
    saveClaim id claim s = .ok (v, t) ↔ { s with claims := update s.claims id (some claim) } = t := by
  simp [saveClaim]

theorem fundInsurancePool_ok (hrun : fundInsurancePool env member token amount s = .ok (v, t)) :
    0 < amount ∧ member ≠ currentContract ∧
      t = { s with
        balance := update s.balance token (s.balance token + amount)
        contributions := update s.contributions token
          ((s.contributions token).set member ((s.contributions token).value member + amount))
        totalContrib := update s.totalContrib token (s.totalContrib token + amount)
        log := ⟨token, member, currentContract, amount, .funding⟩ :: s.log } := by
  simp only [fundInsurancePool, requireAuth_bind, require_bind] at hrun
  obtain ⟨⟨-, hmember⟩, hpos, hrun⟩ := hrun
  obtain ⟨_, u, htransfer, hrun⟩ := bind_ok.1 hrun
  obtain ⟨-, rfl⟩ := poolTransfer_ok.1 htransfer
  simp only [get_bind, require_bind, set_ok] at hrun
  obtain ⟨-, -, -, rfl⟩ := hrun
  exact ⟨hpos, hmember, rfl⟩

theorem fileInsuranceClaim_ok {invoiceId : ℕ} {reason : String}
    (hrun : fileInsuranceClaim env claimant token amount invoiceId reason s = .ok (n, t)) :
    ∃ claim, claim.id = s.nextClaim ∧ claim.status = .opened ∧ claim.approveWeight = 0 ∧
      claim.rejectWeight = 0 ∧ 0 < claim.amount ∧
      t = { s with nextClaim := s.nextClaim + 1, claims := update s.claims s.nextClaim (some claim) } := by
  simp only [fileInsuranceClaim, requireAuth_bind, require_bind, get_bind] at hrun
  obtain ⟨-, hpos, -, -, -, hrun⟩ := hrun
  obtain ⟨_, u, hset, hrun⟩ := bind_ok.1 hrun
  obtain rfl := set_ok.1 hset
  obtain ⟨_, u, hsave, hrun⟩ := bind_ok.1 hrun
  obtain rfl := saveClaim_ok.1 hsave
  obtain ⟨-, rfl⟩ := pure_ok.1 hrun
  exact ⟨_, rfl, rfl, rfl, rfl, hpos, rfl⟩

theorem voteInsuranceClaim_ok (hrun : voteInsuranceClaim env voter id approve s = .ok (v, t)) :
    ∃ claim, s.claims id = some claim ∧ claim.status = .opened ∧
      0 < (s.contributions claim.token).value voter ∧ (s.votes id).lookup voter = none ∧
      t = { s with
        votes := update s.votes id ((s.votes id).set voter approve)
        claims := update s.claims id
          (some (claim.count approve ((s.contributions claim.token).value voter))) } := by
  simp only [voteInsuranceClaim, requireAuth_bind, loadClaim_bind, require_bind, get_bind,
    Option.isNone_iff_eq_none] at hrun
  obtain ⟨-, claim, hclaim, hopen, -, hweight, hnew, hrun⟩ := hrun
  obtain ⟨_, u, hset, hrun⟩ := bind_ok.1 hrun
  obtain rfl := set_ok.1 hset
  rw [require_bind, saveClaim_ok] at hrun
  obtain ⟨-, rfl⟩ := hrun
  exact ⟨claim, hclaim, hopen, hweight, hnew, rfl⟩

/-- A claim that is executed has a majority and is paid, or it is rejected. -/
theorem executeInsuranceClaim_ok (hrun : executeInsuranceClaim env id s = .ok (v, t)) :
    ∃ claim, s.claims id = some claim ∧ claim.status = .opened ∧
      ((s.totalContrib claim.token < claim.approveWeight * 2 ∧ claim.amount ≤ s.balance claim.token ∧
        t = { s with
          balance := update s.balance claim.token (s.balance claim.token - claim.amount)
          claims := update s.claims id (some { claim with status := .paid })
          log := claimPayout claim id :: s.log }) ∨
      (¬s.totalContrib claim.token < claim.approveWeight * 2 ∧
        (s.totalContrib claim.token ≤ claim.rejectWeight * 2 ∨ claim.votingEndsLedger < env.sequence) ∧
        t = { s with claims := update s.claims id (some { claim with status := .rejected }) })) := by
  simp only [executeInsuranceClaim, loadClaim_bind, require_bind, get_bind] at hrun
  obtain ⟨claim, hclaim, hopen, -, hrun⟩ := hrun
  refine ⟨claim, hclaim, hopen, ?_⟩
  split_ifs at hrun with hmajority
  · rw [require_bind] at hrun
    obtain ⟨hcovered, hrun⟩ := hrun
    obtain ⟨_, u, hset, hrun⟩ := bind_ok.1 hrun
    obtain rfl := set_ok.1 hset
    obtain ⟨_, u, htransfer, hrun⟩ := bind_ok.1 hrun
    obtain ⟨-, rfl⟩ := poolTransfer_ok.1 htransfer
    obtain rfl := saveClaim_ok.1 hrun
    exact .inl ⟨hmajority, hcovered, rfl⟩
  · rw [require_bind, require_bind, saveClaim_ok] at hrun
    obtain ⟨-, hdecided, rfl⟩ := hrun
    exact .inr ⟨hmajority, hdecided, rfl⟩

end Calls

/-! ## Ballots -/

section Ballots

variable {l : List Ballot} {b : Ballot} {approve : Bool}

theorem castFor_cons (approve : Bool) (b : Ballot) (l : List Ballot) :
    castFor approve (b :: l) = (if b.approve = approve then b.weight else 0) + castFor approve l := rfl

/-- Every ballot is on one of the two sides. -/
theorem castFor_add (l : List Ballot) : castFor true l + castFor false l = (l.map Ballot.weight).sum := by
  induction l with
  | nil => rfl
  | cons b l ih =>
      rw [castFor_cons, castFor_cons, List.map_cons, List.sum_cons, ← ih]
      cases b.approve
      · simp only [Bool.false_eq_true, if_false, if_true]
        ring
      · simp only [Bool.true_eq_false, if_false, if_true]
        ring

/-- Ballots of distinct voters that weigh at most what each has paid in weigh at most the total. -/
theorem sum_weight_le {m : KeyMap ℤ} (hm : ∀ e ∈ m.entries, 0 ≤ e.2) (hl : (l.map Ballot.voter).Nodup)
    (hweight : ∀ b ∈ l, b.weight ≤ m.value b.voter) : (l.map Ballot.weight).sum ≤ m.total := by
  have hvalues : (l.map Ballot.weight).sum ≤ (l.map fun b => m.value b.voter).sum :=
    List.sum_le_sum hweight
  have htotal := m.sum_value_le_total hm hl
  rw [List.map_map] at htotal
  exact hvalues.trans htotal

end Ballots

/-! ## The invariant -/

variable {s t : InsuranceStore} {ballots : ℕ → List Ballot} {id : ℕ} {claim claim' : InsuranceClaim}
  {token member voter : Address} {amount : ℤ} {v : Unit} {approve : Bool}
  {c : Ledger PoolMemo × InsuranceCall}

/-- Every ballot is the first of its voter and weighs at most what the voter has paid in by now; the
claims before the next one have the weights of their ballots. -/
structure Sound (s : InsuranceStore) (ballots : ℕ → List Ballot) : Prop where
  positive : ∀ token, ∀ e ∈ (s.contributions token).entries, 0 ≤ e.2
  total : ∀ token, s.totalContrib token = (s.contributions token).total
  balance : ∀ token, s.balance token = s.totalContrib token - s.paidClaims token
  covered : ∀ token, 0 ≤ s.balance token
  filed : ∀ id claim, s.claims id = some claim → id < s.nextClaim ∧ 0 < claim.amount
  unfiled : ∀ id, s.claims id = none → ballots id = []
  voted : ∀ id voter, (s.votes id).lookup voter = none → voter ∉ (ballots id).map Ballot.voter
  once : ∀ id, ((ballots id).map Ballot.voter).Nodup
  weights : ∀ id claim, s.claims id = some claim →
    claim.approveWeight = castFor true (ballots id) ∧ claim.rejectWeight = castFor false (ballots id)
  stakes : ∀ id claim, s.claims id = some claim →
    ∀ b ∈ ballots id, 0 < b.weight ∧ b.weight ≤ (s.contributions claim.token).value b.voter
  payments : ∀ id, s.log.filter (fun m => m.memo = .claim id) = claimPayments (s.claims id) id

namespace InsuranceClaim

@[simp] theorem count_status (weight : ℤ) : (claim.count approve weight).status = claim.status := by
  unfold count
  split_ifs <;> rfl

@[simp] theorem count_token (weight : ℤ) : (claim.count approve weight).token = claim.token := by
  unfold count
  split_ifs <;> rfl

@[simp] theorem count_amount (weight : ℤ) : (claim.count approve weight).amount = claim.amount := by
  unfold count
  split_ifs <;> rfl

@[simp] theorem count_approveWeight (weight : ℤ) :
    (claim.count approve weight).approveWeight = (if approve = true then weight else 0) + claim.approveWeight := by
  unfold count
  split_ifs
  · exact add_comm _ _
  · exact (zero_add _).symm

@[simp] theorem count_rejectWeight (weight : ℤ) :
    (claim.count approve weight).rejectWeight = (if approve = false then weight else 0) + claim.rejectWeight := by
  unfold count
  cases approve
  · exact add_comm _ _
  · exact (zero_add _).symm

end InsuranceClaim

theorem stake_eq (hclaim : s.claims id = some claim) :
    s.stake id voter = (s.contributions claim.token).value voter := by
  rw [InsuranceStore.stake, hclaim, Option.elim_some]

/-- Replacing a claim changes what the pool has paid by the difference. -/
theorem paidClaims_update (token : Address) (hid : id < s.nextClaim) (hclaim : s.claims id = some claim) (claim' : InsuranceClaim) :
    InsuranceStore.paidClaims { s with claims := update s.claims id (some claim') } token =
      s.paidClaims token - claimPaid token (some claim) + claimPaid token (some claim') := by
  have hchange : ∑ j ∈ Finset.range s.nextClaim, claimPaid token (update s.claims id (some claim') j) =
      ∑ j ∈ Finset.range s.nextClaim, claimPaid token (s.claims j) - claimPaid token (s.claims id) +
        claimPaid token (update s.claims id (some claim') id) :=
    Totals.sum_change (Finset.mem_range.2 hid) fun j hj => by rw [update_of_ne hj]
  rwa [update_self, hclaim] at hchange

namespace Sound

theorem start : Sound {} fun _ => [] where
  positive _ _ he := nomatch he
  total _ := rfl
  balance _ := rfl
  covered _ := le_rfl
  filed _ _ h := nomatch h
  unfiled _ _ := rfl
  voted _ _ _ := List.not_mem_nil
  once _ := List.nodup_nil
  weights _ _ h := nomatch h
  stakes _ _ h := nomatch h
  payments _ := rfl

theorem fund (h : Sound s ballots) (hpos : 0 < amount) :
    Sound { s with
      balance := update s.balance token (s.balance token + amount)
      contributions := update s.contributions token
        ((s.contributions token).set member ((s.contributions token).value member + amount))
      totalContrib := update s.totalContrib token (s.totalContrib token + amount)
      log := ⟨token, member, currentContract, amount, .funding⟩ :: s.log } ballots := by
  have hnonneg := (s.contributions token).value_nonneg (h.positive token) member
  have hgrows : ∀ tok voter, (s.contributions tok).value voter ≤ (update s.contributions token
      ((s.contributions token).set member ((s.contributions token).value member + amount)) tok).value voter := by
    intro tok voter
    rcases eq_or_ne tok token with rfl | htok
    · rw [update_self]
      rcases eq_or_ne voter member with rfl | hvoter
      · rw [KeyMap.value_set_self]
        omega
      · rw [KeyMap.value_set_ne _ hvoter]
    · rw [update_of_ne htok]
  refine ⟨fun tok e he => ?_, fun tok => ?_, fun tok => ?_, fun tok => ?_, h.filed, h.unfiled, h.voted,
    h.once, h.weights, fun id claim hclaim b hb => ?_, fun id => ?_⟩
  · rcases eq_or_ne tok token with rfl | htok
    · simp only [update_self] at he
      rcases KeyMap.mem_set he with rfl | he
      · exact add_nonneg hnonneg hpos.le
      · exact h.positive tok e he
    · simp only [update_of_ne htok] at he
      exact h.positive tok e he
  · rcases eq_or_ne tok token with rfl | htok
    · simp only [update_self, KeyMap.total_set, h.total]
      ring
    · simp only [update_of_ne htok, h.total]
  · have hbefore := h.balance tok
    rcases eq_or_ne tok token with rfl | htok
    · simp only [update_self, hbefore]
      unfold InsuranceStore.paidClaims
      ring
    · simp only [update_of_ne htok, hbefore]
      rfl
  · have hbefore := h.covered tok
    rcases eq_or_ne tok token with rfl | htok
    · simp only [update_self]
      omega
    · simpa only [update_of_ne htok] using hbefore
  · obtain ⟨hweight, hle⟩ := h.stakes id claim hclaim b hb
    exact ⟨hweight, hle.trans (hgrows claim.token b.voter)⟩
  · simpa using h.payments id

theorem unused (h : Sound s ballots) : s.claims s.nextClaim = none := by
  cases hclaim : s.claims s.nextClaim with
  | none => rfl
  | some claim => exact absurd (h.filed _ claim hclaim).1 (lt_irrefl _)

theorem file (h : Sound s ballots) (hopen : claim.status = .opened) (happrove : claim.approveWeight = 0)
    (hreject : claim.rejectWeight = 0) (hpos : 0 < claim.amount) :
    Sound { s with nextClaim := s.nextClaim + 1, claims := update s.claims s.nextClaim (some claim) }
      ballots := by
  have hnone := h.unused
  have hempty := h.unfiled _ hnone
  have hpaid : ∀ tok, InsuranceStore.paidClaims
      { s with nextClaim := s.nextClaim + 1, claims := update s.claims s.nextClaim (some claim) } tok =
        s.paidClaims tok := by
    intro tok
    have hgrow : ∑ j ∈ Finset.range (s.nextClaim + 1),
        claimPaid tok (update s.claims s.nextClaim (some claim) j) =
          ∑ j ∈ Finset.range s.nextClaim, claimPaid tok (s.claims j) +
            claimPaid tok (update s.claims s.nextClaim (some claim) s.nextClaim) :=
      Totals.sum_range_grow fun j hj => by rw [update_of_ne hj.ne]
    have hzero : claimPaid tok (some claim) = 0 := by simp [claimPaid, hopen]
    rwa [update_self, hzero, add_zero] at hgrow
  refine ⟨h.positive, h.total, fun tok => ?_, h.covered, fun id claim₁ hclaim₁ => ?_, fun id hid => ?_,
    h.voted, h.once, fun id claim₁ hclaim₁ => ?_, fun id claim₁ hclaim₁ b hb => ?_, fun id => ?_⟩
  · rw [hpaid]
    exact h.balance tok
  · rcases update_cases hclaim₁ with ⟨rfl, rfl⟩ | ⟨-, hold⟩
    · exact ⟨Nat.lt_succ_self _, hpos⟩
    · obtain ⟨hlt, hamount⟩ := h.filed id claim₁ hold
      exact ⟨hlt.trans (Nat.lt_succ_self _), hamount⟩
  · rcases eq_or_ne id s.nextClaim with rfl | hne
    · exact hempty
    · simp only [update_of_ne hne] at hid
      exact h.unfiled id hid
  · rcases update_cases hclaim₁ with ⟨rfl, rfl⟩ | ⟨-, hold⟩
    · rw [hempty, happrove, hreject]
      exact ⟨rfl, rfl⟩
    · exact h.weights id claim₁ hold
  · rcases update_cases hclaim₁ with ⟨rfl, rfl⟩ | ⟨-, hold⟩
    · rw [hempty] at hb
      cases hb
    · exact h.stakes id claim₁ hold b hb
  · have hbefore := h.payments id
    rcases eq_or_ne id s.nextClaim with rfl | hne
    · simpa [hnone, claimPayments, hopen] using hbefore
    · simpa only [update_of_ne hne] using hbefore

theorem vote (h : Sound s ballots) (hclaim : s.claims id = some claim) (hopen : claim.status = .opened)
    (hweight : 0 < (s.contributions claim.token).value voter) (hnew : (s.votes id).lookup voter = none) :
    Sound { s with
        votes := update s.votes id ((s.votes id).set voter approve)
        claims := update s.claims id
          (some (claim.count approve ((s.contributions claim.token).value voter))) }
      (update ballots id (⟨voter, approve, s.stake id voter⟩ :: ballots id)) := by
  obtain ⟨hlt, hamount⟩ := h.filed id claim hclaim
  rw [stake_eq hclaim]
  refine ⟨h.positive, h.total, fun tok => ?_, h.covered, fun j claim₁ hj => ?_, fun j hj => ?_,
    fun j other hj => ?_, fun j => ?_, fun j claim₁ hj => ?_, fun j claim₁ hj b hb => ?_, fun j => ?_⟩
  · have hsame := paidClaims_update tok hlt hclaim
      (claim.count approve ((s.contributions claim.token).value voter))
    have hpaid : claimPaid tok (some (claim.count approve ((s.contributions claim.token).value voter))) =
        claimPaid tok (some claim) := by simp [claimPaid]
    rw [hpaid, sub_add_cancel] at hsame
    rw [h.balance tok, ← hsame]
    rfl
  · rcases update_cases hj with ⟨rfl, rfl⟩ | ⟨-, hold⟩
    · simpa using ⟨hlt, hamount⟩
    · exact h.filed j claim₁ hold
  · rcases eq_or_ne j id with rfl | hne
    · simp at hj
    · simp only [update_of_ne hne] at hj ⊢
      exact h.unfiled j hj
  · rcases eq_or_ne j id with rfl | hne
    · simp only [update_self] at hj ⊢
      rcases eq_or_ne other voter with rfl | hother
      · simp at hj
      · rw [KeyMap.lookup_set_ne _ hother] at hj
        simpa [hother] using h.voted j other hj
    · simp only [update_of_ne hne] at hj ⊢
      exact h.voted j other hj
  · rcases eq_or_ne j id with rfl | hne
    · rw [update_self, List.map_cons, List.nodup_cons]
      exact ⟨h.voted j voter hnew, h.once j⟩
    · rw [update_of_ne hne]
      exact h.once j
  · rcases eq_or_ne j id with rfl | hne
    · simp only [update_self, Option.some.injEq] at hj ⊢
      subst hj
      obtain ⟨happrove, hreject⟩ := h.weights j claim hclaim
      rw [castFor_cons, castFor_cons, InsuranceClaim.count_approveWeight, InsuranceClaim.count_rejectWeight,
        happrove, hreject]
      exact ⟨rfl, rfl⟩
    · simp only [update_of_ne hne] at hj ⊢
      exact h.weights j claim₁ hj
  · rcases eq_or_ne j id with rfl | hne
    · simp only [update_self, Option.some.injEq] at hj hb
      subst hj
      rw [InsuranceClaim.count_token]
      rcases List.mem_cons.1 hb with rfl | hb
      · exact ⟨hweight, le_rfl⟩
      · exact h.stakes j claim hclaim b hb
    · simp only [update_of_ne hne] at hj hb
      exact h.stakes j claim₁ hj b hb
  · have hbefore := h.payments j
    rcases eq_or_ne j id with rfl | hne
    · rw [hclaim] at hbefore
      simpa [claimPayments, hopen] using hbefore
    · simpa only [update_of_ne hne] using hbefore

/-- Closing a claim, with or without a payment, touches neither the ballots nor the contributions. -/
theorem close (h : Sound s ballots) (hclaim : s.claims id = some claim)
    {status : ClaimStatus} {balance : Address → ℤ} {log : List (Transfer PoolMemo)}
    (hbalance : ∀ tok, balance tok = s.balance tok -
      (claimPaid tok (some { claim with status := status }) - claimPaid tok (some claim)))
    (hcovered : ∀ tok, 0 ≤ balance tok)
    (hlog : ∀ j, log.filter (fun m => m.memo = .claim j) =
      if j = id then claimPayments (some { claim with status := status }) id
      else s.log.filter fun m => m.memo = .claim j) :
    Sound { s with
      balance := balance, claims := update s.claims id (some { claim with status := status }), log := log }
      ballots := by
  obtain ⟨hlt, hamount⟩ := h.filed id claim hclaim
  have hcases : ∀ j claim₁, update s.claims id (some { claim with status := status }) j = some claim₁ →
      ∃ claim₂, s.claims j = some claim₂ ∧ claim₁.token = claim₂.token ∧ claim₁.amount = claim₂.amount ∧
        claim₁.approveWeight = claim₂.approveWeight ∧ claim₁.rejectWeight = claim₂.rejectWeight := by
    refine forall_update (fun j claim₁ hj => ?_) ⟨claim, hclaim, rfl, rfl, rfl, rfl⟩
    exact ⟨claim₁, hj, rfl, rfl, rfl, rfl⟩
  refine ⟨h.positive, h.total, fun tok => ?_, hcovered, fun j claim₁ hj => ?_, fun j hj => ?_, h.voted, h.once,
    fun j claim₁ hj => ?_, fun j claim₁ hj b hb => ?_, fun j => ?_⟩
  · have hchange := paidClaims_update tok hlt hclaim { claim with status := status }
    have hpaid : InsuranceStore.paidClaims { s with
        balance := balance, claims := update s.claims id (some { claim with status := status }), log := log } tok =
        InsuranceStore.paidClaims { s with claims := update s.claims id (some { claim with status := status }) }
          tok := rfl
    rw [hpaid, hchange]
    dsimp only
    rw [hbalance, h.balance tok]
    ring
  · obtain ⟨claim₂, hj₂, -, hamount₂, -⟩ := hcases j claim₁ hj
    rw [hamount₂]
    exact h.filed j claim₂ hj₂
  · rcases eq_or_ne j id with rfl | hne
    · simp at hj
    · simp only [update_of_ne hne] at hj
      exact h.unfiled j hj
  · obtain ⟨claim₂, hj₂, -, -, happrove, hreject⟩ := hcases j claim₁ hj
    rw [happrove, hreject]
    exact h.weights j claim₂ hj₂
  · obtain ⟨claim₂, hj₂, htoken, -⟩ := hcases j claim₁ hj
    rw [htoken]
    exact h.stakes j claim₂ hj₂ b hb
  · dsimp only
    rw [hlog]
    split_ifs with hj
    · subst hj
      rw [update_self]
    · rw [update_of_ne hj]
      exact h.payments j

theorem pay (h : Sound s ballots) (hclaim : s.claims id = some claim) (hopen : claim.status = .opened)
    (hcovered : claim.amount ≤ s.balance claim.token) :
    Sound { s with
      balance := update s.balance claim.token (s.balance claim.token - claim.amount)
      claims := update s.claims id (some { claim with status := .paid })
      log := claimPayout claim id :: s.log } ballots := by
  refine h.close hclaim (fun tok => ?_) (fun tok => ?_) fun j => ?_
  · rcases eq_or_ne tok claim.token with rfl | htok
    · simp [claimPaid, hopen]
    · simp [claimPaid, hopen, update_of_ne htok, htok.symm]
  · rcases eq_or_ne tok claim.token with rfl | htok
    · rw [update_self]
      exact sub_nonneg.2 hcovered
    · rw [update_of_ne htok]
      exact h.covered tok
  · have hbefore := h.payments id
    rw [hclaim] at hbefore
    split_ifs with hj
    · subst hj
      simpa [claimPayments, claimPayout, hopen] using hbefore
    · simp [claimPayout, Ne.symm hj]

theorem reject (h : Sound s ballots) (hclaim : s.claims id = some claim) (hopen : claim.status = .opened) :
    Sound { s with claims := update s.claims id (some { claim with status := .rejected }) } ballots := by
  refine h.close hclaim (fun tok => ?_) h.covered fun j => ?_
  · simp [claimPaid, hopen]
  · have hbefore := h.payments id
    rw [hclaim] at hbefore
    split_ifs with hj
    · subst hj
      simpa [claimPayments, hopen] using hbefore
    · rfl

/-- A movement of another pool does not concern the claims. -/
theorem frame (h : Sound s ballots) {m : Transfer PoolMemo} (hm : ∀ id, m.memo ≠ .claim id) :
    Sound { s with log := m :: s.log } ballots := by
  refine ⟨h.positive, h.total, h.balance, h.covered, h.filed, h.unfiled, h.voted, h.once, h.weights, h.stakes,
    fun id => ?_⟩
  rw [List.filter_cons_of_neg (by simpa using hm id)]
  exact h.payments id

/-- The two sides of a vote weigh at most what has been paid in. -/
theorem weight_le (h : Sound s ballots) (hclaim : s.claims id = some claim) :
    claim.approveWeight + claim.rejectWeight ≤ s.totalContrib claim.token := by
  obtain ⟨happrove, hreject⟩ := h.weights id claim hclaim
  rw [happrove, hreject, castFor_add, h.total]
  exact sum_weight_le (h.positive claim.token) (h.once id) fun b hb => (h.stakes id claim hclaim b hb).2

theorem exact (h : Sound s ballots) : Exact s ballots where
  balance := h.balance
  covered := h.covered
  total := h.total
  weights id claim hclaim := by
    obtain ⟨happrove, hreject⟩ := h.weights id claim hclaim
    exact ⟨happrove, hreject, h.once id, h.weight_le hclaim⟩
  payments := h.payments

end Sound

theorem insuranceStep_sound (hs : Sound s ballots) (hrun : insuranceStep c s = .ok (v, t)) :
    Sound t (castBallot c.2 ballots s) := by
  obtain ⟨env, call⟩ := c
  cases call with
  | fund member token amount =>
      obtain ⟨hpos, -, rfl⟩ := fundInsurancePool_ok hrun
      exact hs.fund hpos
  | file claimant token amount invoiceId reason =>
      obtain ⟨n, h⟩ := ignore_ok.1 hrun
      obtain ⟨claim, -, hopen, happrove, hreject, hpos, rfl⟩ := fileInsuranceClaim_ok h
      exact hs.file hopen happrove hreject hpos
  | vote voter id approve =>
      obtain ⟨claim, hclaim, hopen, hweight, hnew, rfl⟩ := voteInsuranceClaim_ok hrun
      exact hs.vote hclaim hopen hweight hnew
  | execute id =>
      obtain ⟨claim, hclaim, hopen, hpay | hreject⟩ := executeInsuranceClaim_ok hrun
      · obtain ⟨-, hcovered, rfl⟩ := hpay
        exact hs.pay hclaim hopen hcovered
      · obtain ⟨-, -, rfl⟩ := hreject
        exact hs.reject hclaim hopen

theorem after_sound (calls : List (Ledger PoolMemo × InsuranceCall)) : Sound (after calls).1 (after calls).2 := by
  refine runAll_invariant (I := fun p : InsuranceStore × (ℕ → List Ballot) => Sound p.1 p.2) ?_ Sound.start
    calls
  rintro ⟨s, ballots⟩ c v ⟨t, ballots'⟩ hs hrun
  obtain ⟨hcall, rfl⟩ := beside_ok.1 hrun
  exact insuranceStep_sound hs hcall

/-! ## Claims over a run -/

/-- What a call does to a claim that exists: it stays, takes one more ballot, or is settled. -/
theorem insuranceStep_claim (hs : Sound s ballots) (hrun : insuranceStep c s = .ok (v, t))
    (hclaim : s.claims id = some claim) :
    t.claims id = some claim ∨
    (claim.status = .opened ∧ ∃ voter approve, c.2 = .vote voter id approve ∧
      0 < (s.contributions claim.token).value voter ∧
      t.claims id = some (claim.count approve ((s.contributions claim.token).value voter))) ∨
    (claim.status = .opened ∧ c.2 = .execute id ∧
      ((s.totalContrib claim.token < claim.approveWeight * 2 ∧
        t.claims id = some { claim with status := .paid }) ∨
      (¬s.totalContrib claim.token < claim.approveWeight * 2 ∧
        (s.totalContrib claim.token ≤ claim.rejectWeight * 2 ∨ claim.votingEndsLedger < c.1.sequence) ∧
        t.claims id = some { claim with status := .rejected }))) := by
  obtain ⟨env, call⟩ := c
  cases call with
  | fund member token amount =>
      obtain ⟨-, -, rfl⟩ := fundInsurancePool_ok hrun
      exact .inl hclaim
  | file claimant token amount invoiceId reason =>
      obtain ⟨n, h⟩ := ignore_ok.1 hrun
      obtain ⟨claim₁, -, -, -, -, -, rfl⟩ := fileInsuranceClaim_ok h
      have hlt := (hs.filed id claim hclaim).1
      exact .inl ((update_of_ne hlt.ne _ _).trans hclaim)
  | vote voter j approve =>
      obtain ⟨claim₁, hclaim₁, hopen, hweight, -, rfl⟩ := voteInsuranceClaim_ok hrun
      rcases eq_or_ne id j with rfl | hne
      · obtain rfl := Option.some.inj (hclaim.symm.trans hclaim₁)
        exact .inr (.inl ⟨hopen, voter, approve, rfl, hweight, update_self ..⟩)
      · exact .inl ((update_of_ne hne _ _).trans hclaim)
  | execute j =>
      obtain ⟨claim₁, hclaim₁, hopen, hsettle⟩ := executeInsuranceClaim_ok hrun
      rcases eq_or_ne id j with rfl | hne
      · obtain rfl := Option.some.inj (hclaim.symm.trans hclaim₁)
        refine .inr (.inr ⟨hopen, rfl, ?_⟩)
        obtain ⟨hmajority, -, rfl⟩ | ⟨hminority, hdecided, rfl⟩ := hsettle
        · exact .inl ⟨hmajority, update_self ..⟩
        · exact .inr ⟨hminority, hdecided, update_self ..⟩
      · obtain ⟨-, -, rfl⟩ | ⟨-, -, rfl⟩ := hsettle
        · exact .inl ((update_of_ne hne _ _).trans hclaim)
        · exact .inl ((update_of_ne hne _ _).trans hclaim)

theorem insuranceStep_new (hrun : insuranceStep c s = .ok (v, t)) (hnone : s.claims id = none)
    (hclaim : t.claims id = some claim) : claim.status = .opened := by
  obtain ⟨env, call⟩ := c
  cases call with
  | fund member token amount =>
      obtain ⟨-, -, rfl⟩ := fundInsurancePool_ok hrun
      exact absurd (hnone.symm.trans hclaim) nofun
  | file claimant token amount invoiceId reason =>
      obtain ⟨n, h⟩ := ignore_ok.1 hrun
      obtain ⟨claim₁, -, hopen, -, -, -, rfl⟩ := fileInsuranceClaim_ok h
      rcases update_cases hclaim with ⟨-, rfl⟩ | ⟨-, hold⟩
      · exact hopen
      · cases hnone.symm.trans hold
  | vote voter j approve =>
      obtain ⟨claim₁, hclaim₁, hopen, -, -, rfl⟩ := voteInsuranceClaim_ok hrun
      rcases eq_or_ne id j with rfl | hne
      · cases hnone.symm.trans hclaim₁
      · simp only [update_of_ne hne, hnone] at hclaim
        cases hclaim
  | execute j =>
      obtain ⟨claim₁, hclaim₁, -, ⟨-, -, rfl⟩ | ⟨-, -, rfl⟩⟩ := executeInsuranceClaim_ok hrun
      · rcases eq_or_ne id j with rfl | hne
        · cases hnone.symm.trans hclaim₁
        · simp only [update_of_ne hne, hnone] at hclaim
          cases hclaim
      · rcases eq_or_ne id j with rfl | hne
        · cases hnone.symm.trans hclaim₁
        · simp only [update_of_ne hne, hnone] at hclaim
          cases hclaim

theorem insuranceStep_totalContrib (hrun : insuranceStep c s = .ok (v, t))
    (hfund : ∀ member amount, c.2 ≠ .fund member token amount) : t.totalContrib token = s.totalContrib token := by
  obtain ⟨env, call⟩ := c
  cases call with
  | fund member token' amount =>
      obtain ⟨-, -, rfl⟩ := fundInsurancePool_ok hrun
      have hne : token ≠ token' := by
        rintro rfl
        exact hfund member amount rfl
      exact update_of_ne hne _ _
  | file claimant token' amount invoiceId reason =>
      obtain ⟨n, h⟩ := ignore_ok.1 hrun
      obtain ⟨claim₁, -, -, -, -, -, rfl⟩ := fileInsuranceClaim_ok h
      rfl
  | vote voter j approve =>
      obtain ⟨claim₁, -, -, -, -, rfl⟩ := voteInsuranceClaim_ok hrun
      rfl
  | execute j =>
      obtain ⟨claim₁, -, -, ⟨-, -, rfl⟩ | ⟨-, -, rfl⟩⟩ := executeInsuranceClaim_ok hrun
      · rfl
      · rfl

/-- At least half of what has been paid in rejects the claim, which has not been paid. -/
def Blocked (s : InsuranceStore) (id : ℕ) (token : Address) : Prop :=
  ∃ claim, s.claims id = some claim ∧ claim.token = token ∧ claim.status ≠ .paid ∧
    s.totalContrib token ≤ claim.rejectWeight * 2

theorem Blocked.minority (hblocked : Blocked s id token) (hs : Sound s ballots) (hclaim : s.claims id = some claim) :
    claim.status ≠ .paid ∧ claim.approveWeight * 2 ≤ s.totalContrib token := by
  obtain ⟨claim₁, hclaim₁, rfl, hunpaid, hreject⟩ := hblocked
  obtain rfl := Option.some.inj (hclaim.symm.trans hclaim₁)
  have hle := hs.weight_le hclaim
  exact ⟨hunpaid, by omega⟩

/-- The rejecting weight only grows, and the rest cannot outweigh it. -/
theorem Blocked.step (hblocked : Blocked s id token) (hs : Sound s ballots)
    (hfund : ∀ member amount, c.2 ≠ .fund member token amount) (hrun : insuranceStep c s = .ok (v, t)) :
    Blocked t id token := by
  have htotal := insuranceStep_totalContrib hrun hfund
  obtain ⟨claim, hclaim, rfl, hunpaid, hreject⟩ := hblocked
  have hle := hs.weight_le hclaim
  unfold Blocked
  rw [htotal]
  rcases insuranceStep_claim hs hrun hclaim with
    hsame | ⟨-, voter, approve, -, hweight, hvote⟩ | ⟨-, -, ⟨hmajority, -⟩ | ⟨-, -, hrejected⟩⟩
  · exact ⟨claim, hsame, rfl, hunpaid, hreject⟩
  · refine ⟨_, hvote, by simp, by simpa using hunpaid, ?_⟩
    rw [InsuranceClaim.count_rejectWeight]
    split_ifs <;> omega
  · omega
  · exact ⟨_, hrejected, rfl, nofun, hreject⟩

theorem Blocked.hopeless (hblocked : Blocked s id token) (hs : Sound s ballots) : Hopeless s id token := by
  intro more hmore claim hclaim
  have hend : ∃ b, Sound (runAll insuranceStep s more) b ∧ Blocked (runAll insuranceStep s more) id token := by
    refine runAll_induction (I := fun u => ∃ b, Sound u b ∧ Blocked u id token) ?_ ⟨ballots, hs, hblocked⟩ hmore
    rintro u d v w ⟨b, hu, hub⟩ hfund hrun
    exact ⟨_, insuranceStep_sound hu hrun, hub.step hu hfund hrun⟩
  obtain ⟨b, hu, hub⟩ := hend
  exact hub.minority hu hclaim

theorem Sound.settles (hs : Sound s ballots) (hrun : insuranceStep c s = .ok (v, t)) : Settles c s t where
  files id claim hnone hclaim := insuranceStep_new hrun hnone hclaim
  settled id claim hclaim hclosed := by
    rcases insuranceStep_claim hs hrun hclaim with hsame | ⟨hopen, -⟩ | ⟨hopen, -⟩
    · exact hsame
    · exact absurd hopen hclosed
    · exact absurd hopen hclosed
  pays id claim claim' hclaim hopen hclaim' hpaid := by
    rcases insuranceStep_claim hs hrun hclaim with
      hsame | ⟨-, voter, approve, -, -, hvote⟩ | ⟨-, hcall, ⟨hmajority, -⟩ | ⟨-, -, hrejected⟩⟩
    · rw [← Option.some.inj (hsame.symm.trans hclaim'), hopen] at hpaid
      cases hpaid
    · rw [← Option.some.inj (hvote.symm.trans hclaim'), InsuranceClaim.count_status, hopen] at hpaid
      cases hpaid
    · exact ⟨hcall, hmajority⟩
    · rw [← Option.some.inj (hrejected.symm.trans hclaim')] at hpaid
      cases hpaid
  early id claim claim' hclaim hopen hclaim' hrejected hin := by
    refine Blocked.hopeless ⟨claim, hclaim, rfl, by simp [hopen], ?_⟩ hs
    rcases insuranceStep_claim hs hrun hclaim with
      hsame | ⟨-, voter, approve, -, -, hvote⟩ | ⟨-, -, ⟨-, hpaid⟩ | ⟨-, hdecided, -⟩⟩
    · rw [← Option.some.inj (hsame.symm.trans hclaim'), hopen] at hrejected
      cases hrejected
    · rw [← Option.some.inj (hvote.symm.trans hclaim'), InsuranceClaim.count_status, hopen] at hrejected
      cases hrejected
    · rw [← Option.some.inj (hpaid.symm.trans hclaim')] at hrejected
      cases hrejected
    · exact hdecided.resolve_right (not_lt.2 hin)

/-- Whatever the calls, the books of the pool are exact, and the next call pays a claim only by majority
and rejects one before its time only when no vote could still save it. -/
theorem insurance_pool_law (calls : List (Ledger PoolMemo × InsuranceCall)) :
    Exact (after calls).1 (after calls).2 ∧
      ∀ c t, insuranceStep c (after calls).1 = .ok ((), t) → Settles c (after calls).1 t :=
  ⟨(after_sound calls).exact, fun _ _ hrun => (after_sound calls).settles hrun⟩

end StellarSplit.Split.Insurance
