import StellarSplit.Split.Lock

/-!
# Claims of a released invoice

`claim` pays a recipient of a released invoice its share. The share is marked
as taken nowhere: the record is saved as it was loaded, so a recipient whose
mark is not set can claim again and again, on top of what the release paid.
-/

namespace StellarSplit.Split

open Exec Machine

variable {env : Env} {s t u : Store} {v : Unit} {id : ℕ} {inv : Invoice} {recipient : Address}

/-- The shares of the recipients before the last one. -/
def earlierShares (inv : Invoice) (idx : ℕ) : Result ℤ :=
  (List.range idx).foldlM (fun (sum : ℤ) i => do
    let amount ← unwrap inv.amounts[i]?
    let share ← plainMulDiv (asU128 amount) (asU128 inv.funded) (asU128 inv.total)
    .ok (sum + share)) 0

def claimShare (inv : Invoice) (idx : ℕ) : Result ℤ := do
  let amount ← unwrap inv.amounts[idx]?
  if inv.ratios ≠ [] then do
    let ratio ← unwrap inv.ratios[idx]?
    checkedProportion amount ratio inv.ratioDenominator
  else if idx + 1 = inv.recipients.length then do
    let earlier ← earlierShares inv idx
    .ok (inv.funded - earlier)
  else plainMulDiv (asU128 amount) (asU128 inv.funded) (asU128 inv.total)

def claimFee (env : Env) (recipient : Address) (share : ℤ) : Result ℤ :=
  if env.config.recipientFeeWaivers.contains recipient then .ok 0
  else calcPlatformFee share env.config.platformFeeBps

def claim (env : Env) (id : ℕ) (recipient : Address) : SplitM Unit := do
  requireNotPaused env
  requireAuth env.toLedger recipient
  let inv ← loadInvoice id
  require (inv.status = .released) (.panic "invoice not released")
  let idx ← orPanic (inv.recipients.findIdx? (· = recipient)) "recipient not in invoice"
  require (inv.claimed.getD idx 0 = 0) (.panic "recipient already claimed")
  -- the mark of the recipient is not set here
  saveInvoice env id inv
  let share ← ofResult (claimShare inv idx)
  let fee ← ofResult (claimFee env recipient share)
  let tax ← ofResult (plainMulDiv (asU128 share) inv.taxBps 10000)
  let token ← orPanic inv.tokens[idx]? "no token"
  payTax env id inv token tax
  let routed ← executeSmartRoute env inv recipient
  onlyIf (routed = false) (transfer env token recipient (share - fee - tax) ⟨id, .payout⟩)

/-! ## Who can claim -/

/-- The mark of the recipient is not set, and share, tax and token are there. -/
def Claimable (inv : Invoice) (recipient : Address) : Prop :=
  recipient ≠ currentContract ∧ ∃ idx share tax token, inv.recipients.findIdx? (· = recipient) = some idx ∧
    inv.claimed.getD idx 0 = 0 ∧ claimShare inv idx = .ok share ∧
    plainMulDiv (asU128 share) inv.taxBps 10000 = .ok tax ∧ inv.tokens[idx]? = some token ∧
    (0 < tax → inv.taxAuthority.isSome = true)

theorem payTax_ok {token : Address} {tax : ℤ} (hrun : payTax env id inv token tax s = .ok (v, t)) :
    0 < tax → inv.taxAuthority.isSome = true := by
  intro hpos
  rcases onlyIf_ok.1 hrun with ⟨-, hrun⟩ | ⟨hneg, -⟩
  · obtain ⟨authority, hauthority, -⟩ := ofResult_bind.1 hrun
    rw [unwrap_ok.1 hauthority]
    rfl
  · exact absurd hpos hneg

/-- Only a recipient that can claim has a claim that returns. -/
theorem claim_ok (hrun : claim env id recipient s = .ok (v, t)) :
    ∃ inv, (s.entries id).load = some inv ∧ Claimable inv recipient := by
  simp only [claim, requireNotPaused_bind, requireAuth_bind, loadInvoice_bind, require_bind] at hrun
  obtain ⟨-, ⟨-, hother⟩, inv, hload, -, hrun⟩ := hrun
  obtain ⟨idx, hidx, hrun⟩ := orPanic_bind.1 hrun
  obtain ⟨hmark, hrun⟩ := require_bind.1 hrun
  obtain ⟨_, u, -, hrun⟩ := bind_ok.1 hrun
  obtain ⟨share, hshare, hrun⟩ := ofResult_bind.1 hrun
  obtain ⟨fee, -, hrun⟩ := ofResult_bind.1 hrun
  obtain ⟨tax, htax, hrun⟩ := ofResult_bind.1 hrun
  obtain ⟨token, htoken, hrun⟩ := orPanic_bind.1 hrun
  obtain ⟨_, u', hpaid, -⟩ := bind_ok.1 hrun
  exact ⟨inv, hload, hother, idx, share, tax, token, hidx, hmark, hshare, htax, htoken, payTax_ok hpaid⟩

/-- An environment in which nothing is paused, no fee is set and every token pays. -/
def freeEnv : Env where
  now := 0
  sequence := 0
  auth := fun _ => true
  accepts := fun _ _ => true
  calls := fun _ _ => true
  price := fun _ => none
  isVerified := fun _ => true
  accountExists := fun _ _ => true
  hasPath := fun _ _ => false
  sha256 := fun _ => 0
  admits := fun _ _ _ => true
  fitsQuota := fun _ => true
  depth := 0

theorem freeEnv_transfer (s : Store) (token dst : Address) (amount : ℤ) (memo : Memo) :
    ∃ t, transfer freeEnv token dst amount memo s = .ok ((), t) ∧ t.entries = s.entries :=
  ⟨_, transfer_ok.2 ⟨rfl, rfl⟩, rfl⟩

theorem freeEnv_payTax {token : Address} {tax : ℤ} (s : Store)
    (htax : 0 < tax → inv.taxAuthority.isSome = true) :
    ∃ t, payTax freeEnv id inv token tax s = .ok ((), t) ∧ t.entries = s.entries := by
  by_cases hpos : 0 < tax
  · obtain ⟨authority, hauthority⟩ := Option.isSome_iff_exists.1 (htax hpos)
    obtain ⟨t, hsent, hentries⟩ := freeEnv_transfer s token authority tax ⟨id, .tax⟩
    refine ⟨t, onlyIf_ok.2 (.inl ⟨hpos, ?_⟩), hentries⟩
    exact ofResult_bind.2 ⟨authority, unwrap_ok.2 hauthority, hsent⟩
  · exact ⟨s, onlyIf_ok.2 (.inr ⟨hpos, rfl⟩), rfl⟩

theorem freeEnv_route (s : Store) : executeSmartRoute freeEnv inv recipient s = .ok (false, s) := by
  unfold executeSmartRoute
  cases inv.smartRoute <;> rfl

theorem load_save (hload : (s.entries id).load = some inv) :
    ({ s.entries id with invoice := some (inv.withPayments []) } : Entry).load = some inv := by
  obtain ⟨stored, -, rfl⟩ := Option.map_eq_some_iff.1 hload
  rfl

/-- A recipient that can claim has a claim that returns, and can claim again afterwards. -/
theorem claim_returns (hload : (s.entries id).load = some inv) (hreleased : inv.status = .released)
    (hclaim : Claimable inv recipient) :
    ∃ t, claim freeEnv id recipient s = .ok ((), t) ∧ (t.entries id).load = some inv := by
  obtain ⟨hother, idx, share, tax, token, hidx, hmark, hshare, htax, htoken, hauthority⟩ := hclaim
  obtain ⟨u, htaxed, hentries⟩ := freeEnv_payTax 
    (s.setEntry id { s.entries id with invoice := some (inv.withPayments []) }) hauthority
  obtain ⟨t, hsent, hentries'⟩ := freeEnv_transfer u token recipient (share - 0 - tax) ⟨id, .payout⟩
  refine ⟨t, ?_, ?_⟩
  · simp only [claim, requireNotPaused_bind, requireAuth_bind, loadInvoice_bind, require_bind]
    refine ⟨⟨rfl, rfl, rfl⟩, ⟨rfl, hother⟩, inv, hload, hreleased, ?_⟩
    refine orPanic_bind.2 ⟨idx, hidx, require_bind.2 ⟨hmark, ?_⟩⟩
    refine bind_ok.2 ⟨(), _, saveInvoice_ok.2 ⟨rfl, rfl⟩, ?_⟩
    refine ofResult_bind.2 ⟨share, hshare, ofResult_bind.2 ⟨0, rfl, ofResult_bind.2 ⟨tax, htax, ?_⟩⟩⟩
    refine orPanic_bind.2 ⟨token, htoken, bind_ok.2 ⟨(), u, htaxed, ?_⟩⟩
    exact bind_ok.2 ⟨false, u, freeEnv_route u, onlyIf_ok.2 (.inl ⟨rfl, hsent⟩)⟩
  · rw [hentries', hentries, Store.setEntry_self]
    exact load_save hload

/-! ## Runs of claims -/

def claimStep (id : ℕ) (c : Env × Address) : SplitM Unit := claim c.1 id c.2

/-- After a claim that returned, every later claim of the same recipient fails. -/
def ClaimsOnce (id : ℕ) (s : Store) : Prop :=
  ∀ (before between : List (Env × Address)) (first second : Env × Address),
    first.2 = second.2 → (∃ r, claimStep id first (runAll (claimStep id) s before) = .ok r) →
    ∀ r, claimStep id second (runAll (claimStep id) s (before ++ first :: between)) ≠ .ok r

/-- What payouts of the invoice and taxes on them took from the contract. -/
def releasedOut (id : ℕ) (s : Store) : ℤ :=
  tally (fun m => m.memo = ⟨id, .payout⟩ ∨ m.memo = ⟨id, .tax⟩) s.log

/-- Claims take at most what the release left of an amount. -/
def ClaimsWithin (id : ℕ) (funded : ℤ) (s : Store) : Prop :=
  ∀ calls, releasedOut id (runAll (claimStep id) s calls) - releasedOut id s ≤
    funded - releasedOut id s

theorem runAll_no_claims (hload : (s.entries id).load = some inv)
    (hnone : ∀ r, ¬Claimable inv r) (calls : List (Env × Address)) :
    runAll (claimStep id) s calls = s := by
  induction calls with
  | nil => rfl
  | cons c calls ih =>
      have hfails : commit (claimStep id c) s = s := by
        rcases commit_cases (claimStep id c) s with ⟨v, hrun⟩ | ⟨-, hsame⟩
        · obtain ⟨inv', hload', hclaim⟩ := claim_ok hrun
          rw [hload] at hload'
          cases hload'
          exact absurd hclaim (hnone c.2)
        · exact hsame
      rw [runAll_cons, hfails]
      exact ih

/-- The claims of a released invoice are paid once, and from what the release left, exactly when
nobody can claim and the release took no more than the funded amount. -/
theorem claims_paid_once_iff (hload : (s.entries id).load = some inv)
    (hreleased : inv.status = .released) :
    ClaimsOnce id s ∧ ClaimsWithin id inv.funded s ↔
      (∀ recipient, ¬Claimable inv recipient) ∧ releasedOut id s ≤ inv.funded := by
  constructor
  · rintro ⟨honce, hwithin⟩
    refine ⟨fun recipient hclaim => ?_, ?_⟩
    · obtain ⟨t, hfirst, hload'⟩ := claim_returns hload hreleased hclaim
      obtain ⟨t', hsecond, -⟩ := claim_returns hload' hreleased hclaim
      have hstate : runAll (claimStep id) s [(freeEnv, recipient)] = t := commit_ok hfirst
      refine honce [] [] (freeEnv, recipient) (freeEnv, recipient) rfl ⟨_, hfirst⟩ ((), t') ?_
      rw [List.nil_append, hstate]
      exact hsecond
    · have hempty := hwithin []
      rw [runAll_nil] at hempty
      linarith
  · rintro ⟨hnone, hreleasedOut⟩
    refine ⟨?_, ?_⟩
    · rintro before between first second - - ⟨v, t⟩ hrun
      rw [runAll_no_claims hload hnone] at hrun
      obtain ⟨inv', hload', hclaim⟩ := claim_ok hrun
      rw [hload] at hload'
      cases hload'
      exact hnone second.2 hclaim
    · intro calls
      rw [runAll_no_claims hload hnone]
      linarith

/-- A released invoice with the marks of both recipients set. -/
def markedInvoice : Invoice :=
  { sampleInvoice with status := .released, funded := 100, claimed := [1, 1] }

theorem marked_sample_paid_once :
    ClaimsOnce 1 (sampleStore markedInvoice []) ∧ ClaimsWithin 1 100 (sampleStore markedInvoice []) := by
  have hload : ((sampleStore markedInvoice []).entries 1).load = some markedInvoice := rfl
  refine (claims_paid_once_iff hload rfl).2 ⟨?_, by decide⟩
  rintro recipient ⟨-, idx, share, tax, token, hidx, hmark, -⟩
  have hlt : idx < 2 := (List.findIdx?_eq_some_iff_getElem.1 hidx).1
  obtain rfl | rfl : idx = 0 ∨ idx = 1 := by omega
  · cases hmark
  · cases hmark

/-- The sample invoice, released by the payment that filled it. -/
def releasedStore : Store :=
  commit (pay (sampleEnv 10 0) 20 1 100 0 false) (sampleStore sampleInvoice [])

def twoClaims : List (Env × Address) := [(sampleEnv 20 100, 10), (sampleEnv 21 100, 10)]

/-- The release paid the whole amount; the recipient claims its half twice on top of it. -/
theorem second_claim_pays_again :
    releasedOut 1 releasedStore = 100 ∧
      releasedOut 1 (runAll (claimStep 1) releasedStore twoClaims) = 200 ∧
      ¬ClaimsOnce 1 releasedStore ∧ ¬ClaimsWithin 1 100 releasedStore := by
  have hbefore : releasedOut 1 releasedStore = 100 := by decide +kernel
  have hafter : releasedOut 1 (runAll (claimStep 1) releasedStore twoClaims) = 200 := by
    decide +kernel
  refine ⟨hbefore, hafter, fun honce => ?_, fun hwithin => ?_⟩
  · have hfirst : (claimStep 1 (sampleEnv 20 100, 10) (runAll (claimStep 1) releasedStore [])).isOk =
        true := by decide +kernel
    have hsecond : (claimStep 1 (sampleEnv 21 100, 10)
        (runAll (claimStep 1) releasedStore ([] ++ (sampleEnv 20 100, 10) :: []))).isOk = true := by
      decide +kernel
    obtain ⟨r, hrun⟩ := isOk_iff.1 hsecond
    exact honce [] [] (sampleEnv 20 100, 10) (sampleEnv 21 100, 10) rfl (isOk_iff.1 hfirst) r hrun
  · have htwo := hwithin twoClaims
    rw [hbefore, hafter] at htwo
    norm_num at htwo

end StellarSplit.Split
