import StellarSplit.Movements
import StellarSplit.Split.Insurance
import StellarSplit.Split.Storage

/-!
# Three pools over one balance

The insurance pool, the profits of cooperatives and the education lockups keep their own books,
and all three pay from the balance of the contract. A deposit into a cooperative is credited to
its members at once, in a loop that rounds down and gives the last member the rest. A lockup is
paid to the institution while it is releasable, or back to the funder when it has expired.
-/

namespace StellarSplit.Split.SidePools

open Exec Function Machine Registry Insurance

/-! ## The contract -/

def maxCoopMembers : ℕ := 50

structure Cooperative where
  id : ℕ
  founder : Address
  members : List Address
  sharesBps : List ℕ
deriving DecidableEq, Repr

inductive LockupStatus where
  | locked | released | reclaimed
deriving DecidableEq, Repr

structure EducationLockup where
  id : ℕ
  funder : Address
  recipient : Address
  institution : Address
  token : Address
  amount : ℤ
  releaseLedger : ℕ
  expiryLedger : ℕ
  status : LockupStatus
deriving DecidableEq, Repr

/-- The storage of the three modules. Claimable profits are kept for each cooperative and token. -/
structure SidePoolStore extends InsuranceStore where
  nextCoop : ℕ := 1
  coops : ℕ → Option Cooperative := fun _ => none
  claimable : ℕ → Address → KeyMap ℤ := fun _ _ => .empty
  deposited : ℕ → Address → ℤ := fun _ _ => 0
  nextLockup : ℕ := 1
  lockups : ℕ → Option EducationLockup := fun _ => none
  byRecipient : Address → List ℕ := fun _ => []

abbrev SidePoolM (α : Type) := Call SidePoolStore SplitFault α

/-- A call on the insurance pool. -/
def onInsurance {α : Type} (x : InsuranceM α) : SidePoolM α :=
  focus SidePoolStore.toInsuranceStore (fun s u => { s with toInsuranceStore := u }) x

def sideTransfer (env : Ledger PoolMemo) (m : Transfer PoolMemo) : SidePoolM Unit :=
  onInsurance (poolTransfer env m)

def loadCoop (coopId : ℕ) : SidePoolM Cooperative := do
  let s ← get
  orPanic (s.coops coopId) "cooperative not found"

def loadLockup (id : ℕ) : SidePoolM EducationLockup := do
  let s ← get
  orPanic (s.lockups id) "lockup not found"

def saveLockup (l : EducationLockup) : SidePoolM Unit :=
  modify fun s => { s with lockups := update s.lockups l.id (some l) }

namespace SidePoolStore

def setClaimable (coopId : ℕ) (token : Address) (m : KeyMap ℤ) (s : SidePoolStore) : SidePoolStore :=
  { s with claimable := update s.claimable coopId (update (s.claimable coopId) token m) }

def setDeposited (coopId : ℕ) (token : Address) (amount : ℤ) (s : SidePoolStore) : SidePoolStore :=
  { s with deposited := update s.deposited coopId (update (s.deposited coopId) token amount) }

end SidePoolStore

/-- One round of the check of the shares: the members and the sum of the shares so far. -/
def addShare (p : List Address × ℕ) (entry : Address × ℕ) : Result (List Address × ℕ) :=
  if entry.2 = 0 then .error (.panic "share must be positive")
  else if u32Max < p.2 + entry.2 then .error .overflow
  else if entry.1 ∈ p.1 then .error (.panic "duplicate member")
  else .ok (p.1 ++ [entry.1], p.2 + entry.2)

def createCooperative (env : Ledger PoolMemo) (founder : Address) (members : List Address)
    (sharesBps : List ℕ) : SidePoolM ℕ := do
  requireAuth env founder
  require (members ≠ [] ∧ members.length ≤ maxCoopMembers) (.panic "invalid member count")
  require (members.length = sharesBps.length) (.panic "members/shares length mismatch")
  let checked ← ofResult ((members.zip sharesBps).foldlM addShare ([], 0))
  require (checked.2 = 10000) (.panic "shares must sum to 10000 bps")
  let s ← get
  let id := s.nextCoop
  require (id + 1 ≤ u64Max) .overflow
  set { s with
    nextCoop := id + 1
    coops := update s.coops id
      (some { id := id, founder := founder, members := members, sharesBps := sharesBps }) }
  pure id

/-- What the member at this position gets, when this much has been credited before it. -/
def memberPart (coop : Cooperative) (amount credited : ℤ) (i : ℕ) : Result ℤ :=
  if i = coop.members.length - 1 then
    if InI128 (amount - credited) then .ok (amount - credited) else .error .overflow
  else do
    let share ← unwrap coop.sharesBps[i]?
    if InI128 (amount * share) then .ok ((amount * share).tdiv 10000) else .error .overflow

/-- One round of the crediting loop, for a member and its position; the result is what has been
credited so far. -/
def creditMember (coop : Cooperative) (coopId : ℕ) (token : Address) (amount credited : ℤ)
    (member : Address × ℕ) : SidePoolM ℤ := do
  let part ← ofResult (memberPart coop amount credited member.2)
  require (InI128 (credited + part)) .overflow
  let s ← get
  let claimable := s.claimable coopId token
  let cur := claimable.value member.1
  require (InI128 (cur + part)) .overflow
  set (s.setClaimable coopId token (claimable.set member.1 (cur + part)))
  pure (credited + part)

def depositCoopProfit (env : Ledger PoolMemo) (src : Address) (coopId : ℕ) (token : Address)
    (amount : ℤ) : SidePoolM Unit := do
  requireAuth env src
  require (0 < amount) (.panic "amount must be positive")
  let coop ← loadCoop coopId
  sideTransfer env ⟨token, src, currentContract, amount, .deposit coopId⟩
  require (coop.members ≠ []) .overflow
  let _ ← coop.members.zipIdx.foldlM (creditMember coop coopId token amount) 0
  let s ← get
  let dep := s.deposited coopId token
  require (InI128 (dep + amount)) .overflow
  set (s.setDeposited coopId token (dep + amount))

def profitTo (member : Address) (coopId : ℕ) (token : Address) (amount : ℤ) : Transfer PoolMemo :=
  ⟨token, currentContract, member, amount, .profit coopId⟩

def claimCoopProfit (env : Ledger PoolMemo) (member : Address) (coopId : ℕ) (token : Address) :
    SidePoolM ℤ := do
  requireAuth env member
  let coop ← loadCoop coopId
  require (member ∈ coop.members) (.panic "not a cooperative member")
  let s ← get
  let amount := (s.claimable coopId token).value member
  require (0 < amount) (.panic "nothing to claim")
  set (s.setClaimable coopId token ((s.claimable coopId token).set member 0))
  sideTransfer env (profitTo member coopId token amount)
  pure amount

def createEducationLockup (env : Ledger PoolMemo) (funder recipient institution token : Address)
    (amount : ℤ) (releaseLedger expiryLedger : ℕ) : SidePoolM ℕ := do
  requireAuth env funder
  require (0 < amount) (.panic "amount must be positive")
  require (env.sequence < releaseLedger) (.panic "release ledger must be in the future")
  require (releaseLedger < expiryLedger) (.panic "expiry must follow release")
  let s ← get
  let id := s.nextLockup
  sideTransfer env ⟨token, funder, currentContract, amount, .lockup id⟩
  require (id + 1 ≤ u64Max) .overflow
  modify fun s => { s with nextLockup := id + 1 }
  saveLockup
    { id := id, funder := funder, recipient := recipient, institution := institution, token := token,
      amount := amount, releaseLedger := releaseLedger, expiryLedger := expiryLedger, status := .locked }
  modify fun s => { s with byRecipient := update s.byRecipient recipient (s.byRecipient recipient ++ [id]) }
  pure id

def settlementTo (l : EducationLockup) (dst : Address) (lockupId : ℕ) : Transfer PoolMemo :=
  ⟨l.token, currentContract, dst, l.amount, .settlement lockupId⟩

def releaseEducationFunds (env : Ledger PoolMemo) (recipient : Address) (lockupId : ℕ) : SidePoolM Unit := do
  requireAuth env recipient
  let l ← loadLockup lockupId
  require (l.recipient = recipient) (.panic "not the lockup recipient")
  require (l.status = .locked) (.panic "lockup not active")
  require (l.releaseLedger ≤ env.sequence) (.panic "lockup not yet releasable")
  require (env.sequence ≤ l.expiryLedger) (.panic "lockup expired")
  sideTransfer env (settlementTo l l.institution lockupId)
  saveLockup { l with status := .released }

def reclaimEducationFunds (env : Ledger PoolMemo) (funder : Address) (lockupId : ℕ) : SidePoolM Unit := do
  requireAuth env funder
  let l ← loadLockup lockupId
  require (l.funder = funder) (.panic "not the lockup funder")
  require (l.status = .locked) (.panic "lockup not active")
  require (l.expiryLedger < env.sequence) (.panic "lockup not yet expired")
  sideTransfer env (settlementTo l funder lockupId)
  saveLockup { l with status := .reclaimed }

/-! ## Runs -/

inductive SidePoolCall where
  | insurance (call : InsuranceCall)
  | createCooperative (founder : Address) (members : List Address) (sharesBps : List ℕ)
  | deposit (src : Address) (coopId : ℕ) (token : Address) (amount : ℤ)
  | claimProfit (member : Address) (coopId : ℕ) (token : Address)
  | createLockup (funder recipient institution token : Address) (amount : ℤ)
      (releaseLedger expiryLedger : ℕ)
  | release (recipient : Address) (lockupId : ℕ)
  | reclaim (funder : Address) (lockupId : ℕ)
deriving DecidableEq

def sidePoolStep (c : Ledger PoolMemo × SidePoolCall) : SidePoolM Unit :=
  match c.2 with
  | .insurance call => onInsurance (insuranceStep (c.1, call))
  | .createCooperative founder members sharesBps => ignore (createCooperative c.1 founder members sharesBps)
  | .deposit src coopId token amount => depositCoopProfit c.1 src coopId token amount
  | .claimProfit member coopId token => ignore (claimCoopProfit c.1 member coopId token)
  | .createLockup funder recipient institution token amount releaseLedger expiryLedger =>
      ignore (createEducationLockup c.1 funder recipient institution token amount releaseLedger expiryLedger)
  | .release recipient lockupId => releaseEducationFunds c.1 recipient lockupId
  | .reclaim funder lockupId => reclaimEducationFunds c.1 funder lockupId

/-! ## The law -/

def floorPart (amount : ℤ) (share : ℕ) : ℤ := amount * share / 10000

/-- What is left for the last member. -/
def Cooperative.rest (coop : Cooperative) (amount : ℤ) : ℤ :=
  amount - (coop.sharesBps.dropLast.map (floorPart amount)).sum

/-- Every member but the last gets its share rounded down, the last one the rest. -/
structure Credited (coop : Cooperative) (amount : ℤ) (before after : KeyMap ℤ) : Prop where
  members : ∀ i member share, coop.members[i]? = some member → coop.sharesBps[i]? = some share →
    i + 1 < coop.members.length → after.value member = before.value member + floorPart amount share
  last : ∀ member, coop.members.getLast? = some member →
    after.value member = before.value member + coop.rest amount
  rest : 0 ≤ coop.rest amount
  others : ∀ a, a ∉ coop.members → after.value a = before.value a

/-- What the members of the cooperative have claimed in the token. -/
def claimedProfit (log : List (Transfer PoolMemo)) (coopId : ℕ) (token : Address) : ℤ :=
  tally (fun m => m.memo = .profit coopId ∧ m.token = token) log

/-- What a lockup still binds of the token. -/
def lockedAmount (token : Address) (o : Option EducationLockup) : ℤ :=
  o.elim 0 fun l => if l.status = .locked ∧ l.token = token then l.amount else 0

/-- The payments a lockup has had, by its status. -/
def lockupPayments (o : Option EducationLockup) (id : ℕ) : List (Transfer PoolMemo) :=
  o.elim [] fun l =>
    match l.status with
    | .locked => []
    | .released => [settlementTo l l.institution id]
    | .reclaimed => [settlementTo l l.funder id]

namespace SidePoolStore

def coopFunds (s : SidePoolStore) (token : Address) : ℤ :=
  ∑ id ∈ Finset.range s.nextCoop, (s.claimable id token).total

def lockedFunds (s : SidePoolStore) (token : Address) : ℤ :=
  ∑ id ∈ Finset.range s.nextLockup, lockedAmount token (s.lockups id)

end SidePoolStore

/-- What holds of the three books together in every state. -/
structure Solvent (s : SidePoolStore) : Prop where
  backed : ∀ token, s.balance token + s.coopFunds token + s.lockedFunds token ≤ held s.log token
  coopIds : ∀ id coop, s.coops id = some coop → id < s.nextCoop
  lockupIds : ∀ id l, s.lockups id = some l → id < s.nextLockup
  claimable : ∀ id token member, 0 ≤ (s.claimable id token).value member
  deposited : ∀ id token,
    (s.claimable id token).total + claimedProfit s.log id token = s.deposited id token
  settlements : ∀ id, s.log.filter (fun m => m.memo = .settlement id) = lockupPayments (s.lockups id) id

/-- What a call does to the profits and the lockups. -/
structure Moves (c : Ledger PoolMemo × SidePoolCall) (s t : SidePoolStore) : Prop where
  deposit : ∀ src id token amount, c.2 = .deposit src id token amount →
    ∃ coop, s.coops id = some coop ∧ Credited coop amount (s.claimable id token) (t.claimable id token) ∧
      t.deposited id token = s.deposited id token + amount
  created : ∀ id l, s.lockups id = none → t.lockups id = some l → l.status = .locked
  settled : ∀ id l, s.lockups id = some l →
    t.lockups id = some l ∨
    (l.status = .locked ∧ l.releaseLedger ≤ c.1.sequence ∧ c.1.sequence ≤ l.expiryLedger ∧
      t.lockups id = some { l with status := .released }) ∨
    (l.status = .locked ∧ l.expiryLedger < c.1.sequence ∧
      t.lockups id = some { l with status := .reclaimed })

/-! ## Shares and parts -/

section Parts

variable {coop : Cooperative} {amount : ℤ} {shares : List ℕ}

/-- What `createCooperative` has checked. -/
structure Cooperative.Terms (coop : Cooperative) : Prop where
  length : coop.members.length = coop.sharesBps.length
  nodup : coop.members.Nodup
  sum : coop.sharesBps.sum = 10000

theorem checkShares_ok {l : List (Address × ℕ)} {p q : List Address × ℕ} (hp : p.1.Nodup)
    (hrun : l.foldlM addShare p = .ok q) :
    q.1 = p.1 ++ l.map Prod.fst ∧ q.1.Nodup ∧ q.2 = p.2 + (l.map Prod.snd).sum := by
  induction l generalizing p with
  | nil =>
      cases hrun
      simpa using hp
  | cons e l ih =>
      rw [List.foldlM_cons] at hrun
      obtain ⟨p', hfirst, hrest⟩ := except_bind_ok.1 hrun
      unfold addShare at hfirst
      split_ifs at hfirst with hzero hmax hmem
      obtain rfl := Except.ok.inj hfirst
      have hnodup : (p.1 ++ [e.1]).Nodup := by
        rw [List.nodup_append]
        refine ⟨hp, List.nodup_singleton _, fun a ha b hb hab => hmem ?_⟩
        rwa [← List.mem_singleton.1 hb, ← hab]
      obtain ⟨hmembers, hq, hsum⟩ := ih hnodup hrest
      refine ⟨by simpa using hmembers, hq, ?_⟩
      rw [hsum, List.map_cons, List.sum_cons, add_assoc]

theorem floorPart_nonneg (hpos : 0 ≤ amount) (share : ℕ) : 0 ≤ floorPart amount share :=
  Int.ediv_nonneg (mul_nonneg hpos (Int.natCast_nonneg _)) (by norm_num)

theorem sum_floorPart_le (amount : ℤ) (shares : List ℕ) :
    (shares.map (floorPart amount)).sum * 10000 ≤ amount * shares.sum := by
  induction shares with
  | nil => simp
  | cons share shares ih =>
      have hfirst : floorPart amount share * 10000 ≤ amount * share := Int.ediv_mul_le _ (by norm_num)
      rw [List.map_cons, List.sum_cons, List.sum_cons, Nat.cast_add, mul_add, add_mul]
      exact add_le_add hfirst ih

/-- The parts of the members from here on, when this much has been credited before them. -/
def partsFrom (amount credited : ℤ) (shares : List ℕ) : List ℤ :=
  shares.dropLast.map (floorPart amount) ++ [amount - credited - (shares.dropLast.map (floorPart amount)).sum]

theorem sum_partsFrom (amount credited : ℤ) (shares : List ℕ) :
    (partsFrom amount credited shares).sum = amount - credited := by
  unfold partsFrom
  rw [List.sum_append, List.sum_singleton]
  ring

theorem length_partsFrom (amount credited : ℤ) (hshares : shares ≠ []) :
    (partsFrom amount credited shares).length = shares.length := by
  have hpos := List.length_pos_iff.2 hshares
  simp [partsFrom]
  omega

theorem partsFrom_nonneg (hpos : 0 ≤ amount)
    (hrest : 0 ≤ amount - (shares.dropLast.map (floorPart amount)).sum) : ∀ part ∈ partsFrom amount 0 shares, 0 ≤ part := by
  intro part hpart
  rcases List.mem_append.1 hpart with hfloor | hlast
  · obtain ⟨share, -, rfl⟩ := List.mem_map.1 hfloor
    exact floorPart_nonneg hpos share
  · rw [List.mem_singleton.1 hlast, sub_zero]
    exact hrest

namespace Cooperative.Terms

variable (h : coop.Terms)
include h

theorem sharesBps_ne_nil : coop.sharesBps ≠ [] := by
  intro hnil
  have hsum := h.sum
  rw [hnil] at hsum
  cases hsum

theorem rest_nonneg (hpos : 0 ≤ amount) : 0 ≤ coop.rest amount := by
  have hle := sum_floorPart_le amount coop.sharesBps.dropLast
  have hsum : (coop.sharesBps.dropLast.sum : ℤ) ≤ 10000 := by
    have hall := congrArg List.sum (List.dropLast_append_getLast h.sharesBps_ne_nil)
    rw [List.sum_append, h.sum] at hall
    omega
  have hall : amount * coop.sharesBps.dropLast.sum ≤ amount * 10000 := mul_le_mul_of_nonneg_left hsum hpos
  unfold Cooperative.rest
  omega

/-- The members with what each of them gets. -/
theorem credits (before : KeyMap ℤ) (hpos : 0 ≤ amount) :
    Credited coop amount before (before.addAll (coop.members.zip (partsFrom amount 0 coop.sharesBps))) := by
  have hlength : coop.members.length = (partsFrom amount 0 coop.sharesBps).length :=
    h.length.trans (length_partsFrom amount 0 h.sharesBps_ne_nil).symm
  have hkeys : (coop.members.zip (partsFrom amount 0 coop.sharesBps)).map Prod.fst = coop.members :=
    List.map_fst_zip hlength.le
  have hnodup : ((coop.members.zip (partsFrom amount 0 coop.sharesBps)).map Prod.fst).Nodup := by
    rw [hkeys]
    exact h.nodup
  have hpos' := List.length_pos_iff.2 h.sharesBps_ne_nil
  refine ⟨fun i member share hmember hshare hi => ?_, fun member hmember => ?_, h.rest_nonneg hpos,
    fun a ha => KeyMap.value_addAll_of_notMem before (by rwa [hkeys])⟩
  · refine KeyMap.value_addAll_of_mem before hnodup (List.mem_of_getElem? (i := i) ?_)
    rw [h.length] at hi
    rw [List.getElem?_zip_eq_some]
    refine ⟨hmember, ?_⟩
    rw [partsFrom, List.getElem?_append_left (by simp; omega), List.getElem?_map, List.getElem?_dropLast,
      if_pos (by omega), hshare, Option.map_some]
  · refine KeyMap.value_addAll_of_mem before hnodup (List.mem_of_getElem? (i := coop.members.length - 1) ?_)
    rw [List.getElem?_zip_eq_some]
    refine ⟨by rwa [List.getLast?_eq_getElem?] at hmember, ?_⟩
    rw [h.length, partsFrom, List.getElem?_append_right (by simp)]
    simp [Cooperative.rest]

end Cooperative.Terms

end Parts

/-! ## What the calls do -/

section Calls

variable {env : Ledger PoolMemo} {s t : SidePoolStore} {v : Unit} {id n : ℕ} {coop : Cooperative}
  {amount credited credited' : ℤ} {founder member token src funder recipient : Address} {l : EducationLockup}

@[simp] theorem onInsurance_ok {α : Type} {x : InsuranceM α} {a : α} :
    onInsurance x s = .ok (a, t) ↔ ∃ u, x s.toInsuranceStore = .ok (a, u) ∧ { s with toInsuranceStore := u } = t :=
  focus_ok

@[simp] theorem sideTransfer_ok {m : Transfer PoolMemo} :
    sideTransfer env m s = .ok (v, t) ↔ env.accepts s.log m = true ∧ { s with log := m :: s.log } = t := by
  simp only [sideTransfer, onInsurance_ok, poolTransfer_ok]
  constructor
  · rintro ⟨u, ⟨haccepts, rfl⟩, rfl⟩
    exact ⟨haccepts, rfl⟩
  · rintro ⟨haccepts, rfl⟩
    exact ⟨_, ⟨haccepts, rfl⟩, rfl⟩

theorem loadCoop_bind {β : Type} {k : Cooperative → SidePoolM β} {r : β × SidePoolStore} :
    (loadCoop id >>= k) s = .ok r ↔ ∃ coop, s.coops id = some coop ∧ k coop s = .ok r := by
  simp only [loadCoop, bind_assoc, get_bind, orPanic_bind]

theorem loadLockup_bind {β : Type} {k : EducationLockup → SidePoolM β} {r : β × SidePoolStore} :
    (loadLockup id >>= k) s = .ok r ↔ ∃ l, s.lockups id = some l ∧ k l s = .ok r := by
  simp only [loadLockup, bind_assoc, get_bind, orPanic_bind]

@[simp] theorem saveLockup_ok :
    saveLockup l s = .ok (v, t) ↔ { s with lockups := update s.lockups l.id (some l) } = t := by
  simp [saveLockup]

theorem createCooperative_ok {members : List Address} {sharesBps : List ℕ}
    (hrun : createCooperative env founder members sharesBps s = .ok (n, t)) :
    ∃ coop : Cooperative, coop.Terms ∧
      t = { s with nextCoop := s.nextCoop + 1, coops := update s.coops s.nextCoop (some coop) } := by
  simp only [createCooperative, requireAuth_bind, require_bind, ofResult_bind, get_bind] at hrun
  obtain ⟨-, -, hlength, checked, hchecked, hsum, -, hrun⟩ := hrun
  obtain ⟨_, u, hset, hrun⟩ := bind_ok.1 hrun
  obtain rfl := set_ok.1 hset
  obtain ⟨-, rfl⟩ := pure_ok.1 hrun
  obtain ⟨hmembers, hnodup, htotal⟩ := checkShares_ok List.nodup_nil hchecked
  rw [List.nil_append, List.map_fst_zip hlength.le] at hmembers
  rw [Nat.zero_add, List.map_snd_zip hlength.ge] at htotal
  exact ⟨_, ⟨hlength, hmembers ▸ hnodup, htotal.symm.trans hsum⟩, rfl⟩

theorem memberPart_ok {i : ℕ} {part : ℤ} (hpos : 0 ≤ amount) (hrun : memberPart coop amount credited i = .ok part) :
    (i = coop.members.length - 1 ∧ part = amount - credited) ∨
    (i ≠ coop.members.length - 1 ∧ ∃ share, coop.sharesBps[i]? = some share ∧ part = floorPart amount share) := by
  unfold memberPart at hrun
  split_ifs at hrun with hlast hfits
  · exact .inl ⟨hlast, (Except.ok.inj hrun).symm⟩
  · obtain ⟨share, hshare, hrun⟩ := except_bind_ok.1 hrun
    split_ifs at hrun
    refine .inr ⟨hlast, share, unwrap_ok.1 hshare, ?_⟩
    rw [← Except.ok.inj hrun]
    exact Int.tdiv_eq_ediv_of_nonneg (mul_nonneg hpos (Int.natCast_nonneg _))

theorem creditMember_ok {p : Address × ℕ} (hrun : creditMember coop id token amount credited p s = .ok (credited', t)) :
    ∃ part, memberPart coop amount credited p.2 = .ok part ∧ credited' = credited + part ∧
      t = s.setClaimable id token
        ((s.claimable id token).set p.1 ((s.claimable id token).value p.1 + part)) := by
  simp only [creditMember, ofResult_bind, require_bind, get_bind] at hrun
  obtain ⟨part, hpart, -, -, hrun⟩ := hrun
  obtain ⟨_, u, hset, hrun⟩ := bind_ok.1 hrun
  obtain rfl := set_ok.1 hset
  obtain ⟨rfl, rfl⟩ := pure_ok.1 hrun
  exact ⟨part, hpart, rfl, rfl⟩

@[simp] theorem claimable_setClaimable (m : KeyMap ℤ) : (s.setClaimable id token m).claimable id token = m := by
  simp [SidePoolStore.setClaimable]

theorem setClaimable_setClaimable (m m' : KeyMap ℤ) :
    (s.setClaimable id token m).setClaimable id token m' = s.setClaimable id token m' := by
  simp [SidePoolStore.setClaimable]

/-- The loop from one position on credits the rest of the members with their parts. -/
theorem creditFold_ok (hpos : 0 ≤ amount) {members : List Address} {shares : List ℕ} {k : ℕ}
    (hmembers : coop.members.length = k + members.length) (hshares : coop.sharesBps.drop k = shares)
    (hlength : members.length = shares.length) (hne : members ≠ [])
    (hrun : (members.zipIdx k).foldlM (creditMember coop id token amount) credited s = .ok (credited', t)) :
    t = s.setClaimable id token
      ((s.claimable id token).addAll (members.zip (partsFrom amount credited shares))) := by
  induction members generalizing k shares credited s with
  | nil => exact absurd rfl hne
  | cons a members ih =>
      obtain ⟨share, shares, rfl⟩ := List.exists_cons_of_length_pos (l := shares) (by
        rw [← hlength]
        simp)
      rw [List.zipIdx_cons, List.foldlM_cons] at hrun
      obtain ⟨c, u, hfirst, hrest⟩ := bind_ok.1 hrun
      obtain ⟨part, hpart, rfl, rfl⟩ := creditMember_ok hfirst
      have hget : coop.sharesBps[k]? = some share := by
        have hhead := congrArg List.head? hshares
        rwa [List.head?_drop, List.head?_cons] at hhead
      have hdrop : coop.sharesBps.drop (k + 1) = shares := by
        rw [← List.tail_drop, hshares, List.tail_cons]
      rw [List.length_cons] at hmembers hlength
      rw [List.length_cons, Nat.add_right_cancel_iff] at hlength
      rcases eq_or_ne members [] with rfl | hmore
      · obtain rfl : shares = [] := List.length_eq_zero_iff.1 hlength.symm
        rcases memberPart_ok hpos hpart with ⟨-, rfl⟩ | ⟨hlast, -⟩
        · obtain ⟨-, rfl⟩ := pure_ok.1 hrest
          simp [partsFrom, KeyMap.addAll]
        · simp at hmembers
          omega
      · have hlen := List.length_pos_iff.2 hmore
        have hne' : shares ≠ [] := by
          rintro rfl
          rw [List.length_nil] at hlength
          omega
        rcases memberPart_ok hpos hpart with ⟨hlast, -⟩ | ⟨-, share', hshare', rfl⟩
        · omega
        · obtain rfl := Option.some.inj (hget.symm.trans hshare')
          have htail := ih (by omega) hdrop hlength hmore hrest
          rw [htail, claimable_setClaimable, setClaimable_setClaimable]
          have hparts : partsFrom amount credited (share :: shares) =
              floorPart amount share :: partsFrom amount (credited + floorPart amount share) shares := by
            unfold partsFrom
            rw [List.dropLast_cons_of_ne_nil hne', List.map_cons, List.cons_append, List.sum_cons]
            congr 3
            ring
          rw [hparts, List.zip_cons_cons, KeyMap.addAll_cons]

theorem depositCoopProfit_ok (hterms : ∀ coop, s.coops id = some coop → coop.Terms)
    (hrun : depositCoopProfit env src id token amount s = .ok (v, t)) :
    0 < amount ∧ src ≠ currentContract ∧ ∃ coop, s.coops id = some coop ∧
      t = (({ s with log := ⟨token, src, currentContract, amount, .deposit id⟩ :: s.log } : SidePoolStore).setClaimable
        id token ((s.claimable id token).addAll (coop.members.zip (partsFrom amount 0 coop.sharesBps)))).setDeposited
          id token (s.deposited id token + amount) := by
  simp only [depositCoopProfit, requireAuth_bind, require_bind, loadCoop_bind] at hrun
  obtain ⟨⟨-, hsrc⟩, hpos, coop, hcoop, hrun⟩ := hrun
  obtain ⟨_, u, htransfer, hrun⟩ := bind_ok.1 hrun
  obtain ⟨-, rfl⟩ := sideTransfer_ok.1 htransfer
  rw [require_bind] at hrun
  obtain ⟨hne, hrun⟩ := hrun
  obtain ⟨credited, u, hfold, hrun⟩ := bind_ok.1 hrun
  rw [get_bind, require_bind, set_ok] at hrun
  obtain ⟨-, rfl⟩ := hrun
  obtain rfl := creditFold_ok hpos.le (by simp) List.drop_zero (hterms coop hcoop).length hne hfold
  exact ⟨hpos, hsrc, coop, hcoop, rfl⟩

theorem claimCoopProfit_ok (hrun : claimCoopProfit env member id token s = .ok (amount, t)) :
    0 < amount ∧ amount = (s.claimable id token).value member ∧ (∃ coop, s.coops id = some coop) ∧
      t = ({ s with log := profitTo member id token amount :: s.log } : SidePoolStore).setClaimable id token
        ((s.claimable id token).set member 0) := by
  simp only [claimCoopProfit, requireAuth_bind, loadCoop_bind, require_bind, get_bind] at hrun
  obtain ⟨-, coop, hcoop, -, hpos, hrun⟩ := hrun
  obtain ⟨_, u, hset, hrun⟩ := bind_ok.1 hrun
  obtain rfl := set_ok.1 hset
  obtain ⟨_, u, htransfer, hrun⟩ := bind_ok.1 hrun
  obtain ⟨-, rfl⟩ := sideTransfer_ok.1 htransfer
  obtain ⟨rfl, rfl⟩ := pure_ok.1 hrun
  exact ⟨hpos, rfl, ⟨coop, hcoop⟩, rfl⟩

theorem createEducationLockup_ok {institution : Address} {releaseLedger expiryLedger : ℕ}
    (hrun : createEducationLockup env funder recipient institution token amount releaseLedger expiryLedger s =
      .ok (n, t)) :
    funder ≠ currentContract ∧ ∃ l : EducationLockup, l.id = s.nextLockup ∧ l.token = token ∧ l.amount = amount ∧
      l.status = .locked ∧ 0 < amount ∧
      t = { s with
        log := ⟨token, funder, currentContract, amount, .lockup s.nextLockup⟩ :: s.log
        nextLockup := s.nextLockup + 1
        lockups := update s.lockups s.nextLockup (some l)
        byRecipient := update s.byRecipient recipient (s.byRecipient recipient ++ [s.nextLockup]) } := by
  simp only [createEducationLockup, requireAuth_bind, require_bind, get_bind] at hrun
  obtain ⟨⟨-, hfunder⟩, hpos, -, -, hrun⟩ := hrun
  obtain ⟨_, u, htransfer, hrun⟩ := bind_ok.1 hrun
  obtain ⟨-, rfl⟩ := sideTransfer_ok.1 htransfer
  rw [require_bind] at hrun
  obtain ⟨-, hrun⟩ := hrun
  obtain ⟨_, u, hnext, hrun⟩ := bind_ok.1 hrun
  obtain rfl := modify_ok.1 hnext
  obtain ⟨_, u, hsave, hrun⟩ := bind_ok.1 hrun
  obtain rfl := saveLockup_ok.1 hsave
  obtain ⟨_, u, hlist, hrun⟩ := bind_ok.1 hrun
  obtain rfl := modify_ok.1 hlist
  obtain ⟨-, rfl⟩ := pure_ok.1 hrun
  exact ⟨hfunder, _, rfl, rfl, rfl, rfl, hpos, rfl⟩

theorem releaseEducationFunds_ok (hrun : releaseEducationFunds env recipient id s = .ok (v, t)) :
    ∃ l, s.lockups id = some l ∧ l.status = .locked ∧ l.releaseLedger ≤ env.sequence ∧
      env.sequence ≤ l.expiryLedger ∧
      t = { s with
        log := settlementTo l l.institution id :: s.log
        lockups := update s.lockups l.id (some { l with status := .released }) } := by
  simp only [releaseEducationFunds, requireAuth_bind, loadLockup_bind, require_bind] at hrun
  obtain ⟨-, l, hl, -, hlocked, hopen, hin, hrun⟩ := hrun
  obtain ⟨_, u, htransfer, hrun⟩ := bind_ok.1 hrun
  obtain ⟨-, rfl⟩ := sideTransfer_ok.1 htransfer
  obtain rfl := saveLockup_ok.1 hrun
  exact ⟨l, hl, hlocked, hopen, hin, rfl⟩

theorem reclaimEducationFunds_ok (hrun : reclaimEducationFunds env funder id s = .ok (v, t)) :
    ∃ l, s.lockups id = some l ∧ l.status = .locked ∧ l.expiryLedger < env.sequence ∧
      t = { s with
        log := settlementTo l l.funder id :: s.log
        lockups := update s.lockups l.id (some { l with status := .reclaimed }) } := by
  simp only [reclaimEducationFunds, requireAuth_bind, loadLockup_bind, require_bind] at hrun
  obtain ⟨-, l, hl, rfl, hlocked, hexpired, hrun⟩ := hrun
  obtain ⟨_, u, htransfer, hrun⟩ := bind_ok.1 hrun
  obtain ⟨-, rfl⟩ := sideTransfer_ok.1 htransfer
  obtain rfl := saveLockup_ok.1 hrun
  exact ⟨l, hl, hlocked, hexpired, rfl⟩

end Calls

/-! ## The invariant -/

variable {s t : SidePoolStore} {id : ℕ} {coop : Cooperative} {l : EducationLockup} {m : Transfer PoolMemo}
  {token tok : Address} {amount : ℤ} {v : Unit} {c : Ledger PoolMemo × SidePoolCall}

theorem claimedProfit_cons (m : Transfer PoolMemo) (log : List (Transfer PoolMemo)) (id : ℕ) (token : Address) :
    claimedProfit (m :: log) id token =
      (if m.memo = .profit id ∧ m.token = token then m.amount else 0) + claimedProfit log id token := by
  simp [claimedProfit]

/-- The records of cooperatives and lockups before the next ones are complete, and what has come in
covers the books. -/
structure Sound (s : SidePoolStore) : Prop where
  insurance : ∃ ballots, Insurance.Sound s.toInsuranceStore ballots
  coops : ∀ id coop, s.coops id = some coop → id < s.nextCoop ∧ coop.Terms
  claimable : ∀ id token, ∀ e ∈ (s.claimable id token).entries, 0 ≤ e.2
  unfounded : ∀ id, s.coops id = none → ∀ token, (s.claimable id token).total = 0
  deposited : ∀ id token,
    (s.claimable id token).total + claimedProfit s.log id token = s.deposited id token
  lockups : ∀ id l, s.lockups id = some l → l.id = id ∧ id < s.nextLockup ∧ 0 < l.amount
  settlements : ∀ id, s.log.filter (fun m => m.memo = .settlement id) = lockupPayments (s.lockups id) id
  backed : ∀ token, s.balance token + s.coopFunds token + s.lockedFunds token ≤ held s.log token

/-- Changing what the members of one cooperative can claim changes the sum by the difference. -/
theorem coopFunds_setClaimable (hid : id < s.nextCoop) (m : KeyMap ℤ) (tok : Address) :
    (s.setClaimable id token m).coopFunds tok =
      s.coopFunds tok + if tok = token then m.total - (s.claimable id token).total else 0 := by
  have hchange : (s.setClaimable id token m).coopFunds tok =
      s.coopFunds tok - (s.claimable id tok).total + ((s.setClaimable id token m).claimable id tok).total := by
    refine Totals.sum_change (Finset.mem_range.2 hid) fun j hj => ?_
    simp [SidePoolStore.setClaimable, hj]
  rw [hchange]
  rcases eq_or_ne tok token with rfl | htok
  · rw [claimable_setClaimable, if_pos rfl]
    ring
  · rw [if_neg htok]
    simp [SidePoolStore.setClaimable, htok]

theorem lockedFunds_update (hid : id < s.nextLockup) (hl : s.lockups id = some l) (l' : EducationLockup) :
    SidePoolStore.lockedFunds { s with lockups := update s.lockups id (some l') } tok =
      s.lockedFunds tok - lockedAmount tok (some l) + lockedAmount tok (some l') := by
  have hchange : SidePoolStore.lockedFunds { s with lockups := update s.lockups id (some l') } tok =
      s.lockedFunds tok - lockedAmount tok (s.lockups id) +
        lockedAmount tok (update s.lockups id (some l') id) :=
    Totals.sum_change (Finset.mem_range.2 hid) fun j hj => congrArg _ (update_of_ne hj _ _)
  rwa [update_self, hl] at hchange

namespace Sound

theorem start : Sound {} where
  insurance := ⟨_, Insurance.Sound.start⟩
  coops _ _ h := nomatch h
  claimable _ _ _ he := nomatch he
  unfounded _ _ _ := rfl
  deposited _ _ := rfl
  lockups _ _ h := nomatch h
  settlements _ := rfl
  backed _ := le_rfl

theorem unusedCoop (h : Sound s) : s.coops s.nextCoop = none := by
  cases hcoop : s.coops s.nextCoop with
  | none => rfl
  | some coop => exact absurd (h.coops _ coop hcoop).1 (lt_irrefl _)

theorem createCooperative (h : Sound s) (hterms : coop.Terms) :
    Sound { s with nextCoop := s.nextCoop + 1, coops := update s.coops s.nextCoop (some coop) } := by
  refine ⟨h.insurance, fun id coop₁ hcoop => ?_, h.claimable, fun id hnone => ?_, h.deposited, h.lockups,
    h.settlements, fun tok => ?_⟩
  · rcases update_cases hcoop with ⟨rfl, rfl⟩ | ⟨-, hold⟩
    · exact ⟨Nat.lt_succ_self _, hterms⟩
    · obtain ⟨hlt, hterms₁⟩ := h.coops id coop₁ hold
      exact ⟨hlt.trans (Nat.lt_succ_self _), hterms₁⟩
  · rcases eq_or_ne id s.nextCoop with rfl | hid
    · simp at hnone
    · simp only [update_of_ne hid] at hnone
      exact h.unfounded id hnone
  · have hgrow : ∑ id ∈ Finset.range (s.nextCoop + 1), (s.claimable id tok).total =
        s.coopFunds tok + (s.claimable s.nextCoop tok).total := Totals.sum_range_grow fun _ _ => rfl
    have hbefore := h.backed tok
    rw [h.unfounded _ h.unusedCoop, add_zero] at hgrow
    rw [← hgrow] at hbefore
    exact hbefore

/-- A movement that changes what the members of one cooperative can claim by as much as it moves. -/
theorem profit (h : Sound s) (hcoop : s.coops id = some coop) {m : Transfer PoolMemo} {new : KeyMap ℤ}
    {dep : ℕ → Address → ℤ} (hclaim : ∀ j, m.memo ≠ .claim j) (hsettlement : ∀ j, m.memo ≠ .settlement j)
    (hnew : ∀ e ∈ new.entries, 0 ≤ e.2)
    (hsame : ∀ j tok, j ≠ id ∨ tok ≠ token → dep j tok = s.deposited j tok ∧ ¬(m.memo = .profit j ∧ m.token = tok))
    (hdep : new.total + claimedProfit (m :: s.log) id token = dep id token)
    (hheld : ∀ tok, held s.log tok + (if tok = token then new.total - (s.claimable id token).total else 0) ≤
      held (m :: s.log) tok) :
    Sound { s with
      log := m :: s.log
      claimable := update s.claimable id (update (s.claimable id) token new)
      deposited := dep } := by
  obtain ⟨hlt, -⟩ := h.coops id coop hcoop
  obtain ⟨ballots, hballots⟩ := h.insurance
  have hcases : ∀ j tok, (j = id ∧ tok = token ∧ update s.claimable id (update (s.claimable id) token new) j tok = new) ∨
      ((j ≠ id ∨ tok ≠ token) ∧
        update s.claimable id (update (s.claimable id) token new) j tok = s.claimable j tok) := by
    intro j tok
    rcases eq_or_ne j id with rfl | hj
    · rw [update_self]
      rcases eq_or_ne tok token with rfl | htok
      · exact .inl ⟨rfl, rfl, update_self ..⟩
      · exact .inr ⟨.inr htok, update_of_ne htok _ _⟩
    · exact .inr ⟨.inl hj, by rw [update_of_ne hj]⟩
  refine ⟨⟨ballots, hballots.frame hclaim⟩, h.coops, fun j tok e he => ?_, fun j hnone tok => ?_,
    fun j tok => ?_, h.lockups, fun j => ?_, fun tok => ?_⟩
  · rcases hcases j tok with ⟨-, -, hmap⟩ | ⟨-, hmap⟩
    · exact hnew e (by rwa [← hmap])
    · exact h.claimable j tok e (by rwa [← hmap])
  · rcases hcases j tok with ⟨rfl, -, -⟩ | ⟨-, hmap⟩
    · cases hcoop.symm.trans hnone
    · exact (congrArg KeyMap.total hmap).trans (h.unfounded j hnone tok)
  · dsimp only
    rcases hcases j tok with ⟨rfl, rfl, hmap⟩ | ⟨hother, hmap⟩
    · rw [hmap, hdep]
    · obtain ⟨hdeposited, hmemo⟩ := hsame j tok hother
      rw [hmap, hdeposited, claimedProfit_cons, if_neg hmemo, zero_add]
      exact h.deposited j tok
  · dsimp only
    rw [List.filter_cons_of_neg (by simpa using hsettlement j)]
    exact h.settlements j
  · have hbefore := h.backed tok
    have hafter := hheld tok
    change s.balance tok + (s.setClaimable id token new).coopFunds tok + s.lockedFunds tok ≤ held (m :: s.log) tok
    rw [coopFunds_setClaimable hlt]
    linarith

theorem deposit (h : Sound s) (hcoop : s.coops id = some coop) {src : Address} (hsrc : src ≠ currentContract)
    (hpos : 0 < amount) :
    Sound ((({ s with log := ⟨token, src, currentContract, amount, .deposit id⟩ :: s.log } : SidePoolStore).setClaimable
      id token ((s.claimable id token).addAll (coop.members.zip (partsFrom amount 0 coop.sharesBps)))).setDeposited
        id token (s.deposited id token + amount)) := by
  obtain ⟨-, hterms⟩ := h.coops id coop hcoop
  have hlength : coop.members.length = (partsFrom amount 0 coop.sharesBps).length :=
    hterms.length.trans (length_partsFrom amount 0 hterms.sharesBps_ne_nil).symm
  have htotal : ((s.claimable id token).addAll (coop.members.zip (partsFrom amount 0 coop.sharesBps))).total =
      (s.claimable id token).total + amount := by
    rw [KeyMap.total_addAll, List.map_snd_zip hlength.ge, sum_partsFrom, sub_zero]
  refine h.profit hcoop nofun nofun (KeyMap.addAll_nonneg (h.claimable id token) fun e he => ?_)
    (fun j tok hother => ?_) ?_ fun tok => ?_
  · exact partsFrom_nonneg hpos.le (hterms.rest_nonneg hpos.le) _ (List.of_mem_zip he).2
  · refine ⟨?_, nofun⟩
    rcases hother with hj | htok
    · rw [update_of_ne hj]
      rfl
    · rcases eq_or_ne j id with rfl | hj
      · rw [update_self, update_of_ne htok]
        rfl
      · rw [update_of_ne hj]
        rfl
  · rw [htotal, claimedProfit_cons, if_neg nofun, zero_add, update_self, update_self, ← h.deposited id token]
    ring
  · rw [htotal, held_receive hsrc rfl, add_sub_cancel_left]
    refine le_of_eq (congrArg _ (if_congr ?_ rfl rfl))
    exact eq_comm

theorem claimProfit (h : Sound s) (hcoop : s.coops id = some coop) {member : Address}
    (hamount : amount = (s.claimable id token).value member) (hpos : 0 < amount) :
    Sound (({ s with log := profitTo member id token amount :: s.log } : SidePoolStore).setClaimable id token
      ((s.claimable id token).set member 0)) := by
  have htotal : ((s.claimable id token).set member 0).total = (s.claimable id token).total - amount := by
    rw [KeyMap.total_set, hamount, add_zero]
  refine h.profit hcoop nofun nofun (fun e he => ?_) (fun j tok hother => ⟨rfl, ?_⟩) ?_ fun tok => ?_
  · rcases KeyMap.mem_set he with rfl | he
    · exact le_rfl
    · exact h.claimable id token e he
  · rintro ⟨⟨⟩, rfl⟩
    rcases hother with hj | htok
    · exact hj rfl
    · exact htok rfl
  · have hbefore := h.deposited id token
    rw [htotal, claimedProfit_cons, if_pos ⟨rfl, rfl⟩, ← hbefore, profitTo]
    ring
  · have hsend := held_send (l := s.log) (m := profitTo member id token amount) (a := tok) hpos.le
    refine le_trans (le_of_eq ?_) hsend
    rw [htotal]
    rcases eq_or_ne tok token with rfl | htok
    · simp only [profitTo, if_true]
      ring
    · simp [profitTo, htok, htok.symm]

theorem unusedLockup (h : Sound s) : s.lockups s.nextLockup = none := by
  cases hl : s.lockups s.nextLockup with
  | none => rfl
  | some l => exact absurd (h.lockups _ l hl).2.1 (lt_irrefl _)

theorem lock (h : Sound s) {funder : Address} {byRecipient : Address → List ℕ} (hfunder : funder ≠ currentContract)
    (hid : l.id = s.nextLockup) (hlocked : l.status = .locked) (hpos : 0 < l.amount) :
    Sound { s with
      log := ⟨l.token, funder, currentContract, l.amount, .lockup s.nextLockup⟩ :: s.log
      nextLockup := s.nextLockup + 1
      lockups := update s.lockups s.nextLockup (some l)
      byRecipient := byRecipient } := by
  obtain ⟨ballots, hballots⟩ := h.insurance
  refine ⟨⟨ballots, hballots.frame nofun⟩, h.coops, h.claimable, h.unfounded, fun id token => ?_,
    fun id l₁ hl => ?_, fun id => ?_, fun tok => ?_⟩
  · dsimp only
    rw [claimedProfit_cons, if_neg nofun, zero_add]
    exact h.deposited id token
  · rcases update_cases hl with ⟨rfl, rfl⟩ | ⟨-, hold⟩
    · exact ⟨hid, Nat.lt_succ_self _, hpos⟩
    · obtain ⟨hid₁, hlt, hpos₁⟩ := h.lockups id l₁ hold
      exact ⟨hid₁, hlt.trans (Nat.lt_succ_self _), hpos₁⟩
  · have hbefore := h.settlements id
    dsimp only
    rw [List.filter_cons_of_neg (by simp)]
    rcases eq_or_ne id s.nextLockup with rfl | hne
    · rw [h.unusedLockup] at hbefore
      simpa [lockupPayments, hlocked] using hbefore
    · rwa [update_of_ne hne]
  · have hbefore := h.backed tok
    have hgrow : ∑ id ∈ Finset.range (s.nextLockup + 1),
        lockedAmount tok (update s.lockups s.nextLockup (some l) id) =
          s.lockedFunds tok + lockedAmount tok (update s.lockups s.nextLockup (some l) s.nextLockup) :=
      Totals.sum_range_grow fun j hj => by rw [update_of_ne hj.ne]
    rw [update_self] at hgrow
    change s.balance tok + s.coopFunds tok + ∑ id ∈ Finset.range (s.nextLockup + 1),
      lockedAmount tok (update s.lockups s.nextLockup (some l) id) ≤ _
    rw [hgrow, held_receive hfunder rfl]
    have hnew : lockedAmount tok (some l) = if l.token = tok then l.amount else 0 := by
      simp [lockedAmount, hlocked]
    rw [hnew]
    linarith

/-- A lockup that is settled pays its amount to `dst`. -/
theorem settle (h : Sound s) (hl : s.lockups id = some l) (hlocked : l.status = .locked) {status : LockupStatus}
    {dst : Address} (hstatus : status ≠ .locked)
    (hpayments : lockupPayments (some { l with status := status }) id = [settlementTo l dst id]) :
    Sound { s with
      log := settlementTo l dst id :: s.log
      lockups := update s.lockups l.id (some { l with status := status }) } := by
  obtain ⟨rfl, hlt, hpos⟩ := h.lockups id l hl
  obtain ⟨ballots, hballots⟩ := h.insurance
  refine ⟨⟨ballots, hballots.frame nofun⟩, h.coops, h.claimable, h.unfounded, fun j token => ?_,
    forall_update h.lockups ⟨rfl, hlt, hpos⟩, fun j => ?_, fun tok => ?_⟩
  · dsimp only
    rw [claimedProfit_cons, if_neg nofun, zero_add]
    exact h.deposited j token
  · have hbefore := h.settlements j
    dsimp only
    rcases eq_or_ne j l.id with rfl | hne
    · rw [hl] at hbefore
      rw [update_self, hpayments, List.filter_cons_of_pos (by simp [settlementTo]), hbefore]
      simp [lockupPayments, hlocked]
    · rw [update_of_ne hne, List.filter_cons_of_neg (by simpa [settlementTo] using hne.symm)]
      exact hbefore
  · have hbefore := h.backed tok
    have hsend := held_send (l := s.log) (m := settlementTo l dst l.id) (a := tok) hpos.le
    change s.balance tok + s.coopFunds tok + SidePoolStore.lockedFunds
      { s with lockups := update s.lockups l.id (some { l with status := status }) } tok ≤ _
    rw [lockedFunds_update hlt hl]
    have hold : lockedAmount tok (some l) = if l.token = tok then l.amount else 0 := by
      simp [lockedAmount, hlocked]
    have hnew : lockedAmount tok (some { l with status := status }) = 0 := by
      simp [lockedAmount, hstatus]
    rw [hold, hnew]
    refine le_trans ?_ hsend
    change _ ≤ held s.log tok - if l.token = tok then l.amount else 0
    linarith

theorem solvent (h : Sound s) : Solvent s where
  backed := h.backed
  coopIds id coop hcoop := (h.coops id coop hcoop).1
  lockupIds id l hl := (h.lockups id l hl).2.1
  claimable id token member := (s.claimable id token).value_nonneg (h.claimable id token) member
  deposited := h.deposited
  settlements := h.settlements

end Sound

/-- A lockup is there to stay; it is settled by the two calls made for it, each in its time. -/
theorem sidePoolStep_lockups (hs : Sound s) (hrun : sidePoolStep c s = .ok (v, t)) :
    (∀ l, s.lockups id = none → t.lockups id = some l → l.status = .locked) ∧
    ∀ l, s.lockups id = some l →
      t.lockups id = some l ∨
      (l.status = .locked ∧ l.releaseLedger ≤ c.1.sequence ∧ c.1.sequence ≤ l.expiryLedger ∧
        t.lockups id = some { l with status := .released }) ∨
      (l.status = .locked ∧ l.expiryLedger < c.1.sequence ∧
        t.lockups id = some { l with status := .reclaimed }) := by
  have hstays : t.lockups = s.lockups →
      (∀ l, s.lockups id = none → t.lockups id = some l → l.status = .locked) ∧
      ∀ l, s.lockups id = some l → t.lockups id = some l := by
    intro hsame
    rw [hsame]
    exact ⟨fun l hnone hl => absurd (hnone.symm.trans hl) nofun, fun l hl => hl⟩
  obtain ⟨env, call⟩ := c
  cases call with
  | insurance call =>
      obtain ⟨u, -, rfl⟩ := onInsurance_ok.1 hrun
      exact (hstays rfl).imp_right fun h l hl => .inl (h l hl)
  | createCooperative founder members sharesBps =>
      obtain ⟨n, h⟩ := ignore_ok.1 hrun
      obtain ⟨coop, -, rfl⟩ := createCooperative_ok h
      exact (hstays rfl).imp_right fun h l hl => .inl (h l hl)
  | deposit src j token amount =>
      obtain ⟨-, -, coop, -, rfl⟩ := depositCoopProfit_ok (fun coop h => (hs.coops j coop h).2) hrun
      exact (hstays rfl).imp_right fun h l hl => .inl (h l hl)
  | claimProfit member j token =>
      obtain ⟨amount, h⟩ := ignore_ok.1 hrun
      obtain ⟨-, -, -, rfl⟩ := claimCoopProfit_ok h
      exact (hstays rfl).imp_right fun h l hl => .inl (h l hl)
  | createLockup funder recipient institution token amount releaseLedger expiryLedger =>
      obtain ⟨n, h⟩ := ignore_ok.1 hrun
      obtain ⟨-, l, -, -, -, hlocked, -, rfl⟩ := createEducationLockup_ok h
      refine ⟨fun l₁ hnone hl₁ => ?_, fun l₁ hl₁ => .inl ?_⟩
      · rcases update_cases hl₁ with ⟨-, rfl⟩ | ⟨-, hold⟩
        · exact hlocked
        · cases hnone.symm.trans hold
      · have hlt := (hs.lockups id l₁ hl₁).2.1
        exact (update_of_ne hlt.ne _ _).trans hl₁
  | release recipient j =>
      obtain ⟨l, hl, hlocked, hopen, hin, rfl⟩ := releaseEducationFunds_ok hrun
      obtain ⟨rfl, -⟩ := hs.lockups j l hl
      refine ⟨fun l₁ hnone hl₁ => ?_, fun l₁ hl₁ => ?_⟩
      · rcases eq_or_ne id l.id with rfl | hne
        · cases hl.symm.trans hnone
        · simp only [update_of_ne hne, hnone] at hl₁
          cases hl₁
      · rcases eq_or_ne id l.id with rfl | hne
        · obtain rfl := Option.some.inj (hl.symm.trans hl₁)
          exact .inr (.inl ⟨hlocked, hopen, hin, update_self ..⟩)
        · exact .inl ((update_of_ne hne _ _).trans hl₁)
  | reclaim funder j =>
      obtain ⟨l, hl, hlocked, hexpired, rfl⟩ := reclaimEducationFunds_ok hrun
      obtain ⟨rfl, -⟩ := hs.lockups j l hl
      refine ⟨fun l₁ hnone hl₁ => ?_, fun l₁ hl₁ => ?_⟩
      · rcases eq_or_ne id l.id with rfl | hne
        · cases hl.symm.trans hnone
        · simp only [update_of_ne hne, hnone] at hl₁
          cases hl₁
      · rcases eq_or_ne id l.id with rfl | hne
        · obtain rfl := Option.some.inj (hl.symm.trans hl₁)
          exact .inr (.inr ⟨hlocked, hexpired, update_self ..⟩)
        · exact .inl ((update_of_ne hne _ _).trans hl₁)

theorem Sound.moves (hs : Sound s) (hrun : sidePoolStep c s = .ok (v, t)) : Moves c s t where
  deposit src id token amount hcall := by
    obtain ⟨env, call⟩ := c
    obtain rfl : call = .deposit src id token amount := hcall
    obtain ⟨hpos, -, coop, hcoop, rfl⟩ := depositCoopProfit_ok (fun coop h => (hs.coops id coop h).2) hrun
    have hcredited := (hs.coops id coop hcoop).2.credits (s.claimable id token) hpos.le
    refine ⟨coop, hcoop, ?_, ?_⟩
    · simpa [SidePoolStore.setClaimable, SidePoolStore.setDeposited] using hcredited
    · simp [SidePoolStore.setDeposited]
  created id l hnone hl := (sidePoolStep_lockups hs hrun).1 l hnone hl
  settled id l hl := (sidePoolStep_lockups hs hrun).2 l hl

end StellarSplit.Split.SidePools
