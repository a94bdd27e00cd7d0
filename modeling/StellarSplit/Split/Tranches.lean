import Mathlib.Algebra.Order.BigOperators.Group.Finset
import Mathlib.Data.Nat.Bitwise
import StellarSplit.Lib.Runs
import StellarSplit.Split.Disputes

/-!
# Two ways to release a tranche

`release` pays every tranche that is unlocked and counts basis points;
`release_tranche` pays one tranche and marks its bit. Each of the two looks at
its own record only. The books beside a run note how often each tranche was
paid, and the two agree as long as no tranche is released on its own after a
`release` that had already found it unlocked.
-/

namespace StellarSplit.Split

open Exec Function Machine

variable {env : Env} {s t : Store} {v : Unit} {id : ℕ} {inv : Invoice}

/-! ## One tranche -/

/-- Pay one recipient's share of a tranche; the accumulator is what was paid. -/
def payTrancheShare (env : Env) (id : ℕ) (inv : Invoice) (token : Address) (bps : ℕ) (paid : ℤ)
    (ri : Address × ℕ) : SplitM ℤ := do
  let amount ← ofResult (unwrap inv.amounts[ri.2]?)
  let payout ← ofResult (trancheShare amount inv.funded inv.total bps)
  transferPositive env token ri.1 payout ⟨id, .payout⟩
  pure (if 0 < payout then paid + payout else paid)

/-- Mark the bit of a tranche. -/
def markTranche (id index : ℕ) : SplitM Unit :=
  modifyEntry id fun e => { e with releasedTrancheIdx := e.releasedTrancheIdx ||| 1 <<< index }

/-- `update_creator_stats_on_release` -/
def countReleased (creator : Address) (amount : ℤ) : SplitM Unit := do
  let s ← get
  require (s.stats.statsReleased creator + asU64 amount ≤ u64Max) .overflow
  modifyStats fun st => { st with
    statsReleased := update st.statsReleased creator (st.statsReleased creator + asU64 amount) }

/-- Save the invoice after one more tranche; the last one closes it. -/
def finishTranche (env : Env) (id : ℕ) (inv : Invoice) (token : Address) (releasedBps : ℕ)
    (paid : ℤ) : SplitM Unit :=
  if 10000 ≤ releasedBps then do
    transferPositive env token inv.creator inv.insuranceFund ⟨id, .insurance⟩
    notifyInvoice env inv
    maybeRecordReleased env
    countReleased inv.creator paid
    saveInvoice env id
      ((inv.insurancePaid.withReleasedBps releasedBps).completed .released env.now)
  else saveInvoice env id (inv.withReleasedBps releasedBps)

def releaseTranche (env : Env) (id index : ℕ) : SplitM Unit := do
  requireFnNotPaused env "release"
  let inv ← loadInvoice id
  require (inv.frozen = false) (.panic "invoice is frozen")
  require (inv.adminFrozen = false) (.panic "invoice frozen by admin")
  require (inv.status = .pending) (.panic "invoice is not pending")
  require (inv.heldUntil.getD 0 ≤ env.sequence) (.panic "EscrowHoldActive")
  require (inv.total ≤ inv.funded) (.panic "invoice not fully funded")
  let tranche ← orPanic inv.tranches[index]? "tranche index out of range"
  require (index < 32) (.panic "tranche index exceeds bitmask capacity")
  require (tranche.timestamp ≤ env.now) (.panic "tranche not yet releasable")
  let e ← getEntry id
  require (e.releasedTrancheIdx.testBit index = false) (.panic "tranche already released")
  let token ← orPanic inv.tokens.head? "no token"
  let paid ← inv.recipients.zipIdx.foldlM
    (payTrancheShare env id inv token tranche.basisPoints) 0
  markTranche id index
  require (inv.releasedBps + tranche.basisPoints ≤ u32Max) .overflow
  finishTranche env id inv token (inv.releasedBps + tranche.basisPoints) paid

section Frames

variable {R : Store → Store → Prop} [Moves R ⟨id, .insurance⟩] [∀ inv, Saves R id inv]
  [∀ f, Framed R (modifyStats f)]

instance framed_finishTranche {token : Address} {releasedBps : ℕ} {paid : ℤ} :
    Framed R (finishTranche env id inv token releasedBps paid) := by
  unfold finishTranche countReleased
  infer_instance

instance framed_releaseTranche {index : ℕ} [Moves R ⟨id, .payout⟩] [Framed R (markTranche id index)] :
    Framed R (releaseTranche env id index) := by
  unfold releaseTranche payTrancheShare
  infer_instance

end Frames

/-! ## The books -/

inductive TrancheCall where
  | release (preimage : Option (List ℕ))
  | releaseTranche (index : ℕ)
deriving DecidableEq

def trancheStep (id : ℕ) (c : Env × TrancheCall) : SplitM Unit :=
  match c.2 with
  | .release preimage => releaseInvoice c.1 id preimage
  | .releaseTranche index => releaseTranche c.1 id index

/-- What is noted beside a run: the basis points paid out, how often each tranche was paid, the
time of the last `release` and of the last call. -/
structure TrancheBooks where
  bps : ℕ := 0
  times : ℕ → ℕ := fun _ => 0
  lastRelease : Option ℕ := none
  clock : ℕ := 0

/-- The tranche has been reached by the time. -/
def unlockedAt (tranches : List Tranche) (now i : ℕ) : Bool :=
  (tranches[i]?).any fun tranche => tranche.timestamp ≤ now

/-- The basis points of a tranche, none when there is no such tranche. -/
def bpsAt (tranches : List Tranche) (i : ℕ) : ℕ := ((tranches[i]?).map Tranche.basisPoints).getD 0

/-- The books after a call that returned: a `release` pays the tranches that are unlocked and not
paid yet. -/
def TrancheBooks.next (id : ℕ) (c : Env × TrancheCall) (b : TrancheBooks) (s _t : Store) :
    TrancheBooks :=
  match (s.entries id).invoice with
  | none => b
  | some inv =>
    match c.2 with
    | .release _ =>
        { bps := b.bps + newlyUnlocked c.1 inv
          times := fun i => if unlockedAt inv.tranches c.1.now i then max (b.times i) 1 else b.times i
          lastRelease := some c.1.now
          clock := c.1.now }
    | .releaseTranche index =>
        { b with
          bps := b.bps + bpsAt inv.tranches index
          times := update b.times index (b.times index + 1)
          clock := c.1.now }

/-- A call with the books beside it. -/
def trancheBookStep (id : ℕ) (c : Env × TrancheCall) : Call (Store × TrancheBooks) SplitFault Unit :=
  beside (TrancheBooks.next id c) (trancheStep id c)

/-! ## What one call leaves -/

/-- The invoice has the same terms and `bps` basis points more on the counter. -/
def Advanced (id bps : ℕ) (inv : Invoice) (t : Store) : Prop :=
  ∃ stored, (t.entries id).invoice = some stored ∧ stored.terms = inv.terms ∧
    stored.releasedBps = inv.releasedBps + bps

instance untouched_bits : Untouched Entry.releasedTrancheIdx :=
  ⟨fun _ => rfl, fun _ _ => rfl, fun _ _ => rfl⟩

theorem finishTranches_advanced {bps : ℕ} {failed : Bool} {amount : ℤ}
    (hrun : finishTranches env id inv (inv.releasedBps + bps) failed amount s = .ok (v, t)) :
    Advanced id bps inv t := by
  obtain ⟨stored, hstored, hcloses⟩ := finishTranches_closes hrun
  obtain ⟨-, stored', hstored', -, hbps⟩ := finishTranches_ok hrun
  obtain rfl : stored = stored' := Option.some.inj (hstored.symm.trans hstored')
  exact ⟨stored, hstored, hcloses.terms, hbps⟩

theorem releaseTranches_advanced (hrun : releaseTranches env id inv s = .ok (v, t)) :
    Advanced id (newlyUnlocked env inv) inv t := by
  simp only [releaseTranches, bind_ok] at hrun
  obtain ⟨_, _, -, _, _, -, _, _, -, _, _, -, _, _, -, _, _, -, hfinish⟩ := hrun
  exact finishTranches_advanced hfinish

/-- A `release` of an invoice with tranches pays what is newly unlocked and marks no bit. -/
theorem releaseInvoice_tranches {preimage : Option (List ℕ)}
    (hinv : (s.entries id).invoice = some inv) (htranches : inv.tranches ≠ [])
    (hrun : releaseInvoice env id preimage s = .ok (v, t)) :
    Advanced id (newlyUnlocked env inv) inv t ∧
      (t.entries id).releasedTrancheIdx = (s.entries id).releasedTrancheIdx := by
  have hstep : (⟨env, .releaseInvoice preimage⟩ : ReleaseStep).run id s = .ok (v, t) := hrun
  obtain ⟨inv', b, b', t', hload, -, hrelease, rfl⟩ := ReleaseStep.inner hstep
  have hload' : (s.entries id).load = some (inv.withPayments (s.entries id).payments) := by
    unfold Entry.load
    rw [hinv]
    rfl
  obtain rfl := Option.some.inj (hload'.symm.trans hload)
  rcases releaseAs_ok hrelease with ⟨hnone, -⟩ | ⟨-, hparts⟩
  · exact absurd hnone htranches
  · obtain ⟨stored, hstored, hterms, hbps⟩ := releaseTranches_advanced hparts
    have hkept : Keeps Entry.releasedTrancheIdx (s.withLock b) t' := Framed.holds _ _ _ hparts
    exact ⟨⟨stored, hstored, hterms, hbps⟩, hkept id⟩

theorem finishTranche_advanced {token : Address} {bps : ℕ} {paid : ℤ}
    (hrun : finishTranche env id inv token (inv.releasedBps + bps) paid s = .ok (v, t)) :
    Advanced id bps inv t ∧ (t.entries id).releasedTrancheIdx = (s.entries id).releasedTrancheIdx := by
  have hcount : Framed (Keeps Entry.releasedTrancheIdx) (countReleased inv.creator paid) := by
    have hstats : Framed (Keeps Entry.releasedTrancheIdx) (modifyStats fun st => { st with
        statsReleased := update st.statsReleased inv.creator
          (st.statsReleased inv.creator + asU64 paid) }) := framed_stats fun _ => rfl
    unfold countReleased
    infer_instance
  have hkept : Framed (Keeps Entry.releasedTrancheIdx)
      (finishTranche env id inv token (inv.releasedBps + bps) paid) := by
    unfold finishTranche
    infer_instance
  refine ⟨?_, hkept.respects s v t hrun id⟩
  unfold finishTranche at hrun
  split_ifs at hrun with hlast
  · obtain ⟨_, _, -, hrun⟩ := bind_ok.1 hrun
    obtain ⟨_, _, -, hrun⟩ := bind_ok.1 hrun
    obtain ⟨_, _, -, hrun⟩ := bind_ok.1 hrun
    obtain ⟨_, _, -, hsave⟩ := bind_ok.1 hrun
    refine ⟨_, saveInvoice_stored hsave, ?_, rfl⟩
    exact ((((Invoice.Closes.refl inv).insurancePaid.withReleasedBps _).completed _ _).withPayments
      []).terms
  · refine ⟨_, saveInvoice_stored hrun, ?_, rfl⟩
    exact (((Invoice.Closes.refl inv).withReleasedBps _).withPayments []).terms

/-- A tranche that is released on its own was unlocked and its bit not marked. -/
theorem releaseTranche_ok {index : ℕ} (hinv : (s.entries id).invoice = some inv)
    (hrun : releaseTranche env id index s = .ok (v, t)) :
    unlockedAt inv.tranches env.now index = true ∧
      (s.entries id).releasedTrancheIdx.testBit index = false ∧
      Advanced id (bpsAt inv.tranches index) inv t ∧
      (t.entries id).releasedTrancheIdx = (s.entries id).releasedTrancheIdx ||| 1 <<< index := by
  simp only [releaseTranche, requireFnNotPaused_bind, loadInvoice_bind, require_bind, orPanic_bind,
    getEntry_bind] at hrun
  obtain ⟨-, inv', hload, -, -, -, -, -, tranche, htranche, -, htime, hbit, token, -, hrun⟩ := hrun
  have hload' : (s.entries id).load = some (inv.withPayments (s.entries id).payments) := by
    unfold Entry.load
    rw [hinv]
    rfl
  obtain rfl := Option.some.inj (hload'.symm.trans hload)
  change inv.tranches[index]? = some tranche at htranche
  obtain ⟨paid, u, hloop, hrun⟩ := bind_ok.1 hrun
  obtain ⟨_, w, hmark, hrun⟩ := bind_ok.1 hrun
  obtain rfl := modifyEntry_ok.1 hmark
  rw [require_bind] at hrun
  obtain ⟨-, hfinish⟩ := hrun
  have hpays : Framed (Frame Set.univ ∅ anyMemo)
      ((inv.withPayments (s.entries id).payments).recipients.zipIdx.foldlM
        (payTrancheShare env id (inv.withPayments (s.entries id).payments) token
          tranche.basisPoints) 0) := by
    have hlogs : Logs ∅ anyMemo ⟨id, .payout⟩ := ⟨trivial⟩
    unfold payTrancheShare
    infer_instance
  have hchange : Change ∅ anyMemo s u := change_of_framed hpays hloop
  obtain ⟨hadvanced, hkept⟩ := finishTranche_advanced hfinish
  obtain ⟨stored, hstored, hterms, hbps⟩ := hadvanced
  refine ⟨?_, hbit, ⟨stored, hstored, hterms, ?_⟩, ?_⟩
  · unfold unlockedAt
    rw [htranche]
    simpa using htime
  · unfold bpsAt
    rw [htranche]
    exact hbps
  · rw [hkept, Store.setEntry_self, hchange.entries id (by simp)]

/-! ## Sums over a schedule -/

variable {tranches : List Tranche} {now later i : ℕ}

/-- The basis points of the tranches, each as often as it was paid. -/
def paidBps (tranches : List Tranche) (times : ℕ → ℕ) : ℕ :=
  ∑ i ∈ Finset.range tranches.length, times i * bpsAt tranches i

theorem unlockedAt_mono (h : now ≤ later) (hi : unlockedAt tranches now i = true) :
    unlockedAt tranches later i = true := by
  unfold unlockedAt at hi ⊢
  cases htranche : tranches[i]? with
  | none => simp [htranche] at hi
  | some tranche =>
      have htime : tranche.timestamp ≤ now := by simpa [htranche] using hi
      simpa using htime.trans h

theorem unlockedBps_eq (tranches : List Tranche) (now : ℕ) :
    unlockedBps tranches now = paidBps tranches fun i => if unlockedAt tranches now i then 1 else 0 := by
  unfold paidBps
  induction tranches with
  | nil => rfl
  | cons tranche tranches ih =>
      have hrest : unlockedBps (tranche :: tranches) now =
          (if tranche.timestamp ≤ now then tranche.basisPoints else 0) + unlockedBps tranches now := by
        unfold unlockedBps
        by_cases htime : tranche.timestamp ≤ now <;> simp [htime]
      rw [hrest, ih, List.length_cons, Finset.sum_range_succ', add_comm]
      congr 1
      simp [unlockedAt, bpsAt]

theorem paidBps_update {times : ℕ → ℕ} {index : ℕ} (hindex : index < tranches.length) :
    paidBps tranches (update times index (times index + 1)) =
      paidBps tranches times + bpsAt tranches index := by
  unfold paidBps
  have hmem : index ∈ Finset.range tranches.length := Finset.mem_range.2 hindex
  rw [← Finset.add_sum_erase _ _ hmem, ← Finset.add_sum_erase _ (fun i => times i * bpsAt tranches i) hmem]
  have hrest : ∑ i ∈ (Finset.range tranches.length).erase index,
        update times index (times index + 1) i * bpsAt tranches i =
      ∑ i ∈ (Finset.range tranches.length).erase index, times i * bpsAt tranches i := by
    refine Finset.sum_congr rfl fun i hi => ?_
    rw [update_of_ne (Finset.ne_of_mem_erase hi)]
  rw [hrest, update_self]
  ring

theorem lt_of_unlockedAt (h : unlockedAt tranches now i = true) : i < tranches.length := by
  unfold unlockedAt at h
  by_contra hle
  rw [List.getElem?_eq_none (not_lt.1 hle)] at h
  cases h

/-- What was paid at most once and only after it was unlocked is within what is unlocked. -/
theorem paidBps_le_unlocked {times : ℕ → ℕ} (honce : ∀ i, times i ≤ 1)
    (hreached : ∀ i, times i = 1 → unlockedAt tranches now i = true) :
    paidBps tranches times ≤ unlockedBps tranches now := by
  rw [unlockedBps_eq]
  unfold paidBps
  apply Finset.sum_le_sum
  intro i _
  apply Nat.mul_le_mul_right
  by_cases hi : times i = 1
  · simp only [hi, if_pos (hreached i hi), le_refl]
  · have hzero : times i = 0 := by
      have := honce i
      omega
    rw [hzero]
    exact Nat.zero_le _

/-! ## The two records agree -/

/-- The counter is what the books say was paid, no tranche was paid twice or before its time, and
whatever was paid has its bit marked or was unlocked at the last `release`. -/
structure Agreed (id : ℕ) (start : Invoice) (s : Store) (b : TrancheBooks) : Prop where
  stored : ∃ inv, (s.entries id).invoice = some inv ∧ inv.terms = start.terms ∧
    inv.releasedBps = b.bps
  bps : b.bps = paidBps start.tranches b.times
  once : ∀ i, b.times i ≤ 1
  reached : ∀ i, b.times i = 1 → unlockedAt start.tranches b.clock i = true
  noted : ∀ i, b.times i = 1 → (s.entries id).releasedTrancheIdx.testBit i = true ∨
    ∃ T ∈ b.lastRelease, unlockedAt start.tranches T i = true

/-- The call does not release a tranche on its own that was unlocked at the last `release`. -/
def NotYetReleased (id : ℕ) (sb : Store × TrancheBooks) (c : Env × TrancheCall) : Prop :=
  match c.2 with
  | .release _ => True
  | .releaseTranche index => ∀ T ∈ sb.2.lastRelease, ∀ inv ∈ (sb.1.entries id).invoice,
      unlockedAt inv.tranches T index = false

theorem tranches_of_terms {start : Invoice} (h : inv.terms = start.terms) :
    inv.tranches = start.tranches := by
  have htranches := congrArg Invoice.tranches h
  exact htranches

theorem Agreed.release {start : Invoice} {b : TrancheBooks} {preimage : Option (List ℕ)}
    (h : Agreed id start s b) (htranches : start.tranches ≠ []) (hclock : b.clock ≤ env.now)
    (hrun : releaseInvoice env id preimage s = .ok (v, t)) :
    Agreed id start t (b.next id (env, .release preimage) s t) := by
  obtain ⟨inv, hinv, hterms, hcounter⟩ := h.stored
  have hsame : inv.tranches = start.tranches := tranches_of_terms hterms
  obtain ⟨⟨stored, hstored, hterms', hbps⟩, hbits⟩ :=
    releaseInvoice_tranches hinv (by rwa [hsame]) hrun
  have hwithin : b.bps ≤ unlockedBps start.tranches env.now := by
    rw [h.bps]
    exact paidBps_le_unlocked h.once fun i hi => unlockedAt_mono hclock (h.reached i hi)
  have hnew : b.bps + newlyUnlocked env inv = unlockedBps start.tranches env.now := by
    unfold newlyUnlocked
    rw [hsame, hcounter]
    omega
  -- after the call a tranche counts as paid exactly when it is unlocked
  have htimes : ∀ i, (if unlockedAt start.tranches env.now i then max (b.times i) 1 else b.times i) =
      if unlockedAt start.tranches env.now i then 1 else 0 := by
    intro i
    have honce := h.once i
    split_ifs with hi
    · omega
    · by_contra hpaid
      exact hi (unlockedAt_mono hclock (h.reached i (by omega)))
  have hnext : b.next id (env, .release preimage) s t =
      { bps := unlockedBps start.tranches env.now
        times := fun i => if unlockedAt start.tranches env.now i then 1 else 0
        lastRelease := some env.now
        clock := env.now } := by
    unfold TrancheBooks.next
    simp only [hinv, hnew, hsame, htimes]
  have hunlocked : ∀ i, (if unlockedAt start.tranches env.now i = true then 1 else 0) = 1 →
      unlockedAt start.tranches env.now i = true := by
    intro i hi
    by_contra hlocked
    rw [if_neg hlocked] at hi
    omega
  rw [hnext]
  refine ⟨⟨stored, hstored, hterms'.trans hterms, ?_⟩, unlockedBps_eq _ _, fun i => ?_, hunlocked,
    fun i hi => .inr ⟨env.now, rfl, hunlocked i hi⟩⟩
  · rw [hbps, hcounter, hnew]
  · dsimp only
    split_ifs <;> omega

theorem Agreed.releaseTranche {start : Invoice} {b : TrancheBooks} {index : ℕ}
    (h : Agreed id start s b) (hclock : b.clock ≤ env.now)
    (hfirst : NotYetReleased id (s, b) (env, .releaseTranche index))
    (hrun : releaseTranche env id index s = .ok (v, t)) :
    Agreed id start t (b.next id (env, .releaseTranche index) s t) := by
  obtain ⟨inv, hinv, hterms, hcounter⟩ := h.stored
  have hsame : inv.tranches = start.tranches := tranches_of_terms hterms
  obtain ⟨hunlocked, hbit, ⟨stored, hstored, hterms', hbps⟩, hbits⟩ := releaseTranche_ok hinv hrun
  rw [hsame] at hunlocked hbps
  -- neither the bit nor the last `release` covers the tranche, so it was not paid before
  have hunpaid : b.times index = 0 := by
    by_contra hpaid
    have hone : b.times index = 1 := by
      have := h.once index
      omega
    rcases h.noted index hone with hmarked | ⟨T, hT, hreleased⟩
    · rw [hbit] at hmarked
      cases hmarked
    · have hlocked := hfirst T hT inv hinv
      rw [hsame, hreleased] at hlocked
      cases hlocked
  have hnext : b.next id (env, .releaseTranche index) s t =
      { b with
        bps := b.bps + bpsAt start.tranches index
        times := update b.times index (b.times index + 1)
        clock := env.now } := by
    unfold TrancheBooks.next
    simp only [hinv, hsame]
  rw [hnext]
  refine ⟨⟨stored, hstored, hterms'.trans hterms, ?_⟩, ?_, fun i => ?_, fun i hi => ?_, fun i hi => ?_⟩
  · rw [hbps, hcounter]
  · dsimp only
    rw [h.bps, paidBps_update (lt_of_unlockedAt hunlocked)]
  · dsimp only
    by_cases heq : i = index
    · subst heq
      rw [update_self, hunpaid]
    · rw [update_of_ne heq]
      exact h.once i
  · by_cases heq : i = index
    · subst heq
      exact hunlocked
    · dsimp only at hi ⊢
      rw [update_of_ne heq] at hi
      exact unlockedAt_mono hclock (h.reached i hi)
  · rw [hbits, Nat.testBit_or]
    by_cases heq : i = index
    · subst heq
      left
      simp
    · dsimp only at hi ⊢
      rw [update_of_ne heq] at hi
      rcases h.noted i hi with hmarked | hreleased
      · left
        rw [hmarked]
        rfl
      · exact .inr hreleased

/-- The calls of a run in the order of the ledger's time find a clock that is not ahead of them. -/
theorem along_clock {calls : List (Env × TrancheCall)} {b : TrancheBooks}
    (hclock : calls.Pairwise fun c d => c.1.now ≤ d.1.now) (hstart : ∀ c ∈ calls, b.clock ≤ c.1.now) :
    Along (fun sb c => sb.2.clock ≤ c.1.now) (trancheBookStep id) (s, b) calls := by
  refine along_ordered (fun sb c v sb' d hstart hfirst hrun => ?_) hclock hstart
  obtain ⟨s, b⟩ := sb
  obtain ⟨t, b'⟩ := sb'
  obtain ⟨-, rfl⟩ := beside_ok.1 hrun
  unfold TrancheBooks.next
  obtain ⟨env, call⟩ := c
  split
  · exact hstart
  · cases call with
    | release preimage => exact hfirst
    | releaseTranche index => exact hfirst

theorem Agreed.step {start : Invoice} {b : TrancheBooks} {c : Env × TrancheCall}
    (h : Agreed id start s b) (htranches : start.tranches ≠ []) (hclock : b.clock ≤ c.1.now)
    (hfirst : NotYetReleased id (s, b) c) (hrun : trancheStep id c s = .ok (v, t)) :
    Agreed id start t (b.next id c s t) ∧ (b.next id c s t).clock = c.1.now := by
  obtain ⟨inv, hinv, -, -⟩ := h.stored
  obtain ⟨env, call⟩ := c
  cases call with
  | release preimage =>
      refine ⟨h.release htranches hclock hrun, ?_⟩
      unfold TrancheBooks.next
      simp only [hinv]
  | releaseTranche index =>
      refine ⟨h.releaseTranche hclock hfirst hrun, ?_⟩
      unfold TrancheBooks.next
      simp only [hinv]

theorem agreed_run {start : Invoice} {calls : List (Env × TrancheCall)} {b : TrancheBooks}
    (h : Agreed id start s b) (htranches : start.tranches ≠ [])
    (hclock : Along (fun sb c => sb.2.clock ≤ c.1.now) (trancheBookStep id) (s, b) calls)
    (hfirst : Along (NotYetReleased id) (trancheBookStep id) (s, b) calls) {T : ℕ}
    (hstart : b.clock ≤ T) (hT : ∀ c ∈ calls, c.1.now ≤ T) :
    Agreed id start (runAll (trancheBookStep id) (s, b) calls).1
        (runAll (trancheBookStep id) (s, b) calls).2 ∧
      (runAll (trancheBookStep id) (s, b) calls).2.clock ≤ T := by
  refine runAll_induction (I := fun sb => Agreed id start sb.1 sb.2 ∧ sb.2.clock ≤ T) ?_
    ⟨h, hstart⟩ ((hclock.and hfirst).and_mem hT)
  rintro ⟨u, b⟩ c a ⟨w, b'⟩ ⟨hagreed, -⟩ ⟨hbound, hahead, hnotYet⟩ hrun
  obtain ⟨hstep, rfl⟩ := beside_ok.1 hrun
  obtain ⟨hnext, htime⟩ := hagreed.step htranches hahead hnotYet hstep
  exact ⟨hnext, htime.trans_le hbound⟩

/-- As long as no tranche is released on its own that an earlier `release` had found unlocked,
the two ways agree: no tranche is paid twice, no more basis points are paid than are unlocked, and
the counter is what was paid. -/
theorem tranche_releases_agree {start : Invoice} {calls : List (Env × TrancheCall)}
    (hinv : (s.entries id).invoice = some start) (hfresh : start.releasedBps = 0)
    (hsum : (start.tranches.map Tranche.basisPoints).sum = 10000)
    (hclock : calls.Pairwise fun c d => c.1.now ≤ d.1.now)
    (hfirst : Along (NotYetReleased id) (trancheBookStep id) (s, {}) calls) :
    (∀ i, (runAll (trancheBookStep id) (s, {}) calls).2.times i ≤ 1) ∧
      (∀ T, (∀ c ∈ calls, c.1.now ≤ T) →
        (runAll (trancheBookStep id) (s, {}) calls).2.bps ≤ unlockedBps start.tranches T) ∧
      ∃ inv, ((runAll (trancheStep id) s calls).entries id).invoice = some inv ∧
        inv.releasedBps = (runAll (trancheBookStep id) (s, {}) calls).2.bps ∧
        inv.releasedBps ≤ 10000 := by
  have htranches : start.tranches ≠ [] := by
    intro hnone
    rw [hnone] at hsum
    cases hsum
  have hagreed : Agreed id start s {} := by
    refine ⟨⟨start, hinv, rfl, hfresh⟩, ?_, fun _ => Nat.zero_le 1, ?_, ?_⟩
    · simp [paidBps]
    · intro i hi
      cases hi
    · intro i hi
      cases hi
  have hahead : Along (fun sb c => sb.2.clock ≤ c.1.now) (trancheBookStep id) (s, {}) calls :=
    along_clock hclock fun _ _ => Nat.zero_le _
  have hwithin : ∀ T, (∀ c ∈ calls, c.1.now ≤ T) →
      (runAll (trancheBookStep id) (s, {}) calls).2.bps ≤ unlockedBps start.tranches T := by
    intro T hT
    obtain ⟨hend, hbound⟩ := agreed_run hagreed htranches hahead hfirst (Nat.zero_le T) hT
    rw [hend.bps]
    exact paidBps_le_unlocked hend.once fun i hi => unlockedAt_mono hbound (hend.reached i hi)
  obtain ⟨T, -, hT⟩ := exists_latest (fun c : Env × TrancheCall => c.1.now) 0 calls
  obtain ⟨hend, -⟩ := agreed_run hagreed htranches hahead hfirst (Nat.zero_le T) hT
  obtain ⟨inv, hstored, -, hcounter⟩ := hend.stored
  refine ⟨hend.once, hwithin, inv, ?_, hcounter, ?_⟩
  · rw [← hstored]
    have hruns := runAll_beside (fun c => TrancheBooks.next id c) (trancheStep id) s {} calls
    rw [← hruns]
    rfl
  · rw [hcounter]
    exact (hwithin T hT).trans ((unlockedBps_le start.tranches T).trans hsum.le)

/-! ## Two halves -/

/-- A fully funded invoice that is paid in two halves, at times 100 and 200. -/
def halvesInvoice : Invoice :=
  { sampleInvoice with funded := 100, tranches := [⟨100, 5000⟩, ⟨200, 5000⟩] }

def halvesStore : Store := sampleStore halvesInvoice [{ payer := 20, amount := 100 }]

/-- The first half on its own, then everything that is left. -/
def halvesInTurn : List (Env × TrancheCall) :=
  [(sampleEnv 150 100, .releaseTranche 0), (sampleEnv 250 100, .release none)]

theorem halves_in_turn_agree :
    (runAll (trancheBookStep 1) (halvesStore, {}) halvesInTurn).2.bps = 10000 ∧
      (∀ i, (runAll (trancheBookStep 1) (halvesStore, {}) halvesInTurn).2.times i ≤ 1) ∧
      (∀ T, (∀ c ∈ halvesInTurn, c.1.now ≤ T) →
        (runAll (trancheBookStep 1) (halvesStore, {}) halvesInTurn).2.bps ≤
          unlockedBps halvesInvoice.tranches T) ∧
      ∃ inv, ((runAll (trancheStep 1) halvesStore halvesInTurn).entries 1).invoice = some inv ∧
        inv.releasedBps = (runAll (trancheBookStep 1) (halvesStore, {}) halvesInTurn).2.bps ∧
        inv.releasedBps ≤ 10000 := by
  refine ⟨by decide +kernel, ?_⟩
  refine tranche_releases_agree rfl rfl (by decide) (by decide) ?_
  refine ⟨fun _ T hT => ?_, fun _ => trivial, trivial⟩
  cases hT

/-- A `release` pays the first half; then the first half is released on its own. -/
def halfTwice : List (Env × TrancheCall) :=
  [(sampleEnv 150 100, .release none), (sampleEnv 160 100, .releaseTranche 0)]

/-- All the money is paid out and the first half twice, while only 5000 basis points are
unlocked. -/
theorem first_half_paid_twice :
    (halvesInvoice.tranches.map Tranche.basisPoints).sum = 10000 ∧
      (runAll (trancheBookStep 1) (halvesStore, {}) halfTwice).2.times 0 = 2 ∧
      (runAll (trancheBookStep 1) (halvesStore, {}) halfTwice).2.bps = 10000 ∧
      unlockedBps halvesInvoice.tranches 160 = 5000 ∧
      paidOut 1 9 10 (runAll (trancheStep 1) halvesStore halfTwice) = 50 := by
  refine ⟨by decide, by decide +kernel, by decide +kernel, by decide, by decide +kernel⟩

end StellarSplit.Split
