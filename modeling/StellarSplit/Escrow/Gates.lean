import Mathlib.Data.List.Nodup
import Mathlib.Data.List.Perm.Subperm
import StellarSplit.Escrow.Contract

/-!
# Release gates

The three gates of an invoice, said without the order in which the code
checks them, and the votes of the co-signers. `checkReleaseGates` answers
`ok` exactly when every gate is open, and every vote keeps the tallies and
the stored status in step.
-/

namespace StellarSplit.Escrow

open Exec Function

/-! ## When the gates are open -/

/-- A reading an oracle condition accepts: positive, not from the future, not stale. -/
def Usable (env : Env) (cond : OracleCondition) (oracle : Address) (data : PriceData) : Prop :=
  env.lastprice oracle cond.asset = some data ∧ 0 < data.price ∧ data.timestamp ≤ env.now ∧
    env.now - data.timestamp ≤ cond.maxStalenessSecs

/-- The first usable reading, of the primary oracle and then of the fallback. -/
def FirstUsable (env : Env) (cond : OracleCondition) (data : PriceData) : Prop :=
  Usable env cond cond.oracle data ∨
    (¬∃ d, Usable env cond cond.oracle d) ∧
      ∃ fallback, cond.fallbackOracle = some fallback ∧ Usable env cond fallback data

/-- Every gate configured on the invoice is open. -/
def GatesOpen (env : Env) (s : Store) (id : ℕ) : Prop :=
  (∀ r, s.schedules id = some r → r.status = .scheduled →
    r.releaseAt ≤ env.now ∧ r.unlockLedger ≤ env.sequence) ∧
  (∀ a, s.approvals id = some a → a.status = .approved) ∧
  (∀ cond, s.oracleConds id = some cond →
    ∃ data, FirstUsable env cond data ∧
      comparesTo cond.comparator data.price cond.thresholdPrice = true)

section Oracle

variable {env : Env} {cond : OracleCondition}

theorem readOracle_ok {oracle : Address} {data : PriceData} :
    readOracle env oracle cond.asset cond.maxStalenessSecs = .ok data ↔
      Usable env cond oracle data := by
  unfold readOracle Usable
  cases h : env.lastprice oracle cond.asset with
  | none => simp
  | some d =>
      simp only [Option.some.injEq]
      split_ifs with h₁ h₂
      · simp only [false_iff]
        rintro ⟨rfl, hp, ht, -⟩
        omega
      · simp only [false_iff]
        rintro ⟨rfl, -, -, hs⟩
        omega
      · constructor
        · intro hd
          obtain rfl := Except.ok.inj hd
          exact ⟨rfl, by omega, by omega, by omega⟩
        · rintro ⟨rfl, -⟩
          rfl

theorem readOracle_error {oracle : Address} {e : Error}
    (h : readOracle env oracle cond.asset cond.maxStalenessSecs = .error e) :
    ¬∃ d, Usable env cond oracle d := by
  rintro ⟨d, hd⟩
  rw [readOracle_ok.2 hd] at h
  cases h

theorem Usable.unique {oracle : Address} {d d' : PriceData} (h : Usable env cond oracle d)
    (h' : Usable env cond oracle d') : d = d' :=
  Option.some.inj (h.1.symm.trans h'.1)

theorem FirstUsable.unique {d d' : PriceData} (h : FirstUsable env cond d)
    (h' : FirstUsable env cond d') : d = d' := by
  rcases h with h | ⟨hn, f, hf, h⟩ <;> rcases h' with h' | ⟨hn', f', hf', h'⟩
  · exact h.unique h'
  · exact (hn' ⟨d, h⟩).elim
  · exact (hn ⟨d', h'⟩).elim
  · obtain rfl := Option.some.inj (hf.symm.trans hf')
    exact h.unique h'

/-- The evaluation reports the first usable reading. -/
theorem evaluateOracleCondition_ok {reading : OracleReading}
    (h : evaluateOracleCondition env cond = .ok reading) :
    ∃ data, FirstUsable env cond data ∧
      reading.conditionMet = comparesTo cond.comparator data.price cond.thresholdPrice := by
  unfold evaluateOracleCondition at h
  cases hp : readOracle env cond.oracle cond.asset cond.maxStalenessSecs with
  | ok data =>
      rw [hp] at h
      obtain rfl := Except.ok.inj h
      exact ⟨data, .inl (readOracle_ok.1 hp), rfl⟩
  | error e =>
      have hnone := readOracle_error hp
      rw [hp] at h
      cases hf : cond.fallbackOracle with
      | none => simp [hf, bind, Except.bind] at h
      | some fallback =>
          cases hs : readOracle env fallback cond.asset cond.maxStalenessSecs with
          | error e' => simp [hf, hs, bind, Except.bind] at h
          | ok data =>
              simp only [hf, hs] at h
              obtain rfl := Except.ok.inj h
              exact ⟨data, .inr ⟨hnone, fallback, hf, readOracle_ok.1 hs⟩, rfl⟩

/-- Without a usable reading the evaluation fails. -/
theorem evaluateOracleCondition_error {e : Error}
    (h : evaluateOracleCondition env cond = .error e) : ¬∃ data, FirstUsable env cond data := by
  rintro ⟨data, hdata⟩
  unfold evaluateOracleCondition at h
  rcases hdata with hp | ⟨hnone, fallback, hf, hs⟩
  · rw [readOracle_ok.2 hp] at h
    cases h
  · cases hp : readOracle env cond.oracle cond.asset cond.maxStalenessSecs with
    | ok d => exact hnone ⟨d, readOracle_ok.1 hp⟩
    | error e' =>
        rw [hp] at h
        simp only [hf, readOracle_ok.2 hs] at h
        cases h

end Oracle

/-! ## The gate check -/

theorem checkSchedule_ok {env : Env} {s : Store} {id : ℕ} {u : Unit} :
    checkSchedule env s id = .ok u ↔
      ∀ r, s.schedules id = some r → r.status = .scheduled →
        r.releaseAt ≤ env.now ∧ r.unlockLedger ≤ env.sequence := by
  unfold checkSchedule
  cases h : s.schedules id with
  | none => simp
  | some r =>
      simp only [Option.some.injEq, forall_eq']
      split_ifs with h₁ h₂ h₃
      · simp [h₁]
        omega
      · simp [h₁]
        omega
      · simp [h₁]
        omega
      · simp [h₁]

theorem checkApproval_ok {s : Store} {id : ℕ} {u : Unit} :
    checkApproval s id = .ok u ↔ ∀ a, s.approvals id = some a → a.status = .approved := by
  unfold checkApproval
  cases h : s.approvals id with
  | none => simp
  | some a => cases hs : a.status <;> simp [hs]

/-- The gate check always returns; it writes an oracle reading at most, and its answer is
`ok` exactly when the gates are open. -/
theorem checkReleaseGates_spec (env : Env) (id : ℕ) (s : Store) :
    ∃ r reads, checkReleaseGates env id s = .ok (r, { s with oracleReads := reads }) ∧
      (r = .ok () ↔ GatesOpen env s id) := by
  have hrun : ∀ r : Except Error Unit,
      (pure r : EscrowM (Except Error Unit)) s = .ok (r, { s with oracleReads := s.oracleReads }) :=
    fun _ => rfl
  unfold GatesOpen checkReleaseGates
  rw [← checkSchedule_ok (u := ()), ← checkApproval_ok (u := ()), bind_run (get_ok.2 ⟨rfl, rfl⟩)]
  cases h₁ : checkSchedule env s id with
  | error e => exact ⟨_, _, hrun _, by simp⟩
  | ok _ =>
      cases h₂ : checkApproval s id with
      | error e => exact ⟨_, _, hrun _, by simp⟩
      | ok _ =>
          cases h₃ : s.oracleConds id with
          | none => exact ⟨_, _, hrun _, by simp⟩
          | some cond =>
              cases h₄ : evaluateOracleCondition env cond with
              | error e =>
                  refine ⟨.error e, _, by simp only [h₄]; exact hrun _, ?_⟩
                  have hno := evaluateOracleCondition_error h₄
                  simp only [reduceCtorEq, true_and, Option.some.injEq, forall_eq', false_iff]
                  rintro ⟨data, hdata, -⟩
                  exact hno ⟨data, hdata⟩
              | ok reading =>
                  obtain ⟨data, hdata, hmet⟩ := evaluateOracleCondition_ok h₄
                  refine ⟨if reading.conditionMet then .ok () else .error .oracleConditionNotMet,
                    update s.oracleReads id (some reading), by simp only [h₄]; rfl, ?_⟩
                  simp only [true_and, Option.some.injEq, forall_eq']
                  constructor
                  · intro hr
                    refine ⟨data, hdata, ?_⟩
                    rw [← hmet]
                    by_contra hfalse
                    simp [hfalse] at hr
                  · rintro ⟨data', hdata', hsat⟩
                    obtain rfl := hdata.unique hdata'
                    simp [hmet, hsat]

/-! ## Votes -/

/-- The votes of an approval record and the status they call for. -/
structure VotesSound (a : CosignerApproval) : Prop where
  signers : a.signers.Nodup
  approvals : a.approvals.Nodup
  rejections : a.rejections.Nodup
  approvals_subset : a.approvals ⊆ a.signers
  rejections_subset : a.rejections ⊆ a.signers
  disjoint : a.approvals.Disjoint a.rejections
  approved : a.status = .approved ↔ a.threshold ≤ a.approvals.length
  rejected : a.status = .rejected ↔ a.status ≠ .approved ∧
    (a.signers.filter (· ∉ a.rejections)).length < a.threshold

/-- The signers that have not rejected are the signers less the rejections. -/
theorem length_filter_not_rejected {signers rejections : List Address} (hs : signers.Nodup)
    (hr : rejections.Nodup) (hsub : rejections ⊆ signers) :
    (signers.filter (· ∉ rejections)).length = signers.length - rejections.length := by
  have hperm : (signers.filter (· ∈ rejections)).Perm rejections := by
    refine (List.perm_ext_iff_of_nodup (hs.filter _) hr).2 fun a => ?_
    simpa using fun ha => hsub ha
  have hcount := List.length_eq_length_filter_add (l := signers) (fun a => decide (a ∈ rejections))
  have hlen := hperm.length_eq
  have hneg : signers.filter (fun a => !decide (a ∈ rejections)) =
      signers.filter (· ∉ rejections) := by
    simp
  rw [hneg] at hcount
  omega

theorem recomputeApprovalStatus_frame {a b : CosignerApproval} {s t : Store}
    (h : recomputeApprovalStatus a s = .ok (b, t)) : s = t := by
  simp only [recomputeApprovalStatus, bind_ok, require_ok, pure_ok] at h
  obtain ⟨-, _, ⟨-, rfl⟩, -, rfl⟩ := h
  rfl

/-- Recounting sets the status that the tallies call for. -/
theorem recomputeApprovalStatus_sound {a b : CosignerApproval} {s t : Store}
    (h : recomputeApprovalStatus a s = .ok (b, t)) (ledger : ℕ)
    (hs : a.signers.Nodup) (ha : a.approvals.Nodup) (hr : a.rejections.Nodup)
    (has : a.approvals ⊆ a.signers) (hrs : a.rejections ⊆ a.signers)
    (hd : a.approvals.Disjoint a.rejections) :
    VotesSound { b with updatedLedger := ledger } := by
  simp only [recomputeApprovalStatus, bind_ok, require_ok, pure_ok] at h
  obtain ⟨-, -, ⟨-, rfl⟩, rfl, rfl⟩ := h
  refine ⟨hs, ha, hr, has, hrs, hd, ?_, ?_⟩
  · dsimp only
    split_ifs <;> simp_all
  · simp only [length_filter_not_rejected hs hr hrs]
    split_ifs <;> simp_all

/-- Every approval record has sound votes. -/
def Store.VotesSound (s : Store) : Prop :=
  ∀ id a, s.approvals id = some a → Escrow.VotesSound a

section Voting

variable {env : Env} {s t : Store} {id : ℕ} {signer : Address} {status : ApprovalStatus}

/-- A call that stores an approval record of `id` and nothing else. -/
def SavesVotes (s t : Store) (id : ℕ) : Prop :=
  ∃ a, t = { s with approvals := update s.approvals id (some a) } ∧
    (s.VotesSound → Escrow.VotesSound a)

theorem SavesVotes.votesSound (h : SavesVotes s t id) (hs : s.VotesSound) : t.VotesSound := by
  obtain ⟨a, rfl, ha⟩ := h
  intro j b hb
  by_cases hj : j = id
  · subst hj
    obtain rfl : a = b := by simpa using hb
    exact ha hs
  · exact hs j b (by simpa [hj] using hb)

theorem castVote_ok {approve : Bool} (h : castVote env signer id approve s = .ok (status, t)) :
    SavesVotes s t id := by
  simp only [castVote, bind_ok, requireAuth_ok, getInvoice_ok, require_ok, getApproval_ok,
    orError_ok, saveApproval_ok, pure_ok] at h
  obtain ⟨-, _, ⟨-, rfl⟩, inv, _, ⟨-, rfl⟩, -, _, ⟨-, rfl⟩, o, _, ⟨ho, rfl⟩, a, _, ⟨rfl, rfl⟩, -, _,
    ⟨hsigner, rfl⟩, -, _, ⟨⟨hna, hnr⟩, rfl⟩, b, s', hcount, -, _, rfl, -, rfl⟩ := h
  obtain rfl := recomputeApprovalStatus_frame hcount
  refine ⟨_, rfl, fun hs => ?_⟩
  have hv := hs id a ho
  cases approve with
  | true =>
      refine recomputeApprovalStatus_sound hcount env.sequence hv.signers ?_ hv.rejections ?_
        hv.rejections_subset ?_
      · simpa using hv.approvals.concat hna
      · simpa using ⟨hv.approvals_subset, hsigner⟩
      · simpa using ⟨hv.disjoint, hnr⟩
  | false =>
      refine recomputeApprovalStatus_sound hcount env.sequence hv.signers hv.approvals ?_
        hv.approvals_subset ?_ ?_
      · simpa using hv.rejections.concat hnr
      · simpa using ⟨hv.rejections_subset, hsigner⟩
      · simpa using ⟨hv.disjoint, hna⟩

theorem revokeVote_ok (h : revokeVote env signer id s = .ok (status, t)) : SavesVotes s t id := by
  simp only [revokeVote, bind_ok, requireAuth_ok, getInvoice_ok, require_ok, getApproval_ok,
    orError_ok, saveApproval_ok, pure_ok] at h
  obtain ⟨-, _, ⟨-, rfl⟩, inv, _, ⟨-, rfl⟩, -, _, ⟨-, rfl⟩, o, _, ⟨ho, rfl⟩, a, _, ⟨rfl, rfl⟩, -, _,
    ⟨-, rfl⟩, -, _, ⟨-, rfl⟩, b, s', hcount, -, _, rfl, -, rfl⟩ := h
  obtain rfl := recomputeApprovalStatus_frame hcount
  refine ⟨_, rfl, fun hs => ?_⟩
  have hv := hs id a ho
  split at hcount
  · refine recomputeApprovalStatus_sound hcount env.sequence hv.signers (hv.approvals.erase _)
      hv.rejections ?_ hv.rejections_subset ?_
    · exact fun x hx => hv.approvals_subset (List.mem_of_mem_erase hx)
    · exact fun x hx => hv.disjoint (List.mem_of_mem_erase hx)
  · refine recomputeApprovalStatus_sound hcount env.sequence hv.signers hv.approvals
      (hv.rejections.erase _) hv.approvals_subset ?_ ?_
    · exact fun x hx => hv.rejections_subset (List.mem_of_mem_erase hx)
    · exact fun x hx hx' => hv.disjoint hx (List.mem_of_mem_erase hx')

theorem setCosigners_ok {signers : List Address} {threshold : ℕ} {v : Unit}
    (h : setCosigners env id signers threshold s = .ok (v, t)) : SavesVotes s t id := by
  simp only [setCosigners, bind_ok, getInvoice_ok, requireAuth_ok, require_ok, saveApproval_ok] at h
  obtain ⟨inv, _, ⟨-, rfl⟩, -, _, ⟨-, rfl⟩, -, _, ⟨-, rfl⟩, -, _, ⟨⟨-, -, hpos, hle⟩, rfl⟩, -, _,
    ⟨hnodup, rfl⟩, _, s', hvotes, rfl⟩ := h
  have hsame : s = s' := by
    simp only [requireNoVotes, bind_ok, getApproval_ok] at hvotes
    obtain ⟨o, _, ⟨-, rfl⟩, h⟩ := hvotes
    cases o with
    | none => exact (pure_ok.1 h).2
    | some a => exact (require_ok.1 h).2
  subst hsame
  refine ⟨_, rfl, fun _ => ?_⟩
  refine ⟨hnodup, by simp, by simp, by simp, by simp, by simp, ?_, ?_⟩
  · simpa using hpos
  · simpa using hle

end Voting

end StellarSplit.Escrow
