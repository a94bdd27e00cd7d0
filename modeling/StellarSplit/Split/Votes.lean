import StellarSplit.Split.Lock

/-!
# Votes on the deadline

The vote list of an invoice holds those who voted since the last extension,
each once; payments and withdrawals leave it alone. A withdrawal takes a payer
off the electorate but not off the list, so an extension is a majority of the
payers as far as the listed voters still have a payment.
-/

namespace StellarSplit.Split

open Exec Function Machine

variable {env : Env} {s t : Store} {v : Unit} {id : ℕ} {voter : Address}

/-! ## Payments keep votes and payers -/

/-- The vote lists stay and no payment is lost. -/
def VotesKept (s t : Store) : Prop :=
  ∀ k, (t.entries k).extVotes = (s.entries k).extVotes ∧
    ∀ p ∈ (s.entries k).payments, p ∈ (t.entries k).payments

instance votesKept_refl : Std.Refl VotesKept := ⟨fun _ _ => ⟨rfl, fun _ hp => hp⟩⟩

instance votesKept_trans : IsTrans Store VotesKept := by
  refine ⟨fun s t u h₁ h₂ k => ⟨(h₂ k).1.trans (h₁ k).1, fun p hp => ?_⟩⟩
  exact (h₂ k).2 p ((h₁ k).2 p hp)

theorem VotesKept.setEntry {e : Entry} (hvotes : e.extVotes = (s.entries id).extVotes)
    (hpayments : ∀ p ∈ (s.entries id).payments, p ∈ e.payments) :
    VotesKept s (s.setEntry id e) := by
  intro k
  by_cases hk : k = id
  · subst hk
    rw [Store.setEntry_self]
    exact ⟨hvotes, hpayments⟩
  · rw [Store.setEntry_ne s hk]
    exact ⟨rfl, fun _ hp => hp⟩

instance moves_votesKept {memo : Memo} : Moves VotesKept memo :=
  ⟨fun _ _ _ _ => ⟨rfl, fun _ hp => hp⟩⟩

instance counts_votesKept : Counts VotesKept := ⟨fun _ _ _ _ => ⟨rfl, fun _ hp => hp⟩⟩

instance countsVolume_votesKept : CountsVolume VotesKept := ⟨fun _ _ _ => ⟨rfl, fun _ hp => hp⟩⟩

instance notes_votesKept : Notes VotesKept id := by
  refine ⟨fun s e hcore => ?_⟩
  have hvotes := congrArg Entry.extVotes hcore
  have hpayments := congrArg Entry.payments hcore
  apply VotesKept.setEntry
  · exact hvotes
  · intro p hp
    change p ∈ e.core.payments
    rwa [hpayments]

instance saves_votesKept {inv : Invoice} : Saves VotesKept id inv :=
  ⟨fun _ _ _ => .setEntry rfl fun _ hp => hp⟩

theorem mem_payments {e : Entry} {p : Payment} :
    p ∈ e.payments ↔ ∃ i < shardCount, p ∈ e.shards i := by
  simp [Entry.payments]

instance credits_votesKept : Credits VotesKept id := by
  refine ⟨fun s q => .setEntry rfl fun p hp => ?_⟩
  obtain ⟨i, hi, hp⟩ := mem_payments.1 hp
  refine mem_payments.2 ⟨i, hi, ?_⟩
  change p ∈ update (s.entries id).shards _ _ i
  by_cases hshard : i = computeShardId q.payer
  · subst hshard
    rw [update_self]
    exact List.mem_append_left _ hp
  · rw [update_of_ne hshard]
    exact hp

/-! ## Calls -/

/-- A call of the electorate of an invoice. -/
inductive VoteOp where
  | pay (payer : Address) (id : ℕ) (amount : ℤ) (nonce : ℕ) (donateOnFailure : Bool)
  | withdraw (id : ℕ) (payer : Address)
  | voteExtendDeadline (id : ℕ) (voter : Address)

def voteStep (c : Env × VoteOp) : SplitM Unit :=
  match c.2 with
  | .pay payer id amount nonce donate => pay c.1 payer id amount nonce donate
  | .withdraw id payer => withdraw c.1 id payer
  | .voteExtendDeadline id voter => voteExtendDeadline c.1 id voter

theorem withdraw_votes {payer : Address} {j : ℕ} (hrun : withdraw env j payer s = .ok (v, t)) (k : ℕ) :
    (t.entries k).extVotes = (s.entries k).extVotes ∧
      ∀ p ∈ (s.entries k).payments, (k = j ∧ p.payer = payer) ∨ p ∈ (t.entries k).payments := by
  simp only [withdraw, requireAuth_bind, loadInvoice_bind, require_bind] at hrun
  obtain ⟨-, inv, -, -, -, -, -, hrun⟩ := hrun
  simp only [bind_ok, modifyEntry_ok, orPanic_ok, transfer_ok, saveInvoice_ok] at hrun
  obtain ⟨-, _, rfl, token, _, ⟨-, rfl⟩, -, _, ⟨-, rfl⟩, -, rfl⟩ := hrun
  by_cases hk : k = j
  · subst hk
    refine ⟨by simp [Entry.dropPayer], fun p hp => ?_⟩
    by_cases hpayer : p.payer = payer
    · exact .inl ⟨rfl, hpayer⟩
    · right
      obtain ⟨i, hi, hp⟩ := mem_payments.1 hp
      refine mem_payments.2 ⟨i, hi, ?_⟩
      simp [Entry.dropPayer, hp, hpayer]
  · refine ⟨?_, fun p hp => .inr ?_⟩
    · simp [Store.setEntry_ne _ hk]
    · simpa [Store.setEntry_ne _ hk] using hp

def deadlineOf (s : Store) (id : ℕ) : Option ℕ := (s.entries id).invoice.map Invoice.deadline

/-- A vote of a payer: it was made before, it extends the deadline, or it is added to the list. -/
inductive Voted (id : ℕ) (voter : Address) (s t : Store) : Prop where
  | again (hlisted : voter ∈ (s.entries id).extVotes) (hsame : t = s)
  | extended (hnew : voter ∉ (s.entries id).extVotes)
      (hmajority : (votingPayers (s.entries id).payments).length <
        2 * ((s.entries id).extVotes.length + 1))
      (hvotes : (t.entries id).extVotes = [])
  | added (hnew : voter ∉ (s.entries id).extVotes)
      (hsame : t = s.setEntry id { s.entries id with extVotes := (s.entries id).extVotes ++ [voter] })

theorem voteExtendDeadline_ok (hrun : voteExtendDeadline env id voter s = .ok (v, t)) :
    voter ∈ votingPayers (s.entries id).payments ∧ Voted id voter s t ∧
      ∀ k, k ≠ id → t.entries k = s.entries k := by
  simp only [voteExtendDeadline, requireAuth_bind, loadInvoice_bind, require_bind, getEntry_bind,
    onlyIf_ok] at hrun
  obtain ⟨-, inv, hload, -, hpaid, hrun⟩ := hrun
  obtain ⟨stored, hstored, rfl⟩ := Option.map_eq_some_iff.1 hload
  have hpayer : voter ∈ votingPayers (s.entries id).payments := by
    simpa [votingPayers, Invoice.withPayments] using hpaid
  refine ⟨hpayer, ?_⟩
  rcases hrun with ⟨hnew, hrun⟩ | ⟨hlisted, rfl⟩
  · split at hrun
    · rename_i hmajority
      obtain ⟨-, hrun⟩ := require_bind.1 hrun
      obtain ⟨_, u, hsave, hclear⟩ := bind_ok.1 hrun
      obtain ⟨-, rfl⟩ := saveInvoice_ok.1 hsave
      obtain rfl := modifyEntry_ok.1 hclear
      refine ⟨.extended hnew ?_ (by simp), fun k hk => ?_⟩
      · simp only [List.length_append, List.length_singleton, Invoice.withPayments] at hmajority
        omega
      · rw [Store.setEntry_ne _ hk, Store.setEntry_ne _ hk]
    · obtain rfl := modifyEntry_ok.1 hrun
      exact ⟨.added hnew rfl, fun k hk => Store.setEntry_ne _ hk _⟩
  · exact ⟨.again (by simpa using hlisted) rfl, fun _ _ => rfl⟩

/-! ## Who voted since the last extension -/

/-- The voters since the last extension of the invoice after one more call. -/
def nextVoted (id : ℕ) (s : Store) (c : Env × VoteOp) (voted : List Address) : List Address :=
  match c.2, voteStep c s with
  | .voteExtendDeadline j voter, .ok (_, t) =>
      if j = id then if deadlineOf t id = deadlineOf s id then voter :: voted else [] else voted
  | _, _ => voted

/-- The voters since the last extension of the invoice after a run. -/
def votedSince (id : ℕ) : Store → List Address → List (Env × VoteOp) → List Address
  | _, voted, [] => voted
  | s, voted, c :: cs => votedSince id (commit (voteStep c) s) (nextVoted id s c voted) cs

/-- The vote list names each voter once, and only those who voted. -/
structure Listed (id : ℕ) (s : Store) (voted : List Address) : Prop where
  nodup : (s.entries id).extVotes.Nodup
  voted : ∀ a ∈ (s.entries id).extVotes, a ∈ voted

theorem nextVoted_listed {voted : List Address} (h : Listed id s voted) (c : Env × VoteOp) :
    Listed id (commit (voteStep c) s) (nextVoted id s c voted) := by
  obtain ⟨env, op⟩ := c
  rcases commit_cases (voteStep (env, op)) s with ⟨v, hrun⟩ | ⟨⟨e, hrun⟩, hsame⟩
  · generalize commit (voteStep (env, op)) s = t at hrun ⊢
    have hsame : (t.entries id).extVotes = (s.entries id).extVotes → Listed id t voted := by
      intro hvotes
      refine ⟨?_, ?_⟩ <;> rw [hvotes]
      · exact h.nodup
      · exact h.voted
    cases op with
    | pay payer j amount nonce donate =>
        have hkept : VotesKept s t := framed_pay_open.respects s v t hrun
        exact hsame (hkept id).1
    | withdraw j payer => exact hsame (withdraw_votes hrun id).1
    | voteExtendDeadline j voter =>
        simp only [nextVoted, hrun]
        obtain ⟨-, hvoted, hother⟩ := voteExtendDeadline_ok hrun
        split
        · rename_i hj
          subst hj
          cases hvoted with
          | again hlisted hst =>
              subst hst
              rw [if_pos rfl]
              exact ⟨h.nodup, fun a ha => List.mem_cons_of_mem _ (h.voted a ha)⟩
          | extended hnew hmajority hvotes =>
              refine ⟨?_, ?_⟩ <;> rw [hvotes]
              · exact List.nodup_nil
              · intro a ha
                cases ha
          | added hnew hst =>
              subst hst
              rw [if_pos (by simp [deadlineOf])]
              refine ⟨?_, ?_⟩ <;> rw [Store.setEntry_self]
              · exact List.nodup_append.2 ⟨h.nodup, List.nodup_singleton _, by
                  rintro a ha b hb rfl
                  exact hnew (by simpa using List.mem_singleton.1 hb ▸ ha)⟩
              · intro a ha
                rcases List.mem_append.1 ha with ha | ha
                · exact List.mem_cons_of_mem _ (h.voted a ha)
                · rw [List.mem_singleton.1 ha]
                  exact List.mem_cons_self
        · rename_i hj
          exact hsame (by rw [hother id (Ne.symm hj)])
  · rw [hsame]
    have hnext : nextVoted id s (env, op) voted = voted := by
      unfold nextVoted
      rw [hrun]
      cases op <;> rfl
    rw [hnext]
    exact h

theorem votedSince_listed {voted : List Address} (h : Listed id s voted)
    (calls : List (Env × VoteOp)) :
    Listed id (runAll voteStep s calls) (votedSince id s voted calls) := by
  induction calls generalizing s voted with
  | nil => exact h
  | cons c calls ih => exact ih (nextVoted_listed h c)

/-- Distinct members of a list are no more than those of its members that a property admits, when
they all have the property. -/
theorem length_le_filter (votes payers : List Address) {P : Address → Prop} [DecidablePred P]
    (hnodup : votes.Nodup) (hpayers : ∀ a ∈ votes, a ∈ payers) (hP : ∀ a ∈ votes, P a) :
    votes.length ≤ (payers.filter fun a => P a).length := by
  apply (List.subperm_of_subset hnodup ?_).length_le
  intro a ha
  exact List.mem_filter.2 ⟨hpayers a ha, by simpa using hP a ha⟩

/-- In every run of payments, withdrawals and votes from a state without votes: an extension whose
listed voters all still have a payment is backed by more than half of the payers, each counted
once, who voted since the previous extension. -/
theorem extension_is_majority (hstart : (s.entries id).extVotes = []) (calls : List (Env × VoteOp))
    (hrun : voteExtendDeadline env id voter (runAll voteStep s calls) = .ok (v, t))
    (hextends : deadlineOf t id ≠ deadlineOf (runAll voteStep s calls) id)
    (hpayers : ∀ a ∈ ((runAll voteStep s calls).entries id).extVotes,
      a ∈ votingPayers ((runAll voteStep s calls).entries id).payments) :
    (votingPayers ((runAll voteStep s calls).entries id).payments).length <
      2 * ((votingPayers ((runAll voteStep s calls).entries id).payments).filter fun a =>
        a ∈ voter :: votedSince id s [] calls).length := by
  have hlisted : Listed id (runAll voteStep s calls) (votedSince id s [] calls) := by
    apply votedSince_listed
    refine ⟨?_, ?_⟩ <;> rw [hstart]
    · exact List.nodup_nil
    · intro a ha
      cases ha
  generalize runAll voteStep s calls = u at hrun hextends hpayers hlisted ⊢
  obtain ⟨hvoter, hvoted, -⟩ := voteExtendDeadline_ok hrun
  cases hvoted with
  | again hlisted hst => exact absurd (by rw [hst]) hextends
  | added hnew hst =>
      refine absurd ?_ hextends
      rw [hst]
      simp [deadlineOf]
  | extended hnew hmajority hvotes =>
      have hcount := length_le_filter (voter :: (u.entries id).extVotes)
        (votingPayers (u.entries id).payments)
        (P := fun a => a ∈ voter :: votedSince id s [] calls)
        (List.nodup_cons.2 ⟨hnew, hlisted.nodup⟩)
        (List.forall_mem_cons.2 ⟨hvoter, hpayers⟩)
        (List.forall_mem_cons.2 ⟨List.mem_cons_self, fun a ha =>
          List.mem_cons_of_mem _ (hlisted.voted a ha)⟩)
      rw [List.length_cons] at hcount
      omega

def votingStore : Store := sampleStore { sampleInvoice with allowEarlyWithdrawal := true } []

/-- Three payments, and one of the payers votes. -/
def oneVote : List (Env × VoteOp) :=
  [(sampleEnv 10 0, .pay 20 1 10 0 false), (sampleEnv 10 0, .pay 21 1 10 0 false),
    (sampleEnv 10 0, .pay 22 1 10 0 false), (sampleEnv 11 0, .voteExtendDeadline 1 20)]

theorem two_of_three_extend :
    deadlineOf (commit (voteExtendDeadline (sampleEnv 12 0) 1 21)
        (runAll voteStep votingStore oneVote)) 1 = some 605800 ∧
      (votingPayers ((runAll voteStep votingStore oneVote).entries 1).payments).length <
        2 * ((votingPayers ((runAll voteStep votingStore oneVote).entries 1).payments).filter
          fun a => a ∈ 21 :: votedSince 1 votingStore [] oneVote).length := by
  have hdeadline : deadlineOf (commit (voteExtendDeadline (sampleEnv 12 0) 1 21)
      (runAll voteStep votingStore oneVote)) 1 = some 605800 := by decide +kernel
  have hstart : (votingStore.entries 1).extVotes = [] := rfl
  refine ⟨hdeadline, ?_⟩
  rcases commit_cases (voteExtendDeadline (sampleEnv 12 0) 1 21)
    (runAll voteStep votingStore oneVote) with ⟨_, hrun⟩ | ⟨-, hsame⟩
  · refine extension_is_majority hstart oneVote hrun ?_ ?_
    · rw [hdeadline]
      decide +kernel
    · decide +kernel
  · rw [hsame] at hdeadline
    exact absurd hdeadline (by decide +kernel)

/-- A fourth payment, and the voter withdraws. -/
def staleVote : List (Env × VoteOp) :=
  oneVote ++ [(sampleEnv 11 0, .pay 23 1 10 0 false), (sampleEnv 12 0, .withdraw 1 20)]

/-- The vote of payer 21 extends the deadline although the payers 22 and 23 did not vote. -/
theorem stale_vote_extends :
    deadlineOf (runAll voteStep votingStore staleVote) 1 = some 1000 ∧
      deadlineOf (commit (voteExtendDeadline (sampleEnv 13 0) 1 21)
        (runAll voteStep votingStore staleVote)) 1 = some 605800 ∧
      ¬(votingPayers ((runAll voteStep votingStore staleVote).entries 1).payments).length <
        2 * ((votingPayers ((runAll voteStep votingStore staleVote).entries 1).payments).filter
          fun a => a ∈ 21 :: votedSince 1 votingStore [] staleVote).length := by
  refine ⟨?_, ?_, ?_⟩ <;> decide +kernel

/-- As long as nobody withdraws with a vote on the list, every listed voter has a payment. -/
theorem voters_stay_payers {calls : List (Env × VoteOp)}
    (hstart : ∀ a ∈ (s.entries id).extVotes, a ∈ votingPayers (s.entries id).payments)
    (hcalls : Along (fun u c => ∀ payer, c.2 = .withdraw id payer → payer ∉ (u.entries id).extVotes)
      voteStep s calls) :
    ∀ a ∈ ((runAll voteStep s calls).entries id).extVotes,
      a ∈ votingPayers ((runAll voteStep s calls).entries id).payments := by
  refine runAll_induction
    (I := fun u => ∀ a ∈ (u.entries id).extVotes, a ∈ votingPayers (u.entries id).payments)
    ?_ hstart hcalls
  rintro s ⟨env, op⟩ v t hs hop hrun a ha
  have hkeeps : (t.entries id).extVotes = (s.entries id).extVotes →
      (∀ p ∈ (s.entries id).payments, p.payer = a → p ∈ (t.entries id).payments) →
      a ∈ votingPayers (t.entries id).payments := by
    intro hvotes hpayments
    have hold := hs a (hvotes ▸ ha)
    simp only [votingPayers, List.mem_dedup, List.mem_map] at hold ⊢
    obtain ⟨p, hp, hpayer⟩ := hold
    exact ⟨p, hpayments p hp hpayer, hpayer⟩
  cases op with
  | pay payer j amount nonce donate =>
      have hkept : VotesKept s t := framed_pay_open.respects s v t hrun
      exact hkeeps (hkept id).1 fun p hp _ => (hkept id).2 p hp
  | withdraw j payer =>
      obtain ⟨hvotes, hpayments⟩ := withdraw_votes hrun id
      refine hkeeps hvotes fun p hp hpayer => (hpayments p hp).resolve_left ?_
      rintro ⟨hj, hwithdrawn⟩
      subst hj
      rw [hvotes, ← hpayer, hwithdrawn] at ha
      exact hop payer rfl ha
  | voteExtendDeadline j voter =>
      obtain ⟨hvoter, hvoted, hother⟩ := voteExtendDeadline_ok hrun
      by_cases hj : id = j
      · subst hj
        cases hvoted with
        | again hlisted hst => exact hst ▸ hs a (hst ▸ ha)
        | extended hnew hmajority hvotes =>
            rw [hvotes] at ha
            cases ha
        | added hnew hst =>
            subst hst
            rw [Store.setEntry_self] at ha ⊢
            rcases List.mem_append.1 ha with ha | ha
            · exact hs a ha
            · rw [List.mem_singleton.1 ha]
              exact hvoter
      · rw [hother id hj] at ha ⊢
        exact hs a ha

theorem voters_stay_payers_sample : 20 ∈ votingPayers ((runAll voteStep votingStore oneVote).entries 1).payments := by
  refine voters_stay_payers (fun a ha => absurd ha List.not_mem_nil) ?_ 20 (by decide +kernel)
  refine ⟨fun _ payer h => ?_, fun _ payer h => ?_, fun _ payer h => ?_, fun _ payer h => ?_, trivial⟩ <;> cases h

end StellarSplit.Split
