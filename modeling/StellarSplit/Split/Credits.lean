import Mathlib.Algebra.BigOperators.Group.Finset.Piecewise
import Mathlib.Algebra.Order.BigOperators.Group.Finset
import StellarSplit.Split.Records

/-!
# What a payment leaves

A payment adds one payment to the record and its amount to the funding. It is
then saved, or it fills an invoice that nothing guards and the invoice is paid
out in full. Before that last step a payment writes the record, the counters
and the log only.
-/

namespace StellarSplit.Split

open Exec Function Machine

variable {env : Env} {s t u : Store} {v : Unit} {id : ℕ} {inv : Invoice} {p : Address}

/-! ## Before the payment is settled -/

/-- The entries of an invoice without what a payment writes. -/
def Entry.bare (e : Entry) : Entry :=
  { e with
    invoice := none
    shards := fun _ => []
    contribution := fun _ => 0
    cumulative := 0
    accumulator := fun _ => 0
    nonce := fun _ => 0
    velocity := fun _ => (0, 0)
    fundedAtLedger := none }

/-- What the books read of an invoice. -/
structure Purse where
  terms : Invoice
  funded : ℤ
  status : InvoiceStatus
  insuranceFund : ℤ

def Invoice.purse (inv : Invoice) : Purse := ⟨inv.terms, inv.funded, inv.status, inv.insuranceFund⟩

/-- The purse of the invoice is the same, nothing was refunded and nothing paid out. -/
structure Still (id : ℕ) (s t : Store) : Prop where
  bare : (t.entries id).bare = (s.entries id).bare
  purse : (t.entries id).invoice.map Invoice.purse = (s.entries id).invoice.map Invoice.purse
  others : ∀ k, k ≠ id → t.entries k = s.entries k
  refunds : ∀ p, refundedTo id p t = refundedTo id p s
  payouts : ∀ tok r, paidOut id tok r t = paidOut id tok r s

instance still_refl : Std.Refl (Still id) :=
  ⟨fun _ => ⟨rfl, rfl, fun _ _ => rfl, fun _ => rfl, fun _ _ => rfl⟩⟩

theorem Still.trans (h₁ : Still id s t) (h₂ : Still id t u) : Still id s u :=
  ⟨h₂.bare.trans h₁.bare, h₂.purse.trans h₁.purse,
    fun k hk => (h₂.others k hk).trans (h₁.others k hk),
    fun p => (h₂.refunds p).trans (h₁.refunds p),
    fun tok r => (h₂.payouts tok r).trans (h₁.payouts tok r)⟩

instance still_trans : IsTrans Store (Still id) := ⟨fun _ _ _ => Still.trans⟩

theorem moves_still {purpose : Purpose} (hrefund : purpose ≠ .refund) (hpayout : purpose ≠ .payout) :
    Moves (Still id) ⟨id, purpose⟩ := by
  refine ⟨fun s m hm => ⟨rfl, rfl, fun _ _ => rfl, fun p => ?_, fun tok r => ?_⟩⟩
  · simp [refundedTo, hm, hrefund]
  · exact paidOut_other (.inl (by simp [hm, hpayout]))

instance moves_still_payment : Moves (Still id) ⟨id, .payment⟩ := moves_still (by simp) (by simp)

instance moves_still_surplus : Moves (Still id) ⟨id, .surplus⟩ := moves_still (by simp) (by simp)

instance moves_still_donation : Moves (Still id) ⟨id, .donation⟩ := moves_still (by simp) (by simp)

instance moves_still_penalty : Moves (Still id) ⟨id, .penalty⟩ := moves_still (by simp) (by simp)

instance countsVolume_still : CountsVolume (Still id) :=
  ⟨fun _ _ => ⟨rfl, rfl, fun _ _ => rfl, fun _ => rfl, fun _ _ => rfl⟩⟩

theorem still_setEntry {e : Entry} (hbare : e.bare = (s.entries id).bare)
    (hpurse : e.invoice.map Invoice.purse = (s.entries id).invoice.map Invoice.purse) :
    Still id s (s.setEntry id e) := by
  refine ⟨?_, ?_, fun k hk => Store.setEntry_ne s hk _, fun _ => rfl, fun _ _ => rfl⟩
  · rw [Store.setEntry_self]
    exact hbare
  · rw [Store.setEntry_self]
    exact hpurse

theorem framed_modifyEntry_still {f : Entry → Entry} (hbare : ∀ e, (f e).bare = e.bare)
    (hinvoice : ∀ e, (f e).invoice = e.invoice) : Framed (Still id) (modifyEntry id f) := by
  refine .of (.modify fun s => still_setEntry (hbare _) ?_)
  rw [hinvoice]

instance framed_recordPayment_still {a : Address} {x : ℤ} {b : Bool} :
    Framed (Still id) (recordPayment id a x b) := by
  have hpush : ∀ q, Framed (Still id) (pushPayment id q) := fun _ =>
    framed_modifyEntry_still (fun _ => rfl) fun _ => rfl
  have hcumulative : Framed (Still id) (addCumulative id x) :=
    framed_modifyEntry_still (fun _ => rfl) fun _ => rfl
  have hcontribution : Framed (Still id) (addContribution id a x) :=
    framed_modifyEntry_still (fun _ => rfl) fun _ => rfl
  unfold recordPayment
  infer_instance

instance framed_recordFunded_still : Framed (Still id) (recordFunded env id) :=
  framed_modifyEntry_still (fun _ => rfl) fun _ => rfl

instance framed_accumulate_still {a : Address} {x y : ℤ} :
    Framed (Still id) (accumulate id inv a x y) := by
  have hset : ∀ x, Framed (Still id) (setAccumulator id a x) := fun _ =>
    framed_modifyEntry_still (fun _ => rfl) fun _ => rfl
  unfold accumulate
  infer_instance

instance framed_checkLimits_still {a : Address} {x : ℤ} {n : ℕ} :
    Framed (Still id) (checkLimits env id inv a x n) := by
  have hnonce : Framed (Still id) (incrementNonce id a) :=
    framed_modifyEntry_still (fun _ => rfl) fun _ => rfl
  have hvelocity : ∀ window, Framed (Still id) (setVelocity id a window) := fun _ =>
    framed_modifyEntry_still (fun _ => rfl) fun _ => rfl
  unfold checkLimits
  infer_instance

/-! ### The record -/

/-- The shards of the invoice are the same. -/
def SameShards (id : ℕ) (s t : Store) : Prop := (t.entries id).shards = (s.entries id).shards

instance sameShards_refl : Std.Refl (SameShards id) := ⟨fun _ => rfl⟩

instance sameShards_trans : IsTrans Store (SameShards id) := ⟨fun _ _ _ h₁ h₂ => Eq.trans h₂ h₁⟩

instance moves_sameShards {memo : Memo} : Moves (SameShards id) memo := ⟨fun _ _ _ => rfl⟩

instance counts_sameShards : Counts (SameShards id) := ⟨fun _ _ _ => rfl⟩

instance countsVolume_sameShards : CountsVolume (SameShards id) := ⟨fun _ _ => rfl⟩

instance notes_sameShards : Notes (SameShards id) id := by
  refine ⟨fun s e hcore => ?_⟩
  have hshards := congrArg Entry.shards hcore
  unfold SameShards
  rw [Store.setEntry_self]
  exact hshards

instance saves_sameShards : Saves (SameShards id) id inv := by
  refine ⟨fun _ _ s => ?_⟩
  unfold SameShards
  rw [Store.setEntry_self]

theorem SameShards.payments (h : SameShards id s t) :
    (t.entries id).payments = (s.entries id).payments := by
  unfold Entry.payments
  rw [h]

theorem perm_flatMap_update (f : ℕ → List Payment) (q : Payment) {i n : ℕ} (hi : i < n) :
    ((List.range n).flatMap (update f i (f i ++ [q]))).Perm ((List.range n).flatMap f ++ [q]) := by
  induction n with
  | zero => omega
  | succ n ih =>
      rw [List.range_succ, List.flatMap_append, List.flatMap_append, List.flatMap_singleton,
        List.flatMap_singleton]
      by_cases hn : i = n
      · subst hn
        have hsame : (List.range i).flatMap (update f i (f i ++ [q])) = (List.range i).flatMap f := by
          apply List.flatMap_congr
          intro j hj
          exact update_of_ne (List.mem_range.1 hj).ne _ _
        rw [hsame, update_self, List.append_assoc]
      · rw [update_of_ne (Ne.symm hn)]
        have hfront := (ih (by omega)).append_right (f n)
        refine hfront.trans ?_
        rw [List.append_assoc, List.append_assoc]
        exact (List.perm_append_comm).append_left _

theorem paidBy_perm {xs ys : List Payment} (h : xs.Perm ys) (p : Address) :
    paidBy xs p = paidBy ys p := ((h.filter _).map _).sum_eq

/-- A payment has joined the record. -/
def Joined (id : ℕ) (payer : Address) (credited : ℤ) (s t : Store) : Prop :=
  ∃ q : Payment, q.payer = payer ∧ q.amount = credited ∧
    (t.entries id).payments.Perm ((s.entries id).payments ++ [q])

theorem recordPayment_joined {payer : Address} {credited : ℤ} {donate : Bool}
    (hrun : recordPayment id payer credited donate s = .ok (v, t)) : Joined id payer credited s t := by
  obtain ⟨_, u₁, hpush, hrun⟩ := bind_ok.1 hrun
  obtain ⟨_, u₂, hcumulative, hcontribution⟩ := bind_ok.1 hrun
  obtain rfl := modifyEntry_ok.1 hpush
  obtain rfl := modifyEntry_ok.1 hcumulative
  obtain rfl := modifyEntry_ok.1 hcontribution
  refine ⟨{ payer := payer, amount := credited, donateOnFailure := donate }, rfl, rfl, ?_⟩
  have hperm := perm_flatMap_update (s.entries id).shards
    { payer := payer, amount := credited, donateOnFailure := donate } (computeShardId_lt payer)
  simpa [Entry.payments] using hperm

theorem Joined.congr {payer : Address} {credited : ℤ} {s' t' : Store}
    (h : Joined id payer credited s t) (hs : (s'.entries id).payments = (s.entries id).payments)
    (ht : (t'.entries id).payments = (t.entries id).payments) : Joined id payer credited s' t' := by
  unfold Joined
  rw [hs, ht]
  exact h

/-! ## A release that pays the funding out -/

/-- What the planned shares of all recipients sum to. -/
def plannedTotal (e : Entry) (inv : Invoice) : ℤ :=
  match shareList inv e.paidRecipients e.recipientLock with
  | .ok shares => (inv.recipients.zipIdx.map fun ri => max (shares.1.getD ri.2 0) 0).sum
  | .error _ => 0

/-- The payouts of an invoice in a token, to whomever. -/
def paidOutAll (id : ℕ) (tok : Address) (s : Store) : ℤ :=
  tally (fun m => m.memo = ⟨id, .payout⟩ ∧ m.token = tok) s.log

theorem tally_by_dst {log : List (Transfer Memo)} {tok : Address} {D : Finset Address}
    (hD : ∀ m ∈ log, m.dst ∈ D) :
    tally (fun m => m.memo = ⟨id, .payout⟩ ∧ m.token = tok) log =
      ∑ r ∈ D, tally (payoutTo id tok r) log := by
  induction log with
  | nil => simp
  | cons m log ih =>
      have hrest := ih fun m' hm' => hD m' (List.mem_cons_of_mem m hm')
      have hone : (if m.memo = ⟨id, .payout⟩ ∧ m.token = tok then m.amount else 0) =
          ∑ r ∈ D, if m.memo = ⟨id, .payout⟩ ∧ m.token = tok ∧ m.dst = r then m.amount else 0 := by
        by_cases hcounts : m.memo = ⟨id, .payout⟩ ∧ m.token = tok
        · simp only [hcounts, true_and, and_self, if_true]
          rw [Finset.sum_ite_eq, if_pos (hD m (by simp))]
        · rw [if_neg hcounts]
          exact (Finset.sum_eq_zero fun r _ => if_neg fun h => hcounts ⟨h.1, h.2.1⟩).symm
      simp only [tally_cons, payoutTo, decide_eq_true_eq] at hrest ⊢
      rw [Finset.sum_add_distrib, ← hone, hrest]

theorem paidOutAll_eq {tok : Address} {D : Finset Address} (hD : ∀ m ∈ s.log, m.dst ∈ D) :
    paidOutAll id tok s = ∑ r ∈ D, paidOut id tok r s := tally_by_dst hD

theorem sum_sumAt_le {recipients : List Address} {f : ℕ → ℤ} (hf : ∀ i, 0 ≤ f i)
    (D : Finset Address) :
    ∑ r ∈ D, sumAt recipients r f ≤ (recipients.zipIdx.map fun ri => f ri.2).sum := by
  unfold sumAt
  induction recipients.zipIdx with
  | nil => simp
  | cons x xs ih =>
      have hone : (∑ r ∈ D, if x.1 = r then f x.2 else 0) ≤ f x.2 := by
        rw [Finset.sum_ite_eq]
        split_ifs
        · exact le_rfl
        · exact hf x.2
      simp only [List.map_cons, List.sum_cons, Finset.sum_add_distrib]
      linarith

/-- Payouts within the share of each recipient are within what the shares sum to. -/
theorem paidOutAll_le_of_paid {e : Entry} (htranches : inv.tranches = [])
    (hpaid : ∀ r, paidOut id (fundingTokenFor inv) r t ≤
      paidOut id (fundingTokenFor inv) r s + recipientShare e inv r) :
    paidOutAll id (fundingTokenFor inv) t ≤
      paidOutAll id (fundingTokenFor inv) s + plannedTotal e inv := by
  have hshares : ∀ D : Finset Address, ∑ r ∈ D, recipientShare e inv r ≤ plannedTotal e inv := by
    intro D
    unfold recipientShare plannedTotal
    simp only [if_pos htranches]
    cases shareList inv e.paidRecipients e.recipientLock with
    | ok shares => exact sum_sumAt_le (fun _ => le_max_right _ _) D
    | error _ => simp
  let D : Finset Address := ((t.log ++ s.log).map Transfer.dst).toFinset
  have ht : ∀ m ∈ t.log, m.dst ∈ D := fun m hm => by
    simp only [D, List.mem_toFinset, List.mem_map]
    exact ⟨m, List.mem_append_left _ hm, rfl⟩
  have hs : ∀ m ∈ s.log, m.dst ∈ D := fun m hm => by
    simp only [D, List.mem_toFinset, List.mem_map]
    exact ⟨m, List.mem_append_right _ hm, rfl⟩
  calc paidOutAll id (fundingTokenFor inv) t
      = ∑ r ∈ D, paidOut id (fundingTokenFor inv) r t := paidOutAll_eq ht
    _ ≤ ∑ r ∈ D, (paidOut id (fundingTokenFor inv) r s + recipientShare e inv r) :=
        Finset.sum_le_sum fun r _ => hpaid r
    _ = paidOutAll id (fundingTokenFor inv) s + ∑ r ∈ D, recipientShare e inv r := by
        rw [Finset.sum_add_distrib, paidOutAll_eq hs]
    _ ≤ _ := by linarith [hshares D]

/-- A full release pays out at most what the shares of all recipients sum to. -/
theorem FullyReleased.paidOutAll_le (h : FullyReleased id inv s t) (htranches : inv.tranches = []) :
    paidOutAll id (fundingTokenFor inv) t ≤
      paidOutAll id (fundingTokenFor inv) s + plannedTotal (s.entries id) inv :=
  paidOutAll_le_of_paid htranches h.paid

/-- A recipient whose account exists is recorded as failed only in a pass that failed. -/
theorem payRecipient_failed {paidSet : List Address} {platformFee : ℤ} {plan : Plan} {acc acc' : Pass}
    {ri : Address × ℕ} (haccount : env.accountExists (fundingTokenFor inv) ri.1 = true)
    (hacc : acc.failed = true ∨ (s.entries id).failedPayouts = [])
    (hrun : payRecipient env id inv paidSet platformFee plan acc ri s = .ok (acc', t)) :
    acc'.failed = true ∨ (t.entries id).failedPayouts = [] := by
  unfold payRecipient at hrun
  obtain ⟨proportional, -, hrun⟩ := ofResult_bind.1 hrun
  rw [getEntry_bind] at hrun
  split_ifs at hrun with hskip hmissing
  · obtain ⟨rfl, rfl⟩ := pure_ok.1 hrun
    exact hacc
  · rw [haccount] at hmissing
    cases hmissing
  · obtain ⟨net, -, hrun⟩ := ofResult_bind.1 hrun
    obtain ⟨success, u₁, hdeliver, hrun⟩ := bind_ok.1 hrun
    obtain ⟨_, u₂, hfailure, hrun⟩ := bind_ok.1 hrun
    obtain ⟨_, u₃, htax, hrun⟩ := bind_ok.1 hrun
    obtain ⟨rfl, rfl⟩ := pure_ok.1 hrun
    cases success with
    | false => exact .inl (by simp)
    | true =>
        rcases onlyIf_ok.1 hfailure with ⟨hfalse, -⟩ | ⟨-, rfl⟩
        · cases hfalse
        · have hany : ∀ p, Logs ∅ anyMemo ⟨id, p⟩ := fun _ => ⟨trivial⟩
          have h₁ : Change ∅ anyMemo s u₁ := change_of_framed inferInstance hdeliver
          have h₂ : Change ∅ anyMemo u₁ u₃ := change_of_framed inferInstance htax
          rw [h₂.entries id (by simp), h₁.entries id (by simp)]
          simpa using hacc

theorem payRecipients_failed {paidSet : List Address} {platformFee : ℤ} {plan : Plan}
    {acc acc' : Pass} {xs : List (Address × ℕ)}
    (hxs : ∀ ri ∈ xs, env.accountExists (fundingTokenFor inv) ri.1 = true)
    (hacc : acc.failed = true ∨ (s.entries id).failedPayouts = [])
    (hrun : xs.foldlM (payRecipient env id inv paidSet platformFee plan) acc s = .ok (acc', t)) :
    acc'.failed = true ∨ (t.entries id).failedPayouts = [] := by
  induction xs generalizing s acc with
  | nil =>
      obtain ⟨rfl, rfl⟩ := pure_ok.1 hrun
      exact hacc
  | cons x xs ih =>
      rw [List.foldlM_cons] at hrun
      obtain ⟨next, u, hfirst, hrest⟩ := bind_ok.1 hrun
      have hnext := payRecipient_failed (hxs x (by simp)) hacc hfirst
      exact ih (fun y hy => hxs y (List.mem_cons_of_mem x hy)) hnext hrest

theorem payPlan_failed {e : Entry} {platformFee : ℤ} {plan : Plan} {failed : Bool}
    (haccounts : ∀ r ∈ inv.recipients, env.accountExists (fundingTokenFor inv) r = true)
    (hnone : (s.entries id).failedPayouts = [])
    (hrun : payPlan env id inv e platformFee plan s = .ok (failed, t)) :
    failed = true ∨ (t.entries id).failedPayouts = [] := by
  have hany : ∀ p, Logs ∅ anyMemo ⟨id, p⟩ := fun _ => ⟨trivial⟩
  unfold payPlan at hrun
  cases htreasury : e.treasury <;> simp only [htreasury] at hrun
  rotate_left
  · have hchange : Change ∅ anyMemo s t := change_of_framed inferInstance hrun
    rw [hchange.entries id (by simp)]
    exact .inr hnone
  · obtain ⟨pass, u₁, hloop, hrun⟩ := bind_ok.1 hrun
    obtain ⟨_, u₂, hfee, hrun⟩ := bind_ok.1 hrun
    obtain ⟨_, u₃, hcreator, hrun⟩ := bind_ok.1 hrun
    obtain ⟨rfl, rfl⟩ := pure_ok.1 hrun
    have h₂ : Change ∅ anyMemo u₁ u₂ := change_of_framed inferInstance hfee
    have h₃ : Change ∅ anyMemo u₂ u₃ := change_of_framed inferInstance hcreator
    rw [h₃.entries id (by simp), h₂.entries id (by simp)]
    refine payRecipients_failed (fun ri hri => ?_) (.inr hnone) hloop
    exact haccounts ri.1 (List.fst_mem_of_mem_zipIdx hri)

/-- Every memo but that of a refund of the invoice. -/
def notRefund (id : ℕ) (m : Memo) : Prop := m ≠ ⟨id, .refund⟩

instance covers_notRefund : Covers (others id) (notRefund id) :=
  ⟨fun _ hm _ h => hm (congrArg Memo.invoice h)⟩

theorem refundedTo_change {W : Set ℕ} (h : Change W (notRefund id) s t) (p : Address) :
    refundedTo id p t = refundedTo id p s := by
  obtain ⟨new, hlog, hnew⟩ := h.log
  have hzero : tally (fun m => m.memo = ⟨id, .refund⟩ ∧ m.src = currentContract ∧ m.dst = p) new = 0 := by
    apply tally_eq_zero
    intro m hm
    simp only [decide_eq_false_iff_not]
    exact fun hrefund => hnew m hm hrefund.1
  unfold refundedTo
  rw [hlog, tally_append, hzero, zero_add]

/-- A full release refunds nobody and keeps the record, and the invoice is not pending after it. -/
theorem releaseFull_closes {depth : ℕ} {actor : Address}
    (haccounts : ∀ r ∈ inv.recipients, env.accountExists (fundingTokenFor inv) r = true)
    (hnone : (s.entries id).failedPayouts = []) (hacyclic : id ∉ forwardReach s id)
    (hinto : ForwardsInto (forwardReach s id) inv)
    (hrun : releaseFull env (releaseWithin env depth) id inv actor s = .ok (v, t)) :
    (∀ p, refundedTo id p t = refundedTo id p s) ∧ SameShards id s t ∧
      ∃ inv', (t.entries id).invoice = some inv' ∧
        (inv'.status = .released ∨ inv'.status = .partiallyReleased) := by
  obtain ⟨platformFee, plan, failed, u₁, u₂, u₃, u₄, -, -, hpark, hprotocol, hpay, hafter, hfinish⟩ :=
    releaseFull_parts hacyclic hinto hrun
  have hlogs : ∀ p, p ≠ .refund → notRefund id ⟨id, p⟩ := fun p hp => by simpa [notRefund] using hp
  have hafter := hafter (notRefund id) inferInstance fun p _ hp => hlogs p hp
  have hpayout : Logs {id} (notRefund id) ⟨id, .payout⟩ := ⟨hlogs _ (by simp)⟩
  have hstream : Logs {id} (notRefund id) ⟨id, .stream⟩ := ⟨hlogs _ (by simp)⟩
  have htax : Logs {id} (notRefund id) ⟨id, .tax⟩ := ⟨hlogs _ (by simp)⟩
  have hplatform : Logs {id} (notRefund id) ⟨id, .platformFee⟩ := ⟨hlogs _ (by simp)⟩
  have hcreator : Logs {id} (notRefund id) ⟨id, .creatorFee⟩ := ⟨hlogs _ (by simp)⟩
  have hnet : Logs {id} (notRefund id) ⟨id, .treasuryNet⟩ := ⟨hlogs _ (by simp)⟩
  have hprotocolFee : Logs {id} (notRefund id) ⟨id, .protocolFee⟩ := ⟨hlogs _ (by simp)⟩
  have h₁ : Change {id} (notRefund id) s u₁ := change_of_framed inferInstance hpark
  have h₂ : Change {id} (notRefund id) u₁ u₂ := change_of_framed inferInstance hprotocol
  have h₃ : Change {id} (notRefund id) u₂ u₃ := change_of_framed inferInstance hpay
  have hsame : u₄.entries id = u₃.entries id := hafter.entries id (by simp)
  obtain ⟨hlog, hentries⟩ := finishRelease_ok hfinish
  refine ⟨fun p => ?_, ?_, ?_⟩
  · have hlast : refundedTo id p t = refundedTo id p u₄ := by
      unfold refundedTo
      rw [hlog]
    rw [hlast, refundedTo_change hafter, refundedTo_change ((h₁.trans h₂).trans h₃)]
  · have hpark : SameShards id s u₁ := framed_parkShares.respects _ _ _ hpark
    have hprotocol : SameShards id u₁ u₂ := framed_payProtocolFee.respects _ _ _ hprotocol
    have hpay : SameShards id u₂ u₃ := framed_payPlan.respects _ _ _ hpay
    have hfinish : SameShards id u₄ t := framed_finishRelease.respects _ _ _ hfinish
    unfold SameShards at hpark hprotocol hpay hfinish ⊢
    rw [hfinish, hsame, hpay, hprotocol, hpark]
  · have hstart : (u₂.entries id).failedPayouts = [] := by
      have hany : ∀ p, Logs ∅ anyMemo ⟨id, p⟩ := fun _ => ⟨trivial⟩
      have hchange : Change ∅ anyMemo u₁ u₂ := change_of_framed inferInstance hprotocol
      obtain rfl := modifyEntry_ok.1 hpark
      rw [hchange.entries id (by simp), Store.setEntry_self]
      exact hnone
    have hfailed := payPlan_failed haccounts hstart hpay
    rw [← hsame] at hfailed
    rw [hentries, Store.setEntry_self]
    refine ⟨_, rfl, ?_⟩
    change releaseStatus (u₄.entries id) inv failed = .released ∨
      releaseStatus (u₄.entries id) inv failed = .partiallyReleased
    unfold releaseStatus
    by_cases hlist : (u₄.entries id).failedPayouts = []
    · simp [hlist]
    · obtain rfl := hfailed.resolve_right hlist
      simp [hlist]

/-! ## The condition on a payment -/

/-- A full release of the invoice closes it, and what its recipients get is within the funding. -/
structure ReleasesWithin (env : Env) (s : Store) (id : ℕ) (inv : Invoice) : Prop where
  fees : FeesValid env
  terms : WellFormed (s.entries id) inv
  tranches : inv.tranches = []
  unfailed : (s.entries id).failedPayouts = []
  accounts : ∀ r ∈ inv.recipients, env.accountExists (fundingTokenFor inv) r = true
  route : ∀ i, RouteSafe inv i
  acyclic : id ∉ forwardReach s id
  within : plannedTotal (s.entries id) inv ≤ inv.funded

/-- The forwarding pointers of the stored invoices decide how far they reach. -/
theorem forwardReach_congr (h : ∀ j, (t.entries j).invoice.map Invoice.forwardInvoiceId =
    (s.entries j).invoice.map Invoice.forwardInvoiceId) (k : ℕ) : forwardReach t k = forwardReach s k := by
  have hforwards : ForwardsTo t = ForwardsTo s := by
    funext a b
    have hiff : ∀ w : Store, ForwardsTo w a b ↔
        some (some b) = (w.entries a).invoice.map Invoice.forwardInvoiceId := by
      intro w
      unfold ForwardsTo
      cases (w.entries a).invoice <;> simp [eq_comm]
    exact propext (by rw [hiff, hiff, h])
  unfold forwardReach
  rw [hforwards]

theorem forwardReach_still (h : Still id s t) (k : ℕ) : forwardReach t k = forwardReach s k := by
  refine forwardReach_congr (fun j => ?_) k
  by_cases hj : j = id
  · subst hj
    have hpurse := congrArg (Option.map fun q : Purse => q.terms.forwardInvoiceId) h.purse
    rw [Option.map_map, Option.map_map] at hpurse
    exact hpurse
  · rw [h.others j hj]

theorem ReleasesWithin.congr {inv' : Invoice} (h : ReleasesWithin env s id inv) (hst : Still id s t)
    (hterms : inv'.terms = inv.terms) (hfunded : inv'.funded = inv.funded)
    (hcredit : 0 ≤ inv'.earlyBirdFeeCredit) : ReleasesWithin env t id inv' := by
  have hpaid : (t.entries id).paidRecipients = (s.entries id).paidRecipients := by
    have hbare := congrArg Entry.paidRecipients hst.bare
    exact hbare
  have hlock : (t.entries id).recipientLock = (s.entries id).recipientLock := by
    have hbare := congrArg Entry.recipientLock hst.bare
    exact hbare
  have hfailed : (t.entries id).failedPayouts = (s.entries id).failedPayouts := by
    have hbare := congrArg Entry.failedPayouts hst.bare
    exact hbare
  have hamounts : inv'.amounts = inv.amounts := by
    have hfield := congrArg Invoice.amounts hterms
    exact hfield
  have hrecipients : inv'.recipients = inv.recipients := by
    have hfield := congrArg Invoice.recipients hterms
    exact hfield
  have htoken : fundingTokenFor inv' = fundingTokenFor inv := by
    have hfield := congrArg Invoice.fundingToken hterms
    exact hfield
  have htranches : inv'.tranches = inv.tranches := by
    have hfield := congrArg Invoice.tranches hterms
    exact hfield
  have htotal : inv'.total = inv.total := congrArg List.sum hamounts
  have hshares : ∀ paidSet locked, shareList inv' paidSet locked = shareList inv paidSet locked := by
    intro paidSet locked
    change shareList (inv'.terms.withFunded inv'.funded) paidSet locked =
      shareList (inv.terms.withFunded inv.funded) paidSet locked
    rw [hterms, hfunded]
  refine ⟨h.fees, ⟨?_, ?_, ?_, ?_, hcredit, ?_, ?_⟩, ?_, ?_, ?_, fun i => ?_, ?_, ?_⟩
  · rw [hamounts]
    exact h.terms.amounts
  · rw [hfunded]
    exact h.terms.funded
  · rw [hfunded]
    exact h.terms.word
  · rw [htotal]
    exact h.terms.total
  · rw [htranches]
    exact h.terms.tranches
  · rw [hshares, hpaid, hlock]
    exact h.terms.shares
  · rw [htranches]
    exact h.tranches
  · rw [hfailed]
    exact h.unfailed
  · rw [hrecipients, htoken]
    exact h.accounts
  · change RouteSafe inv'.terms i
    rw [hterms]
    exact h.route i
  · rw [forwardReach_still hst]
    exact h.acyclic
  · unfold plannedTotal
    rw [hshares, hpaid, hlock, hrecipients, hfunded]
    exact h.within

/-- A payment is not negative, and it reaches no milestone and leaves the invoice guarded or
closes it with a release within the funding. -/
def OpenCredit (env : Env) (s : Store) (id : ℕ) (inv : Invoice) (target credited : ℤ) : Prop :=
  0 ≤ credited ∧ MilestoneAhead (s.entries id) (inv.withFunded (inv.funded + credited)) ∧
    (target ≤ inv.funded + credited →
      payGuarded env (s.entries id) (startHold env (inv.withFunded (inv.funded + credited))) = true ∨
        ReleasesWithin env s id (inv.withFunded (inv.funded + credited)))

/-- What is asked of a payment that is credited. -/
def OpenPayment (env : Env) (s : Store) (id : ℕ) (amount : ℤ) : Prop :=
  ∀ inv target credited, (s.entries id).load = some inv → paymentTarget env inv = .ok target →
    creditedAmount inv amount (target - inv.funded) = .ok credited →
    OpenCredit env s id inv target credited

theorem startHold_purse (env : Env) (inv : Invoice) :
    (startHold env inv).purse = inv.purse ∧
      (startHold env inv).earlyBirdFeeCredit = inv.earlyBirdFeeCredit := by
  exact ⟨startHold_field Invoice.purse (fun _ => rfl) env,
    startHold_field Invoice.earlyBirdFeeCredit (fun _ => rfl) env⟩

theorem earlyBirdCredit_nonneg {e : Entry} {credited credit : ℤ} (hold : 0 ≤ inv.earlyBirdFeeCredit)
    (h : earlyBirdCredit env s e inv credited = .ok credit) : 0 ≤ credit := by
  unfold earlyBirdCredit at h
  dsimp only at h
  split at h
  · obtain ⟨discount, -, h⟩ := except_bind_ok.1 h
    obtain rfl := Except.ok.inj h
    split_ifs with hpos
    · unfold satAddI128 i128Min i128Max
      omega
    · exact hold
  · obtain rfl := Except.ok.inj h
    exact hold

/-! ## What a payment leaves -/

/-- A payment was credited and saved. -/
structure Took (id : ℕ) (payer : Address) (credited : ℤ) (s t : Store) : Prop where
  joined : Joined id payer credited s t
  saved : ∃ before after, (s.entries id).invoice = some before ∧ (t.entries id).invoice = some after ∧
    after.terms = before.terms ∧ after.funded = before.funded + credited ∧
    after.status = before.status ∧ before.insuranceFund ≤ after.insuranceFund
  refunds : ∀ p, refundedTo id p t = refundedTo id p s
  payouts : ∀ tok, paidOutAll id tok t = paidOutAll id tok s

/-- A payment was credited, and the invoice was paid out within its funding and closed. -/
structure TookAndReleased (id : ℕ) (payer : Address) (credited : ℤ) (s t : Store) : Prop where
  joined : Joined id payer credited s t
  closed : ∃ before after, (s.entries id).invoice = some before ∧ (t.entries id).invoice = some after ∧
    (after.status = .released ∨ after.status = .partiallyReleased) ∧
    paidOutAll id before.fundingToken t ≤
      paidOutAll id before.fundingToken s + (before.funded + credited)
  refunds : ∀ p, refundedTo id p t = refundedTo id p s

theorem Still.paidOutAll (h : Still id s t) (tok : Address) :
    Split.paidOutAll id tok t = Split.paidOutAll id tok s := by
  have ht : ∀ m ∈ t.log, m.dst ∈ ((t.log ++ s.log).map Transfer.dst).toFinset := fun m hm => by
    simp only [List.mem_toFinset, List.mem_map]
    exact ⟨m, List.mem_append_left _ hm, rfl⟩
  have hs : ∀ m ∈ s.log, m.dst ∈ ((t.log ++ s.log).map Transfer.dst).toFinset := fun m hm => by
    simp only [List.mem_toFinset, List.mem_map]
    exact ⟨m, List.mem_append_right _ hm, rfl⟩
  rw [paidOutAll_eq ht, paidOutAll_eq hs]
  exact Finset.sum_congr rfl fun r _ => h.payouts tok r

theorem releaseAs_within {actor : Address} (h : ReleasesWithin env s id inv)
    (hinto : ForwardsInto (forwardReach s id) inv)
    (hrun : releaseAs env id inv actor s = .ok (v, t)) :
    (∀ p, refundedTo id p t = refundedTo id p s) ∧ SameShards id s t ∧
      paidOutAll id (fundingTokenFor inv) t ≤ paidOutAll id (fundingTokenFor inv) s + inv.funded ∧
      ∃ inv', (t.entries id).invoice = some inv' ∧
        (inv'.status = .released ∨ inv'.status = .partiallyReleased) := by
  rcases releaseAs_ok hrun with ⟨-, depth, hfull⟩ | ⟨hsome, -⟩
  · have hdone := releaseFull_ok h.fees h.terms h.tranches h.route h.acyclic hinto hfull
    have hpaid := hdone.paidOutAll_le h.tranches
    obtain ⟨hrefunds, hshards, hclosed⟩ :=
      releaseFull_closes h.accounts h.unfailed h.acyclic hinto hfull
    refine ⟨hrefunds, hshards, ?_, hclosed⟩
    linarith [h.within]
  · exact absurd h.tranches hsome

/-- The invoice a payment is about to save, against the stored one. -/
structure Credited (credited : ℤ) (before inv : Invoice) : Prop where
  terms : inv.terms = before.terms
  funded : inv.funded = before.funded + credited
  status : inv.status = before.status
  insurance : before.insuranceFund ≤ inv.insuranceFund

theorem Credited.startHold {before : Invoice} {credited : ℤ} (h : Credited credited before inv)
    (env : Env) :
    Credited credited before (startHold env inv) := by
  have hpurse := (startHold_purse env inv).1
  have hterms : (Split.startHold env inv).terms = inv.terms := congrArg Purse.terms hpurse
  have hfunded : (Split.startHold env inv).funded = inv.funded := congrArg Purse.funded hpurse
  have hstatus : (Split.startHold env inv).status = inv.status := congrArg Purse.status hpurse
  have hfund : (Split.startHold env inv).insuranceFund = inv.insuranceFund :=
    congrArg Purse.insuranceFund hpurse
  refine ⟨hterms.trans h.terms, hfunded.trans h.funded, hstatus.trans h.status, ?_⟩
  rw [hfund]
  exact h.insurance

theorem took_of_save {before : Invoice} {payer : Address} {credited : ℤ} (hstill : Still id s u)
    (hjoined : Joined id payer credited s u) (hstored : (s.entries id).invoice = some before)
    (hcredited : Credited credited before inv) (hsave : saveInvoice env id inv u = .ok (v, t)) :
    Took id payer credited s t := by
  obtain ⟨-, rfl⟩ := saveInvoice_ok.1 hsave
  refine ⟨hjoined.congr rfl ?_, ⟨before, inv.withPayments [], hstored, ?_, hcredited.terms,
    hcredited.funded, hcredited.status, hcredited.insurance⟩, hstill.refunds, hstill.paidOutAll⟩
  · rw [Store.setEntry_self]
    rfl
  · rw [Store.setEntry_self]

theorem settlePayment_took {before : Invoice} {payer : Address} {target credited : ℤ}
    (hstill : Still id s u) (hjoined : Joined id payer credited s u)
    (hstored : (s.entries id).invoice = some before) (hcredited : Credited credited before inv)
    (hopen : target ≤ inv.funded →
      payGuarded env (u.entries id) (startHold env inv) = true ∨ ReleasesWithin env u id inv)
    (hrun : settlePayment env id inv target payer u = .ok (v, t)) :
    Took id payer credited s t ∨ TookAndReleased id payer credited s t := by
  obtain ⟨hfilled, w, hrecord, hend⟩ | ⟨-, hrun⟩ := settlePayment_cases hrun
  · have hfunded : Still id u w := framed_recordFunded_still.respects u _ w hrecord
    have hshards : SameShards id u w := framed_recordFunded.respects u _ w hrecord
    have hjoined' : Joined id payer credited s w := hjoined.congr rfl hshards.payments
    have hguards : (w.entries id).guards = (u.entries id).guards := by
      have hbare := congrArg Entry.guards hfunded.bare
      exact hbare
    rw [payGuarded_congr hguards] at hend
    rcases hend with ⟨-, hrun⟩ | ⟨hunguarded, hrun⟩
    · exact .inl (took_of_save (hstill.trans hfunded) hjoined' hstored (hcredited.startHold env) hrun)
    · have hwithin := (hopen hfilled).resolve_left (Bool.not_eq_true _ ▸ hunguarded)
      obtain ⟨hpurse, hcredit⟩ := startHold_purse env inv
      have hheld : ReleasesWithin env w id (startHold env inv) := by
        refine hwithin.congr hfunded (congrArg Purse.terms hpurse) (congrArg Purse.funded hpurse) ?_
        rw [hcredit]
        exact hwithin.terms.credit
      have hforward : (startHold env inv).forwardInvoiceId = before.forwardInvoiceId := by
        have hfield := congrArg Invoice.forwardInvoiceId (hcredited.startHold env).terms
        exact hfield
      have hinto : ForwardsInto (forwardReach w id) (startHold env inv) := by
        intro m hm
        rw [forwardReach_still (hstill.trans hfunded)]
        rw [hforward] at hm
        exact Relation.TransGen.single ⟨before, hstored, hm⟩
      have htoken : fundingTokenFor (startHold env inv) = before.fundingToken := by
        have hfield := congrArg Invoice.fundingToken (hcredited.startHold env).terms
        exact hfield
      obtain ⟨hrefunds, hkept, hpaid, after, hafter, hclosed⟩ := releaseAs_within hheld hinto hrun
      rw [htoken, (hcredited.startHold env).funded,
        (hstill.trans hfunded).paidOutAll] at hpaid
      refine .inr ⟨hjoined'.congr rfl hkept.payments, ⟨before, after, hstored, hafter, hclosed, hpaid⟩,
        fun p => ?_⟩
      rw [hrefunds, (hstill.trans hfunded).refunds]
  · exact .inl (took_of_save hstill hjoined hstored hcredited hrun)

theorem payGuarded_still {inv' : Invoice} (hst : Still id s t) (hgates : inv'.gates = inv.gates) :
    payGuarded env (t.entries id) (startHold env inv') =
      payGuarded env (s.entries id) (startHold env inv) := by
  have hguards : (t.entries id).guards = (s.entries id).guards := by
    have hbare := congrArg Entry.guards hst.bare
    exact hbare
  rw [payGuarded_congr hguards, ← payGuarded_gates, hgates, payGuarded_gates]

theorem MilestoneAhead.still (h : MilestoneAhead (s.entries id) inv) (hst : Still id s t) :
    MilestoneAhead (t.entries id) inv := by
  have hrequired : (t.entries id).authRequired = (s.entries id).authRequired := by
    have hbare := congrArg Entry.authRequired hst.bare
    exact hbare
  have hverified : (t.entries id).recipientVerified = (s.entries id).recipientVerified := by
    have hbare := congrArg Entry.recipientVerified hst.bare
    exact hbare
  unfold MilestoneAhead recipientsVerified
  rw [hrequired, hverified]
  exact h

theorem MilestoneAhead.congr_gates {e : Entry} {inv' : Invoice} (h : MilestoneAhead e inv)
    (hgates : inv'.gates = inv.gates) : MilestoneAhead e inv' := by
  change MilestoneAhead e inv'.gates
  rw [hgates]
  exact h

theorem OpenCredit.congr {inv' : Invoice} {target credited : ℤ}
    (h : OpenCredit env s id inv target credited) (hst : Still id s t)
    (hgates : inv'.gates = inv.gates) (hcredit : inv'.earlyBirdFeeCredit = inv.earlyBirdFeeCredit) :
    OpenCredit env t id inv' target credited := by
  have hfunded : inv'.funded = inv.funded := by
    have hfield := congrArg Invoice.funded hgates
    exact hfield
  have hterms : inv'.terms = inv.terms := by
    have hfield := congrArg Invoice.terms hgates
    exact hfield
  have hset : (inv'.withFunded (inv.funded + credited)).gates =
      (inv.withFunded (inv.funded + credited)).gates := by
    have hfield := congrArg (Invoice.withFunded · (inv.funded + credited)) hgates
    exact hfield
  obtain ⟨hnonneg, hahead, hclose⟩ := h
  refine ⟨hnonneg, ?_, fun hfilled => ?_⟩
  · rw [hfunded]
    exact (hahead.still hst).congr_gates hset
  rw [hfunded] at hfilled ⊢
  rcases hclose hfilled with hguarded | hwithin
  · left
    rw [payGuarded_still hst hset]
    exact hguarded
  · right
    refine hwithin.congr hst hterms rfl ?_
    have hold : 0 ≤ inv.earlyBirdFeeCredit := hwithin.terms.credit
    rw [← hcredit] at hold
    exact hold

theorem creditPayment_took {before : Invoice} {payer : Address} {amount target : ℤ} {donate : Bool}
    (hstill : Still id s u) (hshards : SameShards id s u)
    (hstored : (s.entries id).invoice = some before) (hpurse : inv.purse = before.purse)
    (hopen : ∀ credited, creditedAmount inv amount (target - inv.funded) = .ok credited →
      OpenCredit env u id inv target credited)
    (hrun : creditPayment env payer id inv amount target donate u = .ok (v, t)) :
    ∃ credited, 0 ≤ credited ∧
      (Took id payer credited s t ∨ TookAndReleased id payer credited s t) := by
  obtain ⟨credited, premium, credit, paid, u₃, u₄, u₅, u₆, u₇, u₈, hcredited, hpremium, htake, hcredit,
    hrecord, hcount, hnotify, hmilestones, hreceipt, hsettle⟩ := creditPayment_passes hrun
  obtain ⟨hnonneg, hahead, hclose⟩ := hopen credited hcredited
  have hstill₃ : Still id u u₃ := framed_takePayment.respects u _ u₃ htake
  have hstill₄ : Still id u₃ u₄ := framed_recordPayment_still.respects u₃ _ u₄ hrecord
  have hstill₅ : Still id u₄ u₅ := framed_countPayment.respects u₄ _ u₅ hcount
  have hstill₆ : Still id u₅ u₆ := framed_notifyInvoice.respects u₅ _ u₆ hnotify
  have hahead' : MilestoneAhead (u₆.entries id) (inv.credited (inv.funded + credited) premium credit) :=
    (hahead.still (((hstill₃.trans hstill₄).trans hstill₅).trans hstill₆)).congr_gates rfl
  obtain ⟨rfl, rfl⟩ := maybeReleaseMilestones_ahead hahead' hmilestones
  have hstill₈ : Still id u₇ u₈ := framed_invokeIfSet.respects u₇ _ u₈ hreceipt
  have hpaid : Still id u u₈ :=
    (((hstill₃.trans hstill₄).trans hstill₅).trans hstill₆).trans hstill₈
  have hshards₃ : SameShards id u u₃ := framed_takePayment.respects u _ u₃ htake
  have hshards₅ : SameShards id u₄ u₅ := framed_countPayment.respects u₄ _ u₅ hcount
  have hshards₆ : SameShards id u₅ u₇ := framed_notifyInvoice.respects u₅ _ u₇ hnotify
  have hshards₈ : SameShards id u₇ u₈ := framed_invokeIfSet.respects u₇ _ u₈ hreceipt
  have hjoined : Joined id payer credited s u₈ := by
    refine (recordPayment_joined hrecord).congr ?_ ?_
    · rw [hshards₃.payments, hshards.payments]
    · rw [hshards₈.payments, hshards₆.payments, hshards₅.payments]
  have hbefore : Credited credited before
      (inv.credited (inv.funded + credited) premium credit) := by
    have hterms : inv.terms = before.terms := congrArg Purse.terms hpurse
    have hfunded : inv.funded = before.funded := congrArg Purse.funded hpurse
    have hstatus : inv.status = before.status := congrArg Purse.status hpurse
    have hfund : inv.insuranceFund = before.insuranceFund := congrArg Purse.insuranceFund hpurse
    have hpositive : 0 ≤ premium := plainMulDiv_nonneg hpremium (by norm_num)
    refine ⟨hterms, ?_, hstatus, ?_⟩
    · rw [← hfunded]
      rfl
    · change before.insuranceFund ≤ inv.insuranceFund + premium
      linarith
  refine ⟨credited, hnonneg, settlePayment_took (hstill.trans hpaid) hjoined hstored hbefore
    (fun hfilled => ?_) hsettle⟩
  rcases hclose hfilled with hguarded | hwithin
  · left
    have hgates : (inv.credited (inv.funded + credited) premium credit).gates =
        (inv.withFunded (inv.funded + credited)).gates := rfl
    rw [payGuarded_still hpaid hgates]
    exact hguarded
  · right
    exact hwithin.congr hpaid rfl rfl (earlyBirdCredit_nonneg hwithin.terms.credit hcredit)

theorem purse_load (hload : (s.entries id).load = some inv) :
    ∃ before, (s.entries id).invoice = some before ∧ inv.purse = before.purse := by
  obtain ⟨before, hbefore, rfl⟩ := Option.map_eq_some_iff.1 hload
  exact ⟨before, hbefore, rfl⟩

theorem checkPayment_still {payer : Address} {amount : ℤ}
    (hrun : checkPayment env payer id amount s = .ok (inv, t)) :
    ∃ stored, (s.entries id).load = some stored ∧ stored.status = .pending ∧
      (inv = stored ∨ inv = stored.resumed) ∧ Still id s t := by
  obtain ⟨stored, hload, hpending, hinv⟩ := checkPayment_ok hrun
  refine ⟨stored, hload, hpending, ?_⟩
  rcases hinv with ⟨rfl, rfl⟩ | ⟨rfl, hsave⟩
  · exact ⟨.inl rfl, refl_of (Still id) t⟩
  · refine ⟨.inr rfl, ?_⟩
    obtain ⟨before, hbefore, hpurse⟩ := purse_load hload
    obtain ⟨-, rfl⟩ := saveInvoice_ok.1 hsave
    refine still_setEntry rfl ?_
    rw [hbefore]
    exact congrArg some hpurse

/-- A payment is put by, or credited and saved, or credited and the invoice released with it. -/
theorem pay_took {payer : Address} {amount : ℤ} {nonce : ℕ} {donate : Bool}
    (hopen : OpenPayment env s id amount)
    (hrun : pay env payer id amount nonce donate s = .ok (v, t)) :
    (Still id s t ∧ SameShards id s t) ∨ ∃ credited, 0 ≤ credited ∧
      (Took id payer credited s t ∨ TookAndReleased id payer credited s t) := by
  obtain ⟨inv, target, credits, u₁, u₂, u₃, -, hcheck, htarget, hkyc, haccumulate, hcredits⟩ :=
    pay_passes hrun
  obtain ⟨stored, hload, -, hinv, hstill₁⟩ := checkPayment_still hcheck
  obtain ⟨before, hbefore, hpurse⟩ := purse_load hload
  have hstill₂ : Still id u₁ u₂ := framed_checkKyc.respects u₁ _ u₂ hkyc
  have hstill₃ : Still id u₂ u₃ := framed_accumulate_still.respects u₂ _ u₃ haccumulate
  have hshards₁ : SameShards id s u₁ := framed_checkPayment.respects s _ u₁ hcheck
  have hshards₂ : SameShards id u₁ u₂ := framed_checkKyc.respects u₁ _ u₂ hkyc
  have hshards₃ : SameShards id u₂ u₃ := framed_accumulate.respects u₂ _ u₃ haccumulate
  have hstill : Still id s u₃ := (hstill₁.trans hstill₂).trans hstill₃
  have hshards : SameShards id s u₃ := hshards₃.trans (hshards₂.trans hshards₁)
  rcases hcredits with ⟨-, u₄, hlimits, hcredit⟩ | ⟨-, rfl⟩
  · have hstill₄ : Still id u₃ u₄ := framed_checkLimits_still.respects u₃ _ u₄ hlimits
    have hshards₄ : SameShards id u₃ u₄ := framed_checkLimits.respects u₃ _ u₄ hlimits
    have hcredited : ∀ credited, creditedAmount inv amount (target - inv.funded) = .ok credited →
        OpenCredit env u₄ id inv target credited := by
      intro credited hcredited
      rcases hinv with rfl | rfl
      · exact (hopen inv target credited hload htarget hcredited).congr (hstill.trans hstill₄) rfl rfl
      · exact (hopen stored target credited hload htarget hcredited).congr (hstill.trans hstill₄) rfl rfl
    have hpurse' : inv.purse = before.purse := by
      rcases hinv with rfl | rfl <;> exact hpurse
    exact .inr (creditPayment_took (hstill.trans hstill₄) (hshards₄.trans hshards) hbefore hpurse'
      hcredited hcredit)
  · exact .inl ⟨hstill, hshards⟩

end StellarSplit.Split
