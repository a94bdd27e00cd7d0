import StellarSplit.Split.Expiry
import StellarSplit.Split.Shares

/-!
# What a full release sends

A full release sends each recipient at most the planned share. The passes
after the payouts move nothing to payers or recipients of the invoice, as long
as no chain of forwards leads back to it.
-/

namespace StellarSplit.Split

open Exec Function Machine

variable {s t u : Store} {env : Env} {id : ℕ} {inv : Invoice}

/-! ## Paying one recipient -/

/-- The payouts of an invoice to one recipient in one token. -/
def payoutTo (id : ℕ) (tok r : Address) (m : Transfer Memo) : Bool :=
  m.memo = ⟨id, .payout⟩ ∧ m.token = tok ∧ m.dst = r

/-- What the payouts of an invoice to a recipient in a token sum to. -/
def paidOut (id : ℕ) (tok r : Address) (s : Store) : ℤ := tally (payoutTo id tok r) s.log

section PaidOut

variable {tok r : Address}

@[simp] theorem paidOut_withLog_cons (m : Transfer Memo) :
    paidOut id tok r (s.withLog (m :: s.log)) =
      (if payoutTo id tok r m then m.amount else 0) + paidOut id tok r s := rfl

/-- A payout to some recipient counts for that recipient only. -/
theorem paidOut_payout_le {token dst : Address} {amount : ℤ} :
    paidOut id tok r (s.withLog (⟨token, currentContract, dst, amount, ⟨id, .payout⟩⟩ :: s.log)) ≤
      paidOut id tok r s + if dst = r then max amount 0 else 0 := by
  rw [paidOut_withLog_cons]
  simp only [payoutTo, true_and, Bool.decide_and, Bool.and_eq_true, decide_eq_true_eq]
  split_ifs with hboth hdst hdst
  · omega
  · exact absurd hboth.2 hdst
  · omega
  · omega

/-- A movement in another token or for another purpose does not count. -/
theorem paidOut_other {m : Transfer Memo} (h : m.memo ≠ ⟨id, .payout⟩ ∨ m.token ≠ tok) :
    paidOut id tok r (s.withLog (m :: s.log)) = paidOut id tok r s := by
  rw [paidOut_withLog_cons]
  have hno : payoutTo id tok r m = false := by
    simp only [payoutTo, decide_eq_false_iff_not]
    rintro ⟨hmemo, htoken, -⟩
    exact h.elim (fun h => h hmemo) fun h => h htoken
  simp [hno]

theorem paidOut_tryTransfer {token dst : Address} {amount : ℤ} {sent : Bool}
    (hrun : tryTransfer env token dst amount ⟨id, .payout⟩ s = .ok (sent, t)) :
    paidOut id tok r t ≤ paidOut id tok r s + if dst = r then max amount 0 else 0 := by
  obtain ⟨-, rfl⟩ := tryTransfer_ok.1 hrun
  cases sent with
  | true => exact paidOut_payout_le
  | false =>
    simp only [Bool.false_eq_true, if_false]
    split_ifs <;> omega

theorem executeSmartRoute_off {recipient : Address} {routed : Bool} (hoff : inv.smartRoute = false)
    (hrun : executeSmartRoute env inv recipient s = .ok (routed, t)) : routed = false ∧ s = t := by
  unfold executeSmartRoute at hrun
  rw [if_neg (by simp [hoff])] at hrun
  obtain ⟨rfl, rfl⟩ := pure_ok.1 hrun
  exact ⟨rfl, rfl⟩

/-- The recipient at place `i` is not paid twice by the routing branch: that branch pays in the
funding token and then in the recipient's token. -/
def RouteSafe (inv : Invoice) (i : ℕ) : Prop :=
  inv.smartRoute = true → inv.swapTokens.getD i none = none →
    recipientTokenFor inv i ≠ fundingTokenFor inv

theorem deliverPayout_paidOut {i : ℕ} {dst : Address} {amount : ℤ} {success : Bool}
    (hroute : RouteSafe inv i)
    (hrun : deliverPayout env id inv i dst amount s = .ok (success, t)) :
    paidOut id (fundingTokenFor inv) r t ≤
      paidOut id (fundingTokenFor inv) r s + if dst = r then max amount 0 else 0 := by
  have hnone : paidOut id (fundingTokenFor inv) r s ≤
      paidOut id (fundingTokenFor inv) r s + if dst = r then max amount 0 else 0 := by
    split_ifs <;> omega
  unfold deliverPayout at hrun
  cases hswap : inv.swapTokens.getD i none with
  | some outToken =>
      simp only [hswap] at hrun
      obtain ⟨-, rfl⟩ := pure_ok.1 hrun
      exact hnone
  | none =>
      simp only [hswap] at hrun
      by_cases hsmart : inv.smartRoute = true
      · rw [if_pos hsmart] at hrun
        obtain ⟨sent, u, htry, hrun⟩ := bind_ok.1 hrun
        obtain ⟨_, w, htransfer, hrun⟩ := bind_ok.1 hrun
        obtain ⟨-, rfl⟩ := pure_ok.1 hrun
        obtain ⟨-, rfl⟩ := transfer_ok.1 htransfer
        rw [paidOut_other (.inr (hroute hsmart hswap))]
        exact paidOut_tryTransfer htry
      · rw [if_neg hsmart] at hrun
        by_cases hstream : inv.convertToStream = true
        · rw [if_pos hstream] at hrun
          cases hcontract : env.config.streamContract with
          | some stream =>
              simp only [hcontract] at hrun
              obtain ⟨sent, u, htry, hrun⟩ := bind_ok.1 hrun
              obtain ⟨-, rfl⟩ := pure_ok.1 hrun
              obtain ⟨-, rfl⟩ := tryTransfer_ok.1 htry
              split
              · rw [paidOut_other (.inl (by simp))]
                exact hnone
              · exact hnone
          | none =>
              simp only [hcontract] at hrun
              obtain ⟨_, u, htransfer, hrun⟩ := bind_ok.1 hrun
              obtain ⟨-, rfl⟩ := pure_ok.1 hrun
              obtain ⟨-, rfl⟩ := transfer_ok.1 htransfer
              exact paidOut_payout_le
        · rw [if_neg hstream] at hrun
          obtain ⟨routed, u, hrouted, hrun⟩ := bind_ok.1 hrun
          obtain ⟨rfl, rfl⟩ := executeSmartRoute_off (by simpa using hsmart) hrouted
          exact paidOut_tryTransfer hrun

end PaidOut

/-! ## The transfer pass -/

/-- What a release call reads of the entries of its invoice and never writes before its end. -/
structure SameTerms (id : ℕ) (s t : Store) : Prop where
  invoice : (t.entries id).invoice = (s.entries id).invoice
  paidRecipients : (t.entries id).paidRecipients = (s.entries id).paidRecipients
  recipientLock : (t.entries id).recipientLock = (s.entries id).recipientLock

theorem SameTerms.trans (h₁ : SameTerms id s t) (h₂ : SameTerms id t u) : SameTerms id s u :=
  ⟨h₂.invoice.trans h₁.invoice, h₂.paidRecipients.trans h₁.paidRecipients,
    h₂.recipientLock.trans h₁.recipientLock⟩

theorem SameTerms.of_entries (h : t.entries id = s.entries id) : SameTerms id s t := by
  constructor <;> rw [h]

instance sameTerms_refl : Std.Refl (SameTerms id) := ⟨fun _ => .of_entries rfl⟩

instance sameTerms_trans : IsTrans Store (SameTerms id) := ⟨fun _ _ _ => .trans⟩

instance notes_sameTerms : Notes (SameTerms id) id := by
  refine ⟨fun s e hcore => ?_⟩
  have hinvoice : e.core.invoice = (s.entries id).core.invoice := by rw [hcore]
  have hpaid : e.core.paidRecipients = (s.entries id).core.paidRecipients := by rw [hcore]
  have hlock : e.core.recipientLock = (s.entries id).core.recipientLock := by rw [hcore]
  constructor <;> rw [Store.setEntry_self]
  · exact hinvoice
  · exact hpaid
  · exact hlock

/-- A call that writes no entry keeps the terms. -/
theorem sameTerms_of_framed {α : Type} {x : SplitM α} {a : α}
    (hx : Framed (Frame Set.univ ∅ anyMemo) x) (hrun : x s = .ok (a, t)) : SameTerms id s t :=
  .of_entries ((change_of_framed hx hrun).entries id (by simp))

/-- Writing the entries of an invoice moves nothing. -/
theorem log_modifyEntry {f : Entry → Entry} {v : Unit} (hrun : modifyEntry id f s = .ok (v, t)) :
    t.log = s.log := by
  obtain rfl := modifyEntry_ok.1 hrun
  rfl

theorem log_recordFailure {a : Address} {x : ℤ} {v : Unit}
    (hrun : recordFailure env id a x s = .ok (v, t)) : t.log = s.log := by
  obtain ⟨_, u, hfirst, hsecond⟩ := bind_ok.1 hrun
  exact (log_modifyEntry hsecond).trans (log_modifyEntry hfirst)

theorem paidOut_log {tok r : Address} (h : t.log = s.log) : paidOut id tok r t = paidOut id tok r s := by
  unfold paidOut
  rw [h]

/-- Every memo but that of a payout of the invoice. -/
def notPayout (id : ℕ) (m : Memo) : Prop := m ≠ ⟨id, .payout⟩

theorem paidOut_change {W : Set ℕ} {tok r : Address} (h : Change W (notPayout id) s t) :
    paidOut id tok r t = paidOut id tok r s := by
  obtain ⟨new, hlog, hnew⟩ := h.log
  have hzero : tally (payoutTo id tok r) new = 0 := by
    apply tally_eq_zero
    intro m hm
    simp only [payoutTo, decide_eq_false_iff_not]
    exact fun hpay => hnew m hm hpay.1
  unfold paidOut
  rw [hlog, tally_append, hzero, zero_add]

/-- The memos of an invoice other than payouts. -/
theorem logs_notPayout {W : Set ℕ} {p : Purpose} (h : p ≠ .payout) : Logs W (notPayout id) ⟨id, p⟩ :=
  ⟨by simpa [notPayout] using h⟩

/-- The settings of a release under which no fee adds to a share. -/
structure Priced (inv : Invoice) (platformFee : ℤ) (plan : Plan) : Prop where
  funded : 0 ≤ inv.funded
  word : inv.funded ≤ i128Max
  fee_nonneg : 0 ≤ platformFee
  fee_le : platformFee ≤ max inv.funded 0
  payouts : ∀ x ∈ plan.payouts, x ≤ i128Max

/-- One step of the transfer pass sends the recipient at most the planned share. -/
theorem payRecipient_paidOut {r : Address} {paidSet : List Address} {platformFee : ℤ} {plan : Plan}
    {acc acc' : Pass} {ri : Address × ℕ} (hpriced : Priced inv platformFee plan)
    (hroute : RouteSafe inv ri.2)
    (hrun : payRecipient env id inv paidSet platformFee plan acc ri s = .ok (acc', t)) :
    SameTerms id s t ∧
      paidOut id (fundingTokenFor inv) r t ≤ paidOut id (fundingTokenFor inv) r s +
        if ri.1 = r then max (plan.payouts.getD ri.2 0) 0 else 0 := by
  have hweight : 0 ≤ if ri.1 = r then max (plan.payouts.getD ri.2 0) 0 else 0 := by
    split_ifs <;> omega
  unfold payRecipient at hrun
  obtain ⟨proportional, _, hread, hrun⟩ := bind_ok.1 hrun
  obtain ⟨hpayout, rfl⟩ := ofResult_ok.1 hread
  rw [unwrap_ok] at hpayout
  obtain ⟨e, _, hentry, hrun⟩ := bind_ok.1 hrun
  obtain ⟨rfl, rfl⟩ := getEntry_ok.1 hentry
  split_ifs at hrun with hskip hmissing
  · obtain ⟨-, rfl⟩ := pure_ok.1 hrun
    exact ⟨refl_of (SameTerms id) s, by omega⟩
  · obtain ⟨_, u, hmark, hrun⟩ := bind_ok.1 hrun
    obtain ⟨-, rfl⟩ := pure_ok.1 hrun
    rw [paidOut_log (log_modifyEntry hmark)]
    exact ⟨framed_markMissing.respects _ _ _ hmark, by omega⟩
  · obtain ⟨net, _, hprice, hrun⟩ := bind_ok.1 hrun
    obtain ⟨hnet, rfl⟩ := ofResult_ok.1 hprice
    obtain ⟨success, u₁, hdeliver, hrun⟩ := bind_ok.1 hrun
    obtain ⟨_, u₂, hfailure, hrun⟩ := bind_ok.1 hrun
    obtain ⟨_, u₃, htax, hrun⟩ := bind_ok.1 hrun
    obtain ⟨-, rfl⟩ := pure_ok.1 hrun
    have hle : net.1 ≤ max proportional 0 :=
      netPayout_le hpriced.funded hpriced.word hpriced.fee_nonneg hpriced.fee_le
        (hpriced.payouts _ (List.mem_of_getElem? hpayout)) hnet
    have hsent : paidOut id (fundingTokenFor inv) r u₁ ≤
        paidOut id (fundingTokenFor inv) r s + if ri.1 = r then max net.1 0 else 0 :=
      deliverPayout_paidOut hroute hdeliver
    have hfailure : SameTerms id u₁ u₂ ∧ u₂.log = u₁.log := by
      rcases onlyIf_ok.1 hfailure with ⟨-, hrecord⟩ | ⟨-, rfl⟩
      · exact ⟨framed_recordFailure.respects _ _ _ hrecord, log_recordFailure hrecord⟩
      · exact ⟨refl_of (SameTerms id) _, rfl⟩
    have hlogs : Logs ∅ (notPayout id) ⟨id, .tax⟩ := logs_notPayout (by simp)
    have htax : Change ∅ (notPayout id) u₂ u₃ := change_of_framed inferInstance htax
    refine ⟨?_, ?_⟩
    · have hfirst : SameTerms id s u₁ := by
        have hany : ∀ p, Logs ∅ anyMemo ⟨id, p⟩ := fun _ => ⟨trivial⟩
        exact sameTerms_of_framed inferInstance hdeliver
      exact (hfirst.trans hfailure.1).trans (.of_entries (htax.entries id (by simp)))
    · rw [paidOut_change htax, paidOut_log hfailure.2]
      have hget : plan.payouts.getD ri.2 0 = proportional := by
        rw [List.getD_eq_getElem?_getD, hpayout]
        rfl
      rw [hget]
      split_ifs at hsent ⊢ <;> omega

/-- The transfer pass sends a recipient at most the planned shares. -/
theorem payRecipients_paidOut {r : Address} {paidSet : List Address} {platformFee : ℤ} {plan : Plan}
    {failed : Bool} (hpriced : Priced inv platformFee plan) (hroute : ∀ i, RouteSafe inv i)
    (hrun : payRecipients env id inv paidSet platformFee plan s = .ok (failed, t)) :
    SameTerms id s t ∧
      paidOut id (fundingTokenFor inv) r t ≤ paidOut id (fundingTokenFor inv) r s +
        sumAt inv.recipients r fun i => max (plan.payouts.getD i 0) 0 := by
  unfold payRecipients at hrun
  obtain ⟨pass, u₁, hloop, hrun⟩ := bind_ok.1 hrun
  obtain ⟨hterms, hle⟩ := foldlM_bound (P := SameTerms id s)
    (μ := paidOut id (fundingTokenFor inv) r)
    (w := fun ri => if ri.1 = r then max (plan.payouts.getD ri.2 0) 0 else 0)
    (fun acc ri u acc' u' _ hu hstep => by
      obtain ⟨hkept, hle⟩ := payRecipient_paidOut hpriced (hroute ri.2) hstep
      exact ⟨hu.trans hkept, hle⟩)
    (refl_of (SameTerms id) s) hloop
  have hfees : Framed (Frame Set.univ ∅ (notPayout id)) (do
      payPlatformFee env id plan.totalFee (fundingTokenFor inv)
      transferPositive env (fundingTokenFor inv) inv.creator pass.creatorFee ⟨id, .creatorFee⟩
      pure pass.failed) := by
    have hplatform : Logs ∅ (notPayout id) ⟨id, .platformFee⟩ := logs_notPayout (by simp)
    have hcreator : Logs ∅ (notPayout id) ⟨id, .creatorFee⟩ := logs_notPayout (by simp)
    infer_instance
  have hchange : Change ∅ (notPayout id) u₁ t := change_of_framed hfees hrun
  refine ⟨hterms.trans (.of_entries (hchange.entries id (by simp))), ?_⟩
  rw [paidOut_change hchange]
  exact hle

/-- Paying the plan out sends a recipient at most the planned shares; a treasury takes it all. -/
theorem payPlan_paidOut {r : Address} {e : Entry} {platformFee : ℤ} {plan : Plan}
    {failed : Bool} (hpriced : Priced inv platformFee plan) (hroute : ∀ i, RouteSafe inv i)
    (hrun : payPlan env id inv e platformFee plan s = .ok (failed, t)) :
    SameTerms id s t ∧
      paidOut id (fundingTokenFor inv) r t ≤ paidOut id (fundingTokenFor inv) r s +
        sumAt inv.recipients r fun i => max (plan.payouts.getD i 0) 0 := by
  unfold payPlan at hrun
  cases htreasury : e.treasury with
  | none =>
      simp only [htreasury] at hrun
      exact payRecipients_paidOut hpriced hroute hrun
  | some treasury =>
      simp only [htreasury] at hrun
      have hframe : Framed (Frame Set.univ ∅ (notPayout id)) (do
          payTreasury env id inv plan treasury
          pure false) := by
        have htax : Logs ∅ (notPayout id) ⟨id, .tax⟩ := logs_notPayout (by simp)
        have hplatform : Logs ∅ (notPayout id) ⟨id, .platformFee⟩ := logs_notPayout (by simp)
        have hnet : Logs ∅ (notPayout id) ⟨id, .treasuryNet⟩ := logs_notPayout (by simp)
        infer_instance
      have hchange : Change ∅ (notPayout id) s t := change_of_framed hframe hrun
      refine ⟨.of_entries (hchange.entries id (by simp)), ?_⟩
      rw [paidOut_change hchange]
      have hnonneg : 0 ≤ sumAt inv.recipients r fun i => max (plan.payouts.getD i 0) 0 :=
        sumAt_nonneg fun _ => by omega
      omega

/-! ## A full release -/

/-- No memo. -/
def noMemo (_ : Memo) : Prop := False

/-- A call that writes no entry and moves nothing; it may count. -/
theorem quiet_of_framed {α : Type} {x : SplitM α} {a : α} (hx : Framed (Frame Set.univ ∅ noMemo) x)
    (hrun : x s = .ok (a, t)) : t.entries = s.entries ∧ t.log = s.log := by
  have hchange : Change ∅ noMemo s t := change_of_framed hx hrun
  refine ⟨funext fun k => hchange.entries k (by simp), ?_⟩
  obtain ⟨new, hlog, hnew⟩ := hchange.log
  cases new with
  | nil => exact hlog
  | cons m new => exact (hnew m (by simp)).elim

/-- The end of a full release writes the invoice with its new status. -/
theorem finishRelease_ok {failed : Bool} {fee : ℤ} {v : Unit}
    (hrun : finishRelease env id inv failed fee s = .ok (v, t)) :
    t.log = s.log ∧ t.entries = (s.setEntry id { s.entries id with
      invoice := some ((inv.insurancePaid.completed (releaseStatus (s.entries id) inv failed)
        env.now).withPayments []) }).entries := by
  unfold finishRelease at hrun
  obtain ⟨e, _, hentry, hrun⟩ := bind_ok.1 hrun
  obtain ⟨rfl, rfl⟩ := getEntry_ok.1 hentry
  obtain ⟨_, u₁, hclose, hrun⟩ := bind_ok.1 hrun
  obtain ⟨_, u₂, hsave, hrun⟩ := bind_ok.1 hrun
  obtain ⟨hentries₁, hlog₁⟩ := quiet_of_framed inferInstance hclose
  obtain ⟨-, rfl⟩ := saveInvoice_ok.1 hsave
  have hrest : Framed (Frame Set.univ ∅ noMemo) (do
      notifyInvoice env inv
      maybeRecordReleased env
      countRelease env inv.creator inv.funded fee) := inferInstance
  obtain ⟨hentries₂, hlog₂⟩ := quiet_of_framed hrest hrun
  refine ⟨hlog₂.trans hlog₁, ?_⟩
  rw [hentries₂]
  unfold Store.setEntry
  rw [hentries₁]

/-- The invoices other than this one. -/
abbrev others (id : ℕ) : Set ℕ := {k | k ≠ id}

instance covers_others : Covers (others id) (notPayout id) :=
  ⟨fun _ hm _ h => hm (congrArg Memo.invoice h)⟩

/-- The first invoice forwards its remainder to the second. -/
def ForwardsTo (s : Store) (a b : ℕ) : Prop :=
  ∃ inv ∈ (s.entries a).invoice, inv.forwardInvoiceId = some b

/-- The invoices that a chain of forwards from this one leads to. -/
def forwardReach (s : Store) (id : ℕ) : Set ℕ := {k | Relation.TransGen (ForwardsTo s) id k}

theorem closed_forwardReach (s : Store) (id : ℕ) :
    Closed (forwardReach s id) (forwardReach s id) s :=
  fun _ hk inv hinv _ hm => Relation.TransGen.tail hk ⟨inv, hinv, hm⟩

theorem forwardReach_into (hload : (s.entries id).load = some inv) :
    ForwardsInto (forwardReach s id) inv := by
  obtain ⟨stored, hstored, rfl⟩ := Option.map_eq_some_iff.1 hload
  intro m hm
  exact Relation.TransGen.single ⟨stored, hstored, hm⟩

theorem closed_of_entries {W : Set ℕ} (hs : Closed W W s) (h : ∀ k ∈ W, t.entries k = s.entries k) :
    Closed W W t := by
  intro k hk inv hinv
  rw [h k hk] at hinv
  exact hs k hk inv hinv

/-- What a full release leaves: the planned shares have gone out once, and the invoice is
released or has a failed payout on record. -/
structure FullyReleased (id : ℕ) (inv : Invoice) (s t : Store) : Prop where
  paid : ∀ r, paidOut id (fundingTokenFor inv) r t ≤
    paidOut id (fundingTokenFor inv) r s + recipientShare (s.entries id) inv r
  paidRecipients : (t.entries id).paidRecipients = (s.entries id).paidRecipients
  recipientLock : (t.entries id).recipientLock = (s.entries id).recipientLock
  stored : ∃ inv', (t.entries id).invoice = some inv' ∧ inv'.tranches = [] ∧
    (inv'.status = .released ∨ (t.entries id).failedPayouts ≠ [])

/-- What creation, payments and the types of the contract promise of a stored invoice. -/
structure WellFormed (e : Entry) (inv : Invoice) : Prop where
  amounts : ∀ a ∈ inv.amounts, 0 ≤ a
  funded : 0 ≤ inv.funded
  word : inv.funded ≤ i128Max
  total : inv.total ≤ i128Max
  credit : 0 ≤ inv.earlyBirdFeeCredit
  tranches : (inv.tranches.map Tranche.basisPoints).sum ≤ 10000
  shares : ∀ l, shareList inv e.paidRecipients e.recipientLock = .ok l → ∀ x ∈ l.1, x ≤ i128Max

theorem WellFormed.priced {actor : Address} {platformFee : ℤ} {plan : Plan} {e : Entry}
    (hwf : WellFormed e inv) (hfees : FeesValid env)
    (hfee : totalPlatformFee env inv actor = .ok platformFee)
    (hplan : planPayouts env inv e.paidRecipients e.recipientLock platformFee = .ok plan) :
    Priced inv platformFee plan := by
  obtain ⟨hfee₀, hfee₁⟩ := totalPlatformFee_bounds hfees hwf.credit hfee
  exact ⟨hwf.funded, hwf.word, hfee₀, hfee₁, hwf.shares _ (planPayouts_share hplan)⟩

theorem Change.mono {W W' : Set ℕ} {M : Memo → Prop} (h : Change W M s t) (hW : W ⊆ W') :
    Change W' M s t :=
  ⟨fun k hk => h.entries k fun hin => hk (hW hin), h.group, h.groups, h.counter, h.log⟩

/-- Releasing a group member keeps its forwarding pointer. -/
theorem releaseMember_closed {V W : Set ℕ} {m : ℕ} {v : Unit} (hs : Closed V W s)
    (hrun : releaseMember env m s = .ok (v, t)) : Closed V W t := by
  by_cases hm : m ∈ W
  · have hmem : Fact (m ∈ W) := ⟨hm⟩
    have hframe : Framed (Frame V W anyMemo) (releaseMember env m) := inferInstance
    exact (hframe.respects s v t hrun hs).1
  · have hchange : Change {m} anyMemo s t := change_of_framed inferInstance hrun
    intro k hk inv hinv
    have hne : k ≠ m := by
      rintro rfl
      exact hm hk
    rw [hchange.entries k (by simpa using hne)] at hinv
    exact hs k hk inv hinv

theorem releaseMembers_aside {V W : Set ℕ} {M : Memo → Prop} [Covers (others id) M] {ms : List ℕ}
    (hms : ∀ m ∈ ms, m ≠ id) :
    Respects (Under (Closed V W) (Change (others id) M))
      (forM ms (releaseMember env)) := by
  refine .forM fun m hm s v t hrun hs => ⟨releaseMember_closed hs hrun, ?_⟩
  have hmem : Fact (m ∈ others id) := ⟨hms m hm⟩
  exact change_of_framed inferInstance hrun

/-- The group pass leaves the invoice itself alone. -/
theorem releaseGroup_aside {V W : Set ℕ} {M : Memo → Prop} [Covers (others id) M] :
    Respects (Under (Closed V W) (Change (others id) M)) (releaseGroup env id) := by
  intro s v t hrun
  obtain ⟨e, _, hentry, hrun⟩ := bind_ok.1 hrun
  obtain ⟨rfl, rfl⟩ := getEntry_ok.1 hentry
  cases hgroup : (s.entries id).group with
  | none =>
      simp only [hgroup] at hrun
      obtain ⟨-, rfl⟩ := pure_ok.1 hrun
      exact refl_of (Under _ _) _
  | some g =>
      simp only [hgroup] at hrun
      obtain ⟨members, _, hread, hrun⟩ := bind_ok.1 hrun
      obtain rfl := eq_of_framed hread
      exact releaseMembers_aside (fun m hm => by simpa using (List.mem_filter.1 hm).2) s v t hrun

/-- The last passes of a full release leave the entries of the invoice alone and move nothing for it
but the insurance and the remainder, as long as no chain of forwards leads back to it. -/
theorem lastPasses_change {R : Set ℕ} {M : Memo → Prop} [hothers : Covers (others id) M] {depth : ℕ}
    {leftover : ℤ} {u₂ u₃ : Store} {v : Unit} (hinsured : M ⟨id, .insurance⟩) (hforwarded : M ⟨id, .forward⟩)
    (hid : id ∉ R) (hclosed : Closed R R s) (hinto : ForwardsInto R inv)
    (hgroup : releaseGroup env id s = .ok ((), u₂)) (hinsurance : returnInsurance env id inv u₂ = .ok ((), u₃))
    (hforward : forwardLeftover env (releaseWithin env depth) id inv leftover u₃ = .ok (v, t)) :
    Change (others id) M s t := by
  have hsub : R ⊆ others id := by
    rintro k hk rfl
    exact hid hk
  have hlogs₂ : Logs ∅ M ⟨id, .insurance⟩ := ⟨hinsured⟩
  have hlogs₃ : Logs R M ⟨id, .forward⟩ := ⟨hforwarded⟩
  have hcovers : Covers R M := ⟨fun m hm => hothers.memo m (hsub hm)⟩
  have hfact : Fact (ForwardsInto R inv) := ⟨hinto⟩
  obtain ⟨hclosed₂, h₂⟩ := releaseGroup_aside (M := M) s _ u₂ hgroup hclosed
  have h₃ : Change ∅ M u₂ u₃ := change_of_framed inferInstance hinsurance
  have hclosed₃ : Closed R R u₃ := closed_of_entries hclosed₂ fun k _ => h₃.entries k (by simp)
  have hframe : Framed (Frame R R M)
      (forwardLeftover env (releaseWithin env depth) id inv leftover) :=
    framed_forwardLeftover (nextInside_releaseWithin depth)
  have h₄ : Change R M u₃ t := (hframe.respects u₃ v t hforward hclosed₃).2
  exact (h₂.trans (h₃.mono (by simp))).trans (h₄.mono hsub)

/-- The passes of a release for the invoice itself change no forward of another invoice. -/
theorem payPasses_closed {e : Entry} {platformFee : ℤ} {plan : Plan} {failed : Bool} (hacyclic : id ∉ forwardReach s id)
    (hrun : payPasses env id inv e platformFee plan s = .ok (failed, t)) :
    Closed (forwardReach s id) (forwardReach s id) t := by
  have hchange : Change {id} anyMemo s t := change_of_framed framed_payPasses hrun
  refine closed_of_entries (closed_forwardReach s id) fun k hk => hchange.entries k ?_
  rintro rfl
  exact hacyclic hk

/-- After the passes for the invoice itself a full release moves nothing for it but the insurance and
the remainder, as long as no chain of forwards leads back to it. -/
theorem lastPasses_grows {M : Memo → Prop} [Covers (others id) M] {depth : ℕ} {e : Entry} {platformFee leftover fee : ℤ}
    {plan : Plan} {failed : Bool} {w u₂ u₃ u₄ : Store} {v : Unit} (hinsured : M ⟨id, .insurance⟩)
    (hforwarded : M ⟨id, .forward⟩) (hacyclic : id ∉ forwardReach s id) (hinto : ForwardsInto (forwardReach s id) inv)
    (hpasses : payPasses env id inv e platformFee plan s = .ok (failed, w))
    (hgroup : releaseGroup env id w = .ok ((), u₂)) (hinsurance : returnInsurance env id inv u₂ = .ok ((), u₃))
    (hforward : forwardLeftover env (releaseWithin env depth) id inv leftover u₃ = .ok ((), u₄))
    (hfinish : finishRelease env id inv failed fee u₄ = .ok (v, t)) : Grows M w t := by
  have hchange : Change (others id) M w u₄ := lastPasses_change hinsured hforwarded hacyclic
    (payPasses_closed hacyclic hpasses) hinto hgroup hinsurance hforward
  unfold Grows
  rw [(finishRelease_ok hfinish).1]
  exact hchange.log

/-- The passes after the payouts leave the entries of the invoice alone and neither pay out nor
refund anything for it, as long as no chain of forwards leads back to it. -/
theorem afterPayouts_change {R : Set ℕ} {M : Memo → Prop} [hothers : Covers (others id) M] {depth : ℕ}
    {leftover : ℤ} {u₁ u₂ u₃ : Store} {v : Unit} (hM : ∀ p, p ≠ .payout → p ≠ .refund → M ⟨id, p⟩) (hid : id ∉ R)
    (hclosed : Closed R R s) (hinto : ForwardsInto R inv)
    (hbonus : payBonus env id inv s = .ok ((), u₁)) (hgroup : releaseGroup env id u₁ = .ok ((), u₂))
    (hinsurance : returnInsurance env id inv u₂ = .ok ((), u₃))
    (hforward : forwardLeftover env (releaseWithin env depth) id inv leftover u₃ = .ok (v, t)) :
    Change (others id) M s t := by
  have hlogs : Logs ∅ M ⟨id, .bonus⟩ := ⟨hM _ (by simp) (by simp)⟩
  have h₁ : Change ∅ M s u₁ := change_of_framed inferInstance hbonus
  have hclosed₁ : Closed R R u₁ := closed_of_entries hclosed fun k _ => h₁.entries k (by simp)
  exact (h₁.mono (by simp)).trans (lastPasses_change (hM _ (by simp) (by simp)) (hM _ (by simp) (by simp)) hid
    hclosed₁ hinto hgroup hinsurance hforward)

/-- The passes of a full release of an invoice to which no chain of forwards leads back. -/
theorem releaseFull_parts {depth : ℕ} {actor : Address} {v : Unit} (hacyclic : id ∉ forwardReach s id)
    (hinto : ForwardsInto (forwardReach s id) inv)
    (hrun : releaseFull env (releaseWithin env depth) id inv actor s = .ok (v, t)) :
    ∃ platformFee plan failed u₁ u₂ u₃ u₄, totalPlatformFee env inv actor = .ok platformFee ∧
      planPayouts env inv (s.entries id).paidRecipients (s.entries id).recipientLock platformFee =
        .ok plan ∧
      parkShares id plan s = .ok ((), u₁) ∧ payProtocolFee env id inv u₁ = .ok ((), u₂) ∧
      payPlan env id inv (s.entries id) platformFee plan u₂ = .ok (failed, u₃) ∧
      (∀ M : Memo → Prop, Covers (others id) M → (∀ p, p ≠ .payout → p ≠ .refund → M ⟨id, p⟩) →
        Change (others id) M u₃ u₄) ∧
      finishRelease env id inv failed plan.totalFee u₄ = .ok (v, t) := by
  obtain ⟨platformFee, plan, failed, w₁, w₂, w₃, u₄, hfee, hplan, hpasses, hgroup, hinsurance, hforward,
    hfinish⟩ := releaseFull_passes hrun
  obtain ⟨u₁, u₂, u₃, hpark, hprotocol, hpay, hbonus⟩ := payPasses_ok.1 hpasses
  -- the first passes write no entry of another invoice
  have hothers : ∀ k ∈ others id, u₃.entries k = s.entries k := by
    have h₁ : Change {id} anyMemo s u₁ := change_of_framed inferInstance hpark
    have h₂ : Change {id} anyMemo u₁ u₂ := change_of_framed inferInstance hprotocol
    have h₃ : Change {id} anyMemo u₂ u₃ := change_of_framed inferInstance hpay
    exact fun k hk => ((h₁.trans h₂).trans h₃).entries k (by simpa using hk)
  have hclosed : Closed (forwardReach s id) (forwardReach s id) u₃ := by
    refine closed_of_entries (closed_forwardReach s id) fun k hk => hothers k ?_
    rintro rfl
    exact hacyclic hk
  exact ⟨platformFee, plan, failed, u₁, u₂, u₃, u₄, hfee, hplan, hpark, hprotocol, hpay,
    fun M _ hM => afterPayouts_change hM hacyclic hclosed hinto hbonus hgroup hinsurance hforward, hfinish⟩

theorem releaseFull_ok {depth : ℕ} {actor : Address} {v : Unit} (hfees : FeesValid env)
    (hwf : WellFormed (s.entries id) inv) (htranches : inv.tranches = [])
    (hroute : ∀ i, RouteSafe inv i) (hacyclic : id ∉ forwardReach s id)
    (hinto : ForwardsInto (forwardReach s id) inv)
    (hrun : releaseFull env (releaseWithin env depth) id inv actor s = .ok (v, t)) :
    FullyReleased id inv s t := by
  obtain ⟨platformFee, plan, failed, u₁, u₂, u₃, u₄, hfee, hplan, hpark, hprotocol, hpay, hafter,
    hfinish⟩ := releaseFull_parts hacyclic hinto hrun
  have hparked : SameTerms id s u₁ := framed_parkShares.respects _ _ _ hpark
  have hlogs : Logs ∅ (notPayout id) ⟨id, .protocolFee⟩ := logs_notPayout (by simp)
  have hprotocolled : Change ∅ (notPayout id) u₁ u₂ := change_of_framed inferInstance hprotocol
  have hpriced : Priced inv platformFee plan := hwf.priced hfees hfee hplan
  have hafter : Change (others id) (notPayout id) u₃ u₄ :=
    hafter (notPayout id) inferInstance fun _ hpayout _ => by simpa [notPayout] using hpayout
  have hsame : u₄.entries id = u₃.entries id := hafter.entries id (by simp)
  obtain ⟨hlog, hentries⟩ := finishRelease_ok hfinish
  have hterms : SameTerms id s u₄ := by
    have h := (payPlan_paidOut (r := 0) hpriced hroute hpay).1
    exact ((hparked.trans (.of_entries (hprotocolled.entries id (by simp)))).trans h).trans
      (.of_entries hsame)
  refine ⟨?_, ?_, ?_, ?_⟩
  · intro r
    have hshare : recipientShare (s.entries id) inv r =
        sumAt inv.recipients r fun i => max (plan.payouts.getD i 0) 0 := by
      unfold recipientShare
      rw [if_pos htranches, planPayouts_share hplan]
    have hpaid := (payPlan_paidOut (r := r) hpriced hroute hpay).2
    calc paidOut id (fundingTokenFor inv) r t
        = paidOut id (fundingTokenFor inv) r u₃ := by rw [paidOut_log hlog, paidOut_change hafter]
      _ ≤ paidOut id (fundingTokenFor inv) r u₂ + recipientShare (s.entries id) inv r := by
          rw [hshare]
          exact hpaid
      _ = paidOut id (fundingTokenFor inv) r s + recipientShare (s.entries id) inv r := by
          rw [paidOut_change hprotocolled, paidOut_log (log_modifyEntry hpark)]
  · rw [hentries, Store.setEntry_self]
    exact hterms.paidRecipients
  · rw [hentries, Store.setEntry_self]
    exact hterms.recipientLock
  · rw [hentries, Store.setEntry_self]
    refine ⟨_, rfl, htranches, ?_⟩
    change releaseStatus (u₄.entries id) inv failed = .released ∨ (u₄.entries id).failedPayouts ≠ []
    by_cases hfailed : (u₄.entries id).failedPayouts = []
    · left
      unfold releaseStatus
      rw [if_pos hfailed]
    · exact .inr hfailed

end StellarSplit.Split
