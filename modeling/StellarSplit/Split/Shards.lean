import StellarSplit.Split.Access
import StellarSplit.Split.Channels

/-!
# The shards against the funding

What the shards of a pending invoice hold is what the invoice is funded with,
along every run of payments, forwards and compressions that records what it
funds. Contributions and revealed payments fund an invoice without a payment
in a shard, and a withdrawal takes funding away without one.
-/

namespace StellarSplit.Split

open Exec Function Machine

variable {env : Env} {s t u w : Store} {v : Unit} {id j : ℕ} {inv : Invoice} {payer : Address} {x : ℤ}

/-! ## The till of an invoice -/

/-- What the books of an invoice say: the payouts that failed, what the shards hold, and the
status and funding of the record. -/
structure Till where
  failed : List Address
  banked : ℤ
  account : Option (InvoiceStatus × ℤ)
  deriving DecidableEq

def banked (payments : List Payment) : ℤ := (payments.map Payment.amount).sum

def Entry.till (e : Entry) : Till where
  failed := e.failedPayouts
  banked := banked e.payments
  account := e.invoice.map fun inv => (inv.status, inv.funded)

/-- The shards of a pending invoice of which nothing was paid out hold its funding. -/
def Till.Matched (till : Till) : Prop :=
  ∀ funded, till.account = some (.pending, funded) → till.failed = [] → till.banked = funded

def Matched (j : ℕ) (s : Store) : Prop := (s.entries j).till.Matched

/-- A call that leaves invoice `j` matched if it was. -/
def StaysMatched (j : ℕ) (s t : Store) : Prop := Matched j s → Matched j t

instance staysMatched_refl : Std.Refl (StaysMatched j) := ⟨fun _ h => h⟩

instance staysMatched_trans : IsTrans Store (StaysMatched j) := ⟨fun _ _ _ h₁ h₂ h => h₂ (h₁ h)⟩

theorem Matched.of_till (h : Matched j s) (hsame : (t.entries j).till = (s.entries j).till) :
    Matched j t := by
  unfold Matched at h ⊢
  rw [hsame]
  exact h

theorem staysMatched_of_keeps (h : Keeps Entry.till s t) : StaysMatched j s t :=
  fun hmatched => hmatched.of_till (h j)

instance payNotes_till : PayNotes (Keeps Entry.till) id := by
  refine ⟨fun s e hcore hfailed => keeps_setEntry ?_⟩
  have hshards : e.core.shards = (s.entries id).core.shards := by rw [hcore]
  have hinvoice : e.core.invoice = (s.entries id).core.invoice := by rw [hcore]
  change e.shards = (s.entries id).shards at hshards
  change e.invoice = (s.entries id).invoice at hinvoice
  unfold Entry.till Entry.payments
  rw [hshards, hinvoice, hfailed]

/-- The shards of invoice `id` hold `x` more; nothing else is different in any till. -/
structure Banked (id : ℕ) (x : ℤ) (s t : Store) : Prop where
  own : (t.entries id).till = { (s.entries id).till with banked := (s.entries id).till.banked + x }
  others : ∀ j, j ≠ id → (t.entries j).till = (s.entries j).till

theorem Banked.after (h : Keeps Entry.till s t) (hbanked : Banked id x t u) : Banked id x s u := by
  refine ⟨?_, fun j hj => ?_⟩
  · rw [hbanked.own, h id]
  · rw [hbanked.others j hj, h j]

theorem Banked.before (hbanked : Banked id x s t) (h : Keeps Entry.till t u) : Banked id x s u := by
  refine ⟨?_, fun j hj => ?_⟩
  · rw [h id, hbanked.own]
  · rw [h j, hbanked.others j hj]

theorem pushPayment_banked {p : Payment} (hrun : pushPayment id p s = .ok (v, t)) :
    Banked id p.amount s t := by
  obtain rfl := modifyEntry_ok.1 hrun
  refine ⟨?_, fun j hj => ?_⟩
  · have hperm := perm_flatMap_update (s.entries id).shards p (computeShardId_lt p.payer)
    have hsum : banked ((List.range shardCount).flatMap (update (s.entries id).shards
        (computeShardId p.payer) ((s.entries id).shards (computeShardId p.payer) ++ [p]))) =
          banked (s.entries id).payments + p.amount := by
      unfold banked
      rw [(hperm.map Payment.amount).sum_eq]
      simp [Entry.payments]
    rw [Store.setEntry_self]
    exact congrArg (fun b => (⟨_, b, _⟩ : Till)) hsum
  · rw [Store.setEntry_ne s hj]

theorem creditShard_banked (hrun : creditShard id payer x s = .ok (v, t)) : Banked id x s t := by
  obtain ⟨_, u, hpush, hcumulative⟩ := bind_ok.1 hrun
  have hkeeps : Keeps Entry.till u t := Framed.holds u _ t hcumulative
  exact (pushPayment_banked hpush).before hkeeps

/-! ## Saving and releasing what was banked -/

/-- The record to be saved has `x` more than the stored one, and is pending only if that is. -/
def Carries (id : ℕ) (x : ℤ) (s : Store) (inv : Invoice) : Prop :=
  ∃ status, (s.entries id).till.account = some (status, inv.funded - x) ∧
    (inv.status = .pending → status = .pending)

theorem Carries.of_load (hload : (s.entries id).load = some inv) : Carries id 0 s inv := by
  obtain ⟨before, hbefore, rfl⟩ := Option.map_eq_some_iff.1 hload
  refine ⟨before.status, ?_, fun h => h⟩
  change (s.entries id).invoice.map _ = _
  rw [hbefore, sub_zero]
  rfl

theorem Carries.add (h : Carries id 0 s inv) (x : ℤ) :
    Carries id x s (inv.withFunded (inv.funded + x)) := by
  obtain ⟨status, haccount, hstatus⟩ := h
  refine ⟨status, ?_, hstatus⟩
  rw [haccount, sub_zero]
  exact congrArg (fun y => some (status, y)) (add_sub_cancel_right inv.funded x).symm

theorem Carries.congr (h : Carries id x s inv) (hkeeps : Keeps Entry.till s t) : Carries id x t inv := by
  unfold Carries
  rw [hkeeps id]
  exact h

theorem saveInvoice_matched (hbanked : Banked id x s u) (hcarries : Carries id x s inv)
    (hrun : saveInvoice env id inv u = .ok (v, t)) : StaysMatched j s t := by
  intro hmatched
  obtain ⟨-, rfl⟩ := saveInvoice_ok.1 hrun
  by_cases hj : j = id
  · subst hj
    obtain ⟨status, hold, hstatus⟩ := hcarries
    intro funded haccount hfailed
    rw [Store.setEntry_self] at haccount hfailed ⊢
    have hpair : (inv.status, inv.funded) = (.pending, funded) := Option.some.inj haccount
    obtain ⟨hpending, rfl⟩ := Prod.mk.inj hpair
    have hown : (u.entries j).till.failed = (s.entries j).till.failed ∧
        (u.entries j).till.banked = (s.entries j).till.banked + x := by
      rw [hbanked.own]
      exact ⟨rfl, rfl⟩
    rw [hstatus hpending] at hold
    change (u.entries j).till.banked = inv.funded
    rw [hown.2, hmatched _ hold (hown.1.symm.trans hfailed), sub_add_cancel]
  · refine hmatched.of_till ?_
    rw [Store.setEntry_ne u hj, hbanked.others j hj]

/-- The entries of one invoice are left alone. -/
def Aside (j : ℕ) (s t : Store) : Prop := t.entries j = s.entries j

instance aside_refl : Std.Refl (Aside j) := ⟨fun _ => rfl⟩

instance aside_trans : IsTrans Store (Aside j) := ⟨fun _ _ _ h₁ h₂ => Eq.trans h₂ h₁⟩

instance moves_aside {memo : Memo} : Moves (Aside j) memo := ⟨fun _ _ _ => rfl⟩

instance counts_aside : Counts (Aside j) := ⟨fun _ _ _ => rfl⟩

instance countsVolume_aside : CountsVolume (Aside j) := ⟨fun _ _ => rfl⟩

section Elsewhere

variable [hne : Fact (j ≠ id)]

instance notes_aside : Notes (Aside j) id := ⟨fun s _ _ => Store.setEntry_ne s hne.out _⟩

instance saves_aside : Saves (Aside j) id inv := ⟨fun _ _ s => Store.setEntry_ne s hne.out _⟩

end Elsewhere

theorem Aside.staysMatched (h : Aside j s t) : StaysMatched j s t :=
  fun hmatched => hmatched.of_till (by rw [h])

/-- A member that is released is pending no more. -/
theorem releaseMember_matched {m : ℕ} (hrun : releaseMember env m s = .ok (v, t)) :
    StaysMatched j s t := by
  by_cases hj : j = m
  · subst hj
    intro hmatched
    obtain ⟨member, _, hread, hrun⟩ := bind_ok.1 hrun
    obtain ⟨-, rfl⟩ := loadInvoice_ok.1 hread
    rcases onlyIf_ok.1 hrun with ⟨-, hrun⟩ | ⟨-, rfl⟩
    · obtain ⟨token, -, hrun⟩ := orPanic_bind.1 hrun
      obtain ⟨sums, u₁, -, hrun⟩ := bind_ok.1 hrun
      obtain ⟨_, u₂, -, hrun⟩ := bind_ok.1 hrun
      obtain ⟨_, u₃, -, hsave⟩ := bind_ok.1 hrun
      intro funded haccount _
      have hstored := saveInvoice_stored hsave
      change (t.entries j).invoice.map _ = _ at haccount
      rw [hstored] at haccount
      cases haccount
    · exact hmatched
  · have hne : Fact (j ≠ m) := ⟨hj⟩
    have haside : Framed (Aside j) (releaseMember env m) := by
      unfold releaseMember
      infer_instance
    exact Aside.staysMatched (haside.respects s v t hrun)

theorem releaseGroup_matched (hrun : releaseGroup env id s = .ok (v, t)) : StaysMatched j s t := by
  have hmembers : Respects (StaysMatched j)
      (forM ((groupMembers s id).filter (· ≠ id)) (releaseMember env)) :=
    .forM fun m _ s v t hrun => releaseMember_matched hrun
  exact hmembers s v t (releaseGroup_ok hrun)

/-- After a full release the invoice is pending no more, or one of its payouts has failed. -/
theorem finishRelease_matched {failed : Bool} {fee : ℤ}
    (hrun : finishRelease env id inv failed fee s = .ok (v, t)) : Matched id t := by
  obtain ⟨-, hentries⟩ := finishRelease_ok hrun
  intro funded haccount hfailed
  rw [hentries, Store.setEntry_self] at haccount hfailed
  have hlist : (s.entries id).failedPayouts = [] := hfailed
  have hpair := Option.some.inj haccount
  have hstatus : releaseStatus (s.entries id) inv failed = .pending := (Prod.mk.inj hpair).1
  unfold releaseStatus at hstatus
  rw [if_pos hlist] at hstatus
  cases hstatus

/-- What a nested release does to the tills. -/
def NextMatched (next : ℕ → Invoice → Address → SplitM Unit) : Prop :=
  ∀ {id inv actor s t} {v : Unit}, inv.tranches = [] → next id inv actor s = .ok (v, t) →
    ∀ j, (j ≠ id → Matched j s) → Matched j t

theorem isGuarded_congr {e e' : Entry} (h : e'.guards = e.guards) (inv : Invoice) :
    isGuarded e' inv = isGuarded e inv := by
  obtain ⟨hgroup, hrest⟩ := Prod.mk.inj h
  obtain ⟨hcosigners, -⟩ := Prod.mk.inj hrest
  unfold isGuarded
  rw [hgroup, hcosigners]

instance untouched_guards : Untouched Entry.guards := ⟨fun _ => rfl, fun _ _ => rfl, fun _ _ => rfl⟩

theorem forwardToInvoice_matched {next : ℕ → Invoice → Address → SplitM Unit} (hnext : NextMatched next)
    {leftover : ℤ} (hrun : forwardToInvoice env next id leftover s = .ok (v, t)) :
    StaysMatched j s t := by
  obtain ⟨target, u₁, u₂, hload, hpush, hcumulative, hrun⟩ := forwardToInvoice_ok hrun
  have hkeeps : Keeps Entry.till u₁ u₂ := Framed.holds u₁ _ u₂ hcumulative
  have hbanked : Banked id leftover s u₂ := (pushPayment_banked hpush).before hkeeps
  rcases hrun with ⟨-, hunguarded, hrun⟩ | ⟨-, hrun⟩
  · intro hmatched
    have htranches : (target.withFunded (target.funded + leftover)).tranches = [] :=
      isGuarded_tranches hunguarded
    refine hnext htranches hrun j fun hj => ?_
    exact hmatched.of_till (hbanked.others j hj)
  · exact saveInvoice_matched hbanked ((Carries.of_load hload).add leftover) hrun

theorem forwardLeftover_matched {next : ℕ → Invoice → Address → SplitM Unit} (hnext : NextMatched next)
    {leftover : ℤ} (hrun : forwardLeftover env next id inv leftover s = .ok (v, t)) :
    StaysMatched j s t := by
  rcases forwardLeftover_cases hrun with rfl | ⟨addr, -, htransfer⟩ | ⟨-, -, targetId, -, hforward⟩
  · exact fun h => h
  · exact Aside.staysMatched (framed_transfer.respects s _ t htransfer)
  · exact forwardToInvoice_matched hnext hforward

theorem releaseFull_matched {next : ℕ → Invoice → Address → SplitM Unit} (hnext : NextMatched next)
    {actor : Address} (hrun : releaseFull env next id inv actor s = .ok (v, t))
    (hothers : j ≠ id → Matched j s) : Matched j t := by
  obtain ⟨platformFee, plan, failed, u₁, u₂, u₃, u₄, -, -, hpaid, hgroup, hinsurance, hforward, hfinish⟩ :=
    releaseFull_passes hrun
  by_cases hj : j = id
  · subst hj
    exact finishRelease_matched hfinish
  · have hne : Fact (j ≠ id) := ⟨hj⟩
    have h₁ : Aside j s u₁ := Framed.holds s _ u₁ hpaid
    have h₂ : StaysMatched j u₁ u₂ := releaseGroup_matched hgroup
    have h₃ : Aside j u₂ u₃ := Framed.holds u₂ _ u₃ hinsurance
    have h₄ : StaysMatched j u₃ u₄ := forwardLeftover_matched hnext hforward
    have h₅ : Aside j u₄ t := Framed.holds u₄ _ t hfinish
    have hmembers : Matched j u₂ := h₂ (h₁.staysMatched (hothers hj))
    exact h₅.staysMatched (h₄ (h₃.staysMatched hmembers))

theorem nextMatched_releaseWithin (depth : ℕ) : NextMatched (releaseWithin env depth) := by
  induction depth with
  | zero =>
      intro id inv actor s t v _ hrun
      exact (throw_ok.1 hrun).elim
  | succ depth ih =>
      intro id inv actor s t v htranches hrun j hothers
      exact releaseFull_matched ih (releaseWithin_full htranches hrun) hothers

theorem releaseAs_matched {actor : Address} (htranches : inv.tranches = [])
    (hrun : releaseAs env id inv actor s = .ok (v, t)) (hothers : j ≠ id → Matched j s) :
    Matched j t := nextMatched_releaseWithin env.depth htranches hrun j hothers

/-! ## The calls -/

theorem settleCredit_matched {heldBack : Invoice → Bool} {actor : Address} (hbanked : Banked id x s u)
    (hcarries : Carries id x s inv) (hrun : settleCredit env id inv heldBack actor u = .ok (v, t)) :
    StaysMatched j s t := by
  obtain ⟨hfull, hrun⟩ | ⟨-, hrun⟩ := settleCredit_cases hrun
  · intro hmatched
    exact releaseAs_matched (isGuarded_tranches hfull.2.1) hrun fun hj =>
      hmatched.of_till (hbanked.others j hj)
  · exact saveInvoice_matched hbanked hcarries hrun

theorem settleCredit_elsewhere {heldBack : Invoice → Bool} {actor : Address} (hj : j ≠ id)
    (hrun : settleCredit env id inv heldBack actor s = .ok (v, t)) : StaysMatched j s t := by
  obtain ⟨hfull, hrun⟩ | ⟨-, hrun⟩ := settleCredit_cases hrun
  · exact fun hmatched => releaseAs_matched (isGuarded_tranches hfull.2.1) hrun fun _ => hmatched
  · have hne : Fact (j ≠ id) := ⟨hj⟩
    exact Aside.staysMatched (framed_saveInvoice.respects s _ t hrun)

/-! ### Direct payments -/

theorem Still.keepsTill (hstill : Still id s t) (hshards : SameShards id s t) :
    Keeps Entry.till s t := by
  intro k
  by_cases hk : k = id
  · subst hk
    have hfailed := congrArg Entry.failedPayouts hstill.bare
    change (t.entries k).failedPayouts = (s.entries k).failedPayouts at hfailed
    have haccount := congrArg (Option.map fun q : Purse => (q.status, q.funded)) hstill.purse
    rw [Option.map_map, Option.map_map] at haccount
    change (t.entries k).invoice.map (fun inv => (inv.status, inv.funded)) =
      (s.entries k).invoice.map fun inv => (inv.status, inv.funded) at haccount
    unfold Entry.till
    rw [hfailed, haccount, hshards.payments]
  · rw [hstill.others k hk]

/-- The milestones leave the funding as it is and may close the invoice. -/
theorem maybeReleaseMilestones_paid {paid : Invoice}
    (hrun : maybeReleaseMilestones env id inv s = .ok (paid, t)) :
    paid.funded = inv.funded ∧ (paid.status = .pending → inv.status = .pending) := by
  obtain ⟨-, rfl, -⟩ | ⟨-, -, -, token, released, -, -, rfl⟩ := maybeReleaseMilestones_cases hrun
  · exact ⟨rfl, fun h => h⟩
  · split_ifs
    · exact ⟨rfl, fun h => by cases h⟩
    · exact ⟨rfl, fun h => h⟩

theorem Carries.startHold (h : Carries id x s inv) (env : Env) : Carries id x s (startHold env inv) := by
  obtain ⟨status, haccount, hstatus⟩ := h
  have hpurse := (startHold_purse env inv).1
  have hfunded' : (Split.startHold env inv).funded = inv.funded := congrArg Purse.funded hpurse
  have hstatus' : (Split.startHold env inv).status = inv.status := congrArg Purse.status hpurse
  refine ⟨status, ?_, ?_⟩
  · rw [hfunded', haccount]
  · rw [hstatus']
    exact hstatus

theorem settlePayment_matched {target : ℤ} {actor : Address} (hbanked : Banked id x s u)
    (hcarries : Carries id x s inv) (hrun : settlePayment env id inv target actor u = .ok (v, t)) :
    StaysMatched j s t := by
  obtain ⟨-, w, hrecord, hend⟩ | ⟨-, hrun⟩ := settlePayment_cases hrun
  · have hkeeps : Keeps Entry.till u w := Framed.holds u _ w hrecord
    have hbanked' := hbanked.before hkeeps
    rcases hend with ⟨-, hrun⟩ | ⟨hunguarded, hrun⟩
    · exact saveInvoice_matched hbanked' (hcarries.startHold env) hrun
    · intro hmatched
      have htranches : (startHold env inv).tranches = [] :=
        isGuarded_tranches (isGuarded_of_payGuarded hunguarded)
      exact releaseAs_matched htranches hrun fun hj => hmatched.of_till (hbanked'.others j hj)
  · exact saveInvoice_matched hbanked hcarries hrun

theorem creditPayment_matched {amount target : ℤ} {donate : Bool}
    (hcarries : Carries id 0 s inv)
    (hrun : creditPayment env payer id inv amount target donate s = .ok (v, t)) : StaysMatched j s t := by
  obtain ⟨credited, premium, credit, paid, u₃, u₄, u₅, u₆, u₇, u₈, -, -, htake, -, hrecord, hcount, hnotify,
    hmilestones, hreceipt, hsettle⟩ := creditPayment_passes hrun
  have h₃ : Keeps Entry.till s u₃ := framed_takePayment.respects s _ u₃ htake
  have h₅ : Keeps Entry.till u₄ u₅ := framed_countPayment.respects u₄ _ u₅ hcount
  have h₆ : Keeps Entry.till u₅ u₆ := framed_notifyInvoice.respects u₅ _ u₆ hnotify
  have h₇ : Keeps Entry.till u₆ u₇ := framed_maybeReleaseMilestones.respects u₆ _ u₇ hmilestones
  have h₈ : Keeps Entry.till u₇ u₈ := framed_invokeIfSet.respects u₇ _ u₈ hreceipt
  have hbanked : Banked id credited u₃ u₄ := by
    obtain ⟨_, w₁, hpush, hrest⟩ := bind_ok.1 hrecord
    obtain ⟨_, w₂, hcumulative, hcontribution⟩ := bind_ok.1 hrest
    have hkeeps₁ : Keeps Entry.till w₁ w₂ := framed_addCumulative.respects w₁ _ w₂ hcumulative
    have hkeeps₂ : Keeps Entry.till w₂ u₄ := framed_addContribution.respects w₂ _ u₄ hcontribution
    exact ((pushPayment_banked hpush).before hkeeps₁).before hkeeps₂
  have hall : Banked id credited s u₈ := by
    exact ((((hbanked.after h₃).before h₅).before h₆).before h₇).before h₈
  obtain ⟨hfunded, hstatus⟩ := maybeReleaseMilestones_paid hmilestones
  obtain ⟨status, haccount, hstatus₀⟩ := hcarries.add credited
  refine settlePayment_matched hall ⟨status, ?_, fun hpending => hstatus₀ (hstatus hpending)⟩ hsettle
  rw [hfunded]
  exact haccount

theorem pay_matched {amount : ℤ} {nonce : ℕ} {donate : Bool}
    (hrun : pay env payer id amount nonce donate s = .ok (v, t)) : StaysMatched j s t := by
  obtain ⟨inv, target, credits, u₁, u₂, u₃, -, hcheck, -, hkyc, haccumulate, hcredits⟩ := pay_passes hrun
  obtain ⟨stored, hload, -, hinv, hstill⟩ := checkPayment_still hcheck
  have hshards : SameShards id s u₁ := framed_checkPayment.respects s _ u₁ hcheck
  have h₁ : Keeps Entry.till s u₁ := hstill.keepsTill hshards
  have h₂ : Keeps Entry.till u₁ u₂ := framed_checkKyc.respects u₁ _ u₂ hkyc
  have h₃ : Keeps Entry.till u₂ u₃ := framed_accumulate.respects u₂ _ u₃ haccumulate
  have h₀ : Keeps Entry.till s u₃ := trans_of (Keeps Entry.till) h₁ (trans_of _ h₂ h₃)
  rcases hcredits with ⟨-, u₄, hlimits, hcredit⟩ | ⟨-, rfl⟩
  · have h₄ : Keeps Entry.till u₃ u₄ := framed_checkLimits.respects u₃ _ u₄ hlimits
    have hkeeps : Keeps Entry.till s u₄ := trans_of (Keeps Entry.till) h₀ h₄
    have hcarries : Carries id 0 s inv := by
      rcases hinv with rfl | rfl
      · exact .of_load hload
      · obtain ⟨status, haccount, hstatus⟩ := Carries.of_load hload
        exact ⟨status, haccount, hstatus⟩
    intro hmatched
    exact creditPayment_matched (hcarries.congr hkeeps) hcredit (hmatched.of_till (hkeeps j))
  · exact staysMatched_of_keeps h₀

/-! ### The other payments -/

theorem creditConverted_matched {heldBack : Invoice → Bool} (hcarries : Carries id 0 s inv)
    (hrun : creditConverted env id inv payer x heldBack s = .ok (v, t)) : StaysMatched j s t := by
  obtain ⟨-, u, w, hshard, hnotify, hsettle⟩ := creditConverted_passes hrun
  have hkeeps : Keeps Entry.till u w := framed_notifyInvoice.respects u _ w hnotify
  exact settleCredit_matched ((creditShard_banked hshard).before hkeeps) (hcarries.add x) hsettle

theorem swapIn_till {token invoiceToken : Address} {amount : ℤ}
    (hrun : swapIn env id payer token invoiceToken amount s = .ok (x, t)) : Keeps Entry.till s t := by
  have hswap : Framed (Keeps Entry.till) (swapIn env id payer token invoiceToken amount) := by
    unfold swapIn
    infer_instance
  exact hswap.respects s x t hrun

theorem takeToken_till {token : Address} {amount : ℤ}
    (hrun : takeToken env id inv payer token amount s = .ok (x, t)) : Keeps Entry.till s t := by
  unfold takeToken at hrun
  split_ifs at hrun with hsame
  · obtain ⟨_, u, hcollect, hrun⟩ := bind_ok.1 hrun
    obtain ⟨-, rfl⟩ := pure_ok.1 hrun
    exact framed_collect.respects s _ u hcollect
  · exact swapIn_till hrun

theorem payWithToken_matched {token : Address} {amount : ℤ} {nonce : ℕ}
    (hrun : payWithToken env payer id token amount nonce s = .ok (v, t)) : StaysMatched j s t := by
  obtain ⟨inv, credited, u₁, u₂, hload, -, -, hnonce, htake, hcredit⟩ := payWithToken_passes hrun
  have h₁ : Keeps Entry.till s u₁ := framed_incrementNonce.respects s _ u₁ hnonce
  have h₂ : Keeps Entry.till s u₂ := trans_of (Keeps Entry.till) h₁ (takeToken_till htake)
  intro hmatched
  exact creditConverted_matched ((Carries.of_load hload).congr h₂) hcredit (hmatched.of_till (h₂ j))

theorem bridgePay_matched {token : Address} {amount : ℤ}
    (hrun : bridgePay env payer id token amount s = .ok (v, t)) : StaysMatched j s t := by
  obtain ⟨inv, converted, u, hload, -, hswap, hcredit⟩ := bridgePay_passes hrun
  have hkeeps := swapIn_till hswap
  intro hmatched
  exact creditConverted_matched ((Carries.of_load hload).congr hkeeps) hcredit
    (hmatched.of_till (hkeeps j))

theorem creditDelegated_banked {source : Address}
    (hrun : creditDelegated env id inv source payer x s = .ok (v, t)) : Banked id x s t := by
  obtain ⟨_, u, hcollect, hrun⟩ := bind_ok.1 hrun
  rw [require_bind] at hrun
  have hkeeps : Keeps Entry.till s u := framed_collect.respects s _ u hcollect
  exact (creditShard_banked hrun.2).after hkeeps

theorem delegatePay_matched {delegate beneficiary : Address} {amount : ℤ}
    (hrun : delegatePay env delegate beneficiary id amount s = .ok (v, t)) : StaysMatched j s t := by
  obtain ⟨inv, u, w, hload, -, -, hcredit, hnotify, hsettle⟩ := delegatePay_passes hrun
  have hkeeps : Keeps Entry.till u w := framed_notifyInvoice.respects u _ w hnotify
  exact settleCredit_matched ((creditDelegated_banked hcredit).before hkeeps)
    ((Carries.of_load hload).add amount) hsettle

theorem payInvoiceDelegated_matched {executor onBehalfOf : Address} {amount : ℤ} {nonce : ℕ}
    (hrun : payInvoiceDelegated env executor id amount nonce onBehalfOf s = .ok (v, t)) :
    StaysMatched j s t := by
  obtain ⟨inv, u₁, u₂, u₃, u₄, hload, -, -, -, -, hremove, hnonce, hcredit, hcount, hsettle⟩ :=
    payInvoiceDelegated_passes hrun
  have h₁ : Keeps Entry.till s u₁ := by
    obtain rfl := modifyEntry_ok.1 hremove
    exact keeps_setEntry rfl
  have h₂ : Keeps Entry.till u₁ u₂ := by
    simp only [consumeGlobalNonce, get_bind, require_bind, set_ok] at hnonce
    obtain ⟨-, rfl⟩ := hnonce
    exact fun _ => rfl
  have h₄ : Keeps Entry.till u₃ u₄ := framed_countPayment.respects u₃ _ u₄ hcount
  have hbanked : Banked id amount s u₄ :=
    ((creditDelegated_banked hcredit).after (trans_of (Keeps Entry.till) h₁ h₂)).before h₄
  exact settleCredit_matched hbanked ((Carries.of_load hload).add amount) hsettle

theorem creditPoolPayment_matched {p : InvoicePayment}
    (hrun : creditPoolPayment env payer p s = .ok (v, t)) : StaysMatched j s t := by
  obtain ⟨inv, u, w, hload, hpush, hcumulative, hsettle⟩ := creditPoolPayment_passes hrun
  have hkeeps : Keeps Entry.till u w := framed_addCumulative.respects u _ w hcumulative
  have hbanked : Banked p.invoiceId p.amount s w := (pushPayment_banked hpush).before hkeeps
  exact settleCredit_matched hbanked ((Carries.of_load hload).add p.amount) hsettle

theorem poolPayInner_matched {payments : List InvoicePayment}
    (hrun : poolPayInner env payer payments s = .ok (v, t)) : StaysMatched j s t := by
  obtain ⟨first, firstInv, u₁, u₂, -, -, hcheck, hcollect, hcredit⟩ := poolPayInner_passes hrun
  obtain rfl := eq_of_framed hcheck
  have hkeeps : Keeps Entry.till s u₂ := by
    unfold collectPool at hcollect
    cases payments with
    | nil =>
        obtain ⟨-, rfl⟩ := pure_ok.1 hcollect
        exact fun _ => rfl
    | cons p payments => exact framed_collect.respects s _ u₂ hcollect
  have hall : Respects (StaysMatched j) (forM payments (creditPoolPayment env payer)) :=
    .forM fun p _ s v t hrun => creditPoolPayment_matched hrun
  exact fun hmatched => hall u₂ v t hcredit (hmatched.of_till (hkeeps j))

theorem executePaymentBatch_matched {batchId : ℕ}
    (hrun : executePaymentBatch env payer batchId s = .ok (v, t)) : StaysMatched j s t := by
  obtain ⟨batch, u, -, -, -, -, -, hset, hinner⟩ := executePaymentBatch_passes hrun
  obtain rfl := modify_ok.1 hset
  exact fun hmatched => poolPayInner_matched hinner hmatched

theorem closeChannel_matched (hrun : closeChannel env payer id s = .ok (v, t)) : StaysMatched j s t := by
  obtain ⟨channel, inv, u, w, -, hload, -, -, hcredit, hreturn, hset⟩ := closeChannel_passes hrun
  have hcredited : StaysMatched j s u := by
    rcases hcredit with ⟨-, hcredit⟩ | ⟨-, rfl⟩
    · obtain ⟨-, u', hshard, hsettle⟩ := creditChannel_passes hcredit
      exact settleCredit_matched (creditShard_banked hshard) ((Carries.of_load hload).add _) hsettle
    · exact fun h => h
  have hreturned : Keeps Entry.till u w := by
    rcases returnBalance_ok hreturn with ⟨-, rfl⟩ | ⟨-, token, -, rfl⟩ <;> exact fun _ => rfl
  have hclosed : Keeps Entry.till w t := by
    obtain rfl := modifyEntry_ok.1 hset
    exact keeps_setEntry rfl
  intro hmatched
  exact ((hcredited hmatched).of_till (hreturned j)).of_till (hclosed j)

/-! ### Funding without a payment -/

/-- A contribution is recorded nowhere but in the funding: it leaves the invoice matched when it
fills it. -/
theorem contribute_matched {amount : ℤ} {r : ℤ × ℤ}
    (hfills : id = j → ∀ inv ∈ (s.entries id).invoice, 0 < appliedAmount inv amount →
      inv.total ≤ inv.funded + appliedAmount inv amount)
    (hrun : contribute env id payer amount s = .ok (r, t)) : StaysMatched j s t := by
  simp only [contribute, requireNotPaused_bind, requireAuth_bind, require_bind, loadInvoice_bind] at hrun
  obtain ⟨-, -, -, inv, hload, -, -, -, hrun⟩ := hrun
  obtain ⟨_, u, hcredit, hrun⟩ := bind_ok.1 hrun
  obtain ⟨-, rfl⟩ := pure_ok.1 hrun
  rcases onlyIf_ok.1 hcredit with ⟨happlied, hcredit⟩ | ⟨-, rfl⟩
  · obtain ⟨funded, hsum, hsave⟩ := orError_bind.1 hcredit
    obtain rfl := checkedAddI128_eq hsum
    obtain ⟨stored, hstored, rfl⟩ := Option.map_eq_some_iff.1 hload
    by_cases hj : j = id
    · subst hj
      intro _ funded haccount _
      have hfull : (stored.withPayments (s.entries j).payments).total ≤
          (stored.withPayments (s.entries j).payments).funded +
            appliedAmount (stored.withPayments (s.entries j).payments) amount :=
        hfills rfl stored hstored happlied
      have hrecord := saveInvoice_stored hsave
      change (u.entries j).invoice.map _ = _ at haccount
      rw [hrecord] at haccount
      have hstatus := (Prod.mk.inj (Option.some.inj haccount)).1
      change (if _ then _ else _) = InvoiceStatus.pending at hstatus
      rw [if_pos hfull] at hstatus
      cases hstatus
    · have hne : Fact (j ≠ id) := ⟨hj⟩
      exact Aside.staysMatched (framed_saveInvoice.respects s _ u hsave)
  · exact fun h => h

/-- A revealed payment fills the invoice and nothing holds it back. -/
def RevealFills (e : Entry) (inv : Invoice) (value : ℤ) : Prop :=
  inv.total ≤ inv.funded + value ∧ isGuarded e inv = false ∧
    conditionPending (inv.withFunded (inv.funded + value)) = false

theorem revealConfidentialPayment_matched {value : ℤ} {blinding : Hash}
    (hfills : id = j → ∀ inv ∈ (s.entries id).invoice, RevealFills (s.entries id) inv value)
    (hrun : revealConfidentialPayment env id payer value blinding s = .ok (v, t)) :
    StaysMatched j s t := by
  obtain ⟨inv, u₁, u₂, u₃, u₄, hload, -, -, hset, hcollect, hcumulative, hcontribution, hsettle⟩ :=
    revealConfidentialPayment_passes hrun
  obtain ⟨htill₁, hguards₁⟩ : Keeps Entry.till s u₁ ∧ Keeps Entry.guards s u₁ := by
    obtain rfl := modifyEntry_ok.1 hset
    exact ⟨keeps_setEntry rfl, keeps_setEntry rfl⟩
  have htill : Keeps Entry.till s u₄ := by
    have h₂ : Keeps Entry.till u₁ u₂ := framed_collect.respects u₁ _ u₂ hcollect
    have h₃ : Keeps Entry.till u₂ u₃ := framed_addCumulative.respects u₂ _ u₃ hcumulative
    have h₄ : Keeps Entry.till u₃ u₄ := framed_addContribution.respects u₃ _ u₄ hcontribution
    exact trans_of (Keeps Entry.till) htill₁ (trans_of (Keeps Entry.till) h₂ (trans_of _ h₃ h₄))
  have hguards : Keeps Entry.guards s u₄ := by
    have h₂ : Keeps Entry.guards u₁ u₂ := framed_collect.respects u₁ _ u₂ hcollect
    have h₃ : Keeps Entry.guards u₂ u₃ := framed_addCumulative.respects u₂ _ u₃ hcumulative
    have h₄ : Keeps Entry.guards u₃ u₄ := framed_addContribution.respects u₃ _ u₄ hcontribution
    exact trans_of (Keeps Entry.guards) hguards₁ (trans_of (Keeps Entry.guards) h₂ (trans_of _ h₃ h₄))
  by_cases hj : j = id
  · subst hj
    intro _
    obtain ⟨before, hbefore, rfl⟩ := Option.map_eq_some_iff.1 hload
    obtain ⟨hfull, hguarded, hpending⟩ := hfills rfl before hbefore
    rw [← isGuarded_congr (hguards j)] at hguarded
    obtain ⟨-, hrelease⟩ | ⟨hshort, -⟩ := settleCredit_cases hsettle
    · refine releaseAs_matched ?_ hrelease fun h => absurd rfl h
      exact isGuarded_tranches hguarded
    · exact absurd ⟨hfull, hguarded, hpending⟩ hshort
  · exact fun hmatched => settleCredit_elsewhere hj hsettle (hmatched.of_till (htill j))

theorem withdrawContribution_elsewhere (hj : j ≠ id)
    (hrun : withdrawContribution env payer id s = .ok (v, t)) : StaysMatched j s t := by
  have hne : Fact (j ≠ id) := ⟨hj⟩
  have hreset : Framed (Aside j) (modifyEntry id fun e =>
      { e with contribution := update e.contribution payer 0 }) := framed_note fun _ => rfl
  have haside : Framed (Aside j) (withdrawContribution env payer id) := by
    unfold withdrawContribution
    infer_instance
  exact Aside.staysMatched (haside.respects s v t hrun)

/-! ### Compression -/

theorem banked_filter_succ (payments : List Payment) (n : ℕ) :
    banked (payments.filter fun p => computeShardId p.payer < n + 1) =
      banked (payments.filter fun p => computeShardId p.payer < n) +
        banked (payments.filter fun p => computeShardId p.payer = n) := by
  unfold banked
  induction payments with
  | nil => rfl
  | cons p payments ih =>
      rcases lt_trichotomy (computeShardId p.payer) n with hlt | heq | hgt
      · simp only [List.filter_cons, hlt, hlt.ne, Nat.lt_succ_of_lt hlt, decide_true, decide_false,
          if_true, if_false, Bool.false_eq_true, List.map_cons, List.sum_cons, ih, add_assoc]
      · simp only [List.filter_cons, heq, lt_irrefl, Nat.lt_succ_self, decide_true, decide_false, if_true,
          if_false, Bool.false_eq_true, List.map_cons, List.sum_cons, ih]
        ring
      · have hnot : ¬computeShardId p.payer < n + 1 := by omega
        simp only [List.filter_cons, hnot, hgt.ne', not_lt.2 hgt.le, decide_false, if_false,
          Bool.false_eq_true, ih]

/-- Payments put into the shards of their payers are all there. -/
theorem banked_shards (payments : List Payment) (n : ℕ) :
    banked ((List.range n).flatMap fun i => payments.filter fun p => computeShardId p.payer = i) =
      banked (payments.filter fun p => computeShardId p.payer < n) := by
  induction n with
  | zero => simp [banked]
  | succ n ih =>
      rw [List.range_succ, List.flatMap_append, List.flatMap_singleton, banked_filter_succ, ← ih]
      simp [banked]

/-- Compression checks what it writes. -/
theorem compressPayments_matched (hrun : compressPayments env id s = .ok (v, t)) :
    StaysMatched j s t := by
  simp only [compressPayments, requireNotPaused_bind, loadInvoice_bind, require_bind] at hrun
  obtain ⟨-, inv, hload, hsum, hwrite⟩ := hrun
  obtain rfl := modifyEntry_ok.1 hwrite
  by_cases hj : j = id
  · subst hj
    intro _ funded haccount _
    rw [Store.setEntry_self] at haccount ⊢
    obtain ⟨before, hbefore, rfl⟩ := Option.map_eq_some_iff.1 hload
    change (s.entries j).invoice.map _ = _ at haccount
    rw [hbefore] at haccount
    have hfunded : before.funded = funded := (Prod.mk.inj (Option.some.inj haccount)).2
    have hall : (compressedPayments (s.entries j).payments).filter
        (fun p => computeShardId p.payer < shardCount) = compressedPayments (s.entries j).payments := by
      rw [List.filter_eq_self]
      intro p _
      exact decide_eq_true (computeShardId_lt p.payer)
    have hbanked := banked_shards (compressedPayments (s.entries j).payments) shardCount
    rw [hall] at hbanked
    rw [← hfunded]
    exact hbanked.trans hsum
  · intro hmatched
    exact hmatched.of_till (by rw [Store.setEntry_ne s hj])

/-! ## Runs -/

/-- The calls that write the four ledgers of an invoice. -/
inductive ShardCall where
  | payment (call : PaymentCall)
  | withdrawContribution (payer : Address) (id : ℕ)
  | compressPayments (id : ℕ)

def shardStep (c : Env × ShardCall) : SplitM Unit :=
  match c.2 with
  | .payment call => call.run c.1
  | .withdrawContribution payer id => withdrawContribution c.1 payer id
  | .compressPayments id => compressPayments c.1 id

/-- The funding of invoice `j` changes with its shards only, or the invoice is closed. -/
def RecordsFunding (j : ℕ) (s : Store) (c : Env × ShardCall) : Prop :=
  match c.2 with
  | .payment (.contribute _ id amount) => id = j → ∀ inv ∈ (s.entries id).invoice,
      0 < appliedAmount inv amount → inv.total ≤ inv.funded + appliedAmount inv amount
  | .payment (.revealConfidentialPayment id _ value _) =>
      id = j → ∀ inv ∈ (s.entries id).invoice, RevealFills (s.entries id) inv value
  | .withdrawContribution _ id => j ≠ id
  | _ => True

theorem shardStep_matched {c : Env × ShardCall} (hrecords : RecordsFunding j s c)
    (hrun : shardStep c s = .ok (v, t)) : StaysMatched j s t := by
  obtain ⟨env, call⟩ := c
  cases call with
  | withdrawContribution payer id => exact withdrawContribution_elsewhere hrecords hrun
  | compressPayments id => exact compressPayments_matched hrun
  | payment call =>
      cases call with
      | pay payer id amount nonce donate => exact pay_matched hrun
      | payWithToken payer id token amount nonce => exact payWithToken_matched hrun
      | bridgePay payer id token amount => exact bridgePay_matched hrun
      | poolPay payer payments =>
          change poolPay env payer payments s = .ok (v, t) at hrun
          rw [poolPay_eq, requireNotPaused_bind, requireAuth_bind] at hrun
          exact poolPayInner_matched hrun.2.2
      | executePaymentBatch payer batchId => exact executePaymentBatch_matched hrun
      | closeChannel payer id => exact closeChannel_matched hrun
      | contribute payer id amount =>
          obtain ⟨r, u, hcontribute, hdone⟩ := bind_ok.1 hrun
          obtain ⟨-, rfl⟩ := pure_ok.1 hdone
          exact contribute_matched hrecords hcontribute
      | delegatePay delegate beneficiary id amount => exact delegatePay_matched hrun
      | payInvoiceDelegated executor id amount nonce onBehalfOf =>
          exact payInvoiceDelegated_matched hrun
      | revealConfidentialPayment id payer value blinding =>
          exact revealConfidentialPayment_matched hrecords hrun

/-- The shards of an invoice account for its funding along every run that records what it
funds. -/
theorem shards_account_for_funding {calls : List (Env × ShardCall)} (hstart : Matched j s)
    (hcalls : Along (RecordsFunding j) shardStep s calls) : Matched j (runAll shardStep s calls) :=
  runAll_induction (fun _ _ _ _ hmatched hrecords hrun => shardStep_matched hrecords hrun hmatched)
    hstart hcalls

/-- Payer 20 pays 30, payer 21 pays 20 by token, and the shards are compressed. -/
def shardRun : List (Env × ShardCall) :=
  [(sampleEnv 10 0, .payment (.pay 20 1 30 0 false)),
    (sampleEnv 11 0, .payment (.payWithToken 21 1 9 20 0)), (sampleEnv 12 0, .compressPayments 1)]

theorem shard_run_matched :
    ((runAll shardStep (sampleStore sampleInvoice []) shardRun).entries 1).till.account =
        some (.pending, 50) ∧
      Matched 1 (runAll shardStep (sampleStore sampleInvoice []) shardRun) := by
  refine ⟨by decide +kernel, shards_account_for_funding ?_ ?_⟩
  · intro funded haccount _
    have hzero : (0 : ℤ) = funded := (Prod.mk.inj (Option.some.inj haccount)).2
    rw [← hzero]
    rfl
  · exact ⟨fun _ => trivial, fun _ => trivial, fun _ => trivial, trivial⟩

/-- Payer 20 contributes 10: the invoice is funded with 10 and its shards are empty. -/
theorem contribution_in_no_shard :
    ((commit (shardStep (sampleEnv 10 0, .payment (.contribute 20 1 10)))
        (sampleStore sampleInvoice [])).entries 1).till = ⟨[], 0, some (.pending, 10)⟩ ∧
      ¬Matched 1 (commit (shardStep (sampleEnv 10 0, .payment (.contribute 20 1 10)))
        (sampleStore sampleInvoice [])) := by
  have htill : ((commit (shardStep (sampleEnv 10 0, .payment (.contribute 20 1 10)))
      (sampleStore sampleInvoice [])).entries 1).till = ⟨[], 0, some (.pending, 10)⟩ := by
    decide +kernel
  refine ⟨htill, fun hmatched => ?_⟩
  unfold Matched at hmatched
  rw [htill] at hmatched
  have hequal : (0 : ℤ) = 10 := hmatched 10 rfl rfl
  cases hequal

end StellarSplit.Split
