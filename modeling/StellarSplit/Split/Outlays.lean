import StellarSplit.Movements
import StellarSplit.Split.Pools

/-!
# What a release sends out

The contract holds the funding of all pending invoices of a token in one
balance. What a release draws from it is the sum of the outlays of its passes;
a release that sends out no more than the funding and the funds beside it
leaves the other invoices covered.
-/

namespace StellarSplit.Split

open Exec Function Machine

variable {env : Env} {s t u : Store} {v : Unit} {id j k : ℕ} {inv : Invoice} {payer tok : Address}
  {x y : ℤ}

/-! ## What the contract owes -/

/-- What a pending invoice has a claim on. -/
def Invoice.claim (inv : Invoice) : ℤ :=
  if inv.status = .pending then inv.funded + max inv.insuranceFund 0 + max inv.bonusPool 0 else 0

/-- What an open channel has a claim on: the part that is credited and the part that goes back. -/
def Channel.claim (channel : Channel) : ℤ :=
  max (channel.deposited - channel.balance) 0 + max channel.balance 0

/-- What the entries of an invoice say about tokens. -/
def Entry.vault (e : Entry) : Option (ℤ × Address) × (Address → Option Channel) :=
  (e.invoice.map fun inv => (inv.claim, fundingTokenFor inv), e.channel)

def Entry.owed (payers : Finset Address) (e : Entry) : ℤ :=
  ((e.vault.1.map Prod.fst).getD 0) + ∑ p ∈ payers, ((e.vault.2 p).map Channel.claim).getD 0

/-- What the movements have brought in above the claims. -/
def slack (tok : Address) (ids : Finset ℕ) (payers : Finset Address) (s : Store) : ℤ :=
  held s.log tok - ∑ k ∈ ids, (s.entries k).owed payers

/-! ## Movements -/

/-- The claims stay and at most `x` of the token goes out. -/
structure Draws (tok : Address) (x : ℤ) (s t : Store) : Prop where
  vaults : Keeps Entry.vault s t
  held : held s.log tok ≤ held t.log tok + x

theorem Draws.trans (h₁ : Draws tok x s u) (h₂ : Draws tok y u t) : Draws tok (x + y) s t :=
  ⟨trans_of (Keeps _) h₁.vaults h₂.vaults, by linarith [h₁.held, h₂.held]⟩

theorem Draws.mono (h : Draws tok x s t) (hxy : x ≤ y) : Draws tok y s t :=
  ⟨h.vaults, by linarith [h.held]⟩

theorem Draws.refl (s : Store) : Draws tok 0 s s := ⟨refl_of (Keeps _) s, by simp⟩

/-- Nothing goes out. -/
abbrev Rests (tok : Address) : Store → Store → Prop := Draws tok 0

instance rests_refl : Std.Refl (Rests tok) := ⟨.refl⟩

instance rests_trans : IsTrans Store (Rests tok) := ⟨fun _ _ _ h₁ h₂ => by simpa using h₁.trans h₂⟩

theorem rests_of_vaults (h : Keeps Entry.vault s t) (hlog : t.log = s.log) : Rests tok s t :=
  ⟨h, by rw [hlog, add_zero]⟩

theorem vault_core {e e' : Entry} (h : e'.core = e.core) : e'.vault = e.vault := by
  have hvault : e'.core.vault = e.core.vault := by rw [h]
  exact hvault

instance notes_rests : Notes (Rests tok) id :=
  ⟨fun _ _ hcore => rests_of_vaults (keeps_setEntry (vault_core hcore)) rfl⟩

instance credits_rests : Credits (Rests tok) id :=
  ⟨fun _ _ => rests_of_vaults (keeps_setEntry rfl) rfl⟩

section Moving

variable {token dst src : Address} {amount : ℤ} {memo : Memo}

theorem transfer_draws (hrun : transfer env token dst amount memo s = .ok (v, t)) :
    Draws tok (if token = tok then max amount 0 else 0) s t := by
  obtain ⟨-, rfl⟩ := transfer_ok.1 hrun
  refine ⟨fun _ => rfl, ?_⟩
  rw [Store.withLog_log, held_cons]
  by_cases htoken : token = tok
  · by_cases hdst : dst = currentContract
    · simp [htoken, hdst]
    · simp only [htoken, hdst, true_and, if_true, if_false]
      omega
  · simp [htoken]

theorem tryTransfer_draws {sent : Bool} (hrun : tryTransfer env token dst amount memo s = .ok (sent, t)) :
    Draws tok (if token = tok then max amount 0 else 0) s t := by
  obtain ⟨haccepts, hsame⟩ := tryTransfer_ok.1 hrun
  cases sent with
  | true => exact transfer_draws (v := ()) (transfer_ok.2 ⟨haccepts, by simpa using hsame⟩)
  | false =>
      obtain rfl : s = t := by simpa using hsame
      refine (Draws.refl s).mono ?_
      split_ifs
      · exact le_max_right amount 0
      · exact le_rfl

theorem transferPositive_draws (hrun : transferPositive env token dst amount memo s = .ok (v, t)) :
    Draws tok (if token = tok then max amount 0 else 0) s t := by
  rcases onlyIf_ok.1 hrun with ⟨-, hrun⟩ | ⟨-, rfl⟩
  · exact transfer_draws hrun
  · refine (Draws.refl s).mono ?_
    split_ifs
    · exact le_max_right amount 0
    · exact le_rfl

theorem transfer_draws_self (hrun : transfer env tok dst amount memo s = .ok (v, t)) :
    Draws tok (max amount 0) s t := by
  have hdraws : Draws tok (if tok = tok then max amount 0 else 0) s t := transfer_draws hrun
  rwa [if_pos rfl] at hdraws

theorem transferPositive_draws_self (hrun : transferPositive env tok dst amount memo s = .ok (v, t)) :
    Draws tok (max amount 0) s t := by
  have hdraws : Draws tok (if tok = tok then max amount 0 else 0) s t := transferPositive_draws hrun
  rwa [if_pos rfl] at hdraws

theorem tryTransfer_draws_self {sent : Bool}
    (hrun : tryTransfer env tok dst amount memo s = .ok (sent, t)) : Draws tok (max amount 0) s t := by
  have hdraws : Draws tok (if tok = tok then max amount 0 else 0) s t := tryTransfer_draws hrun
  rwa [if_pos rfl] at hdraws

theorem collect_draws (hsrc : src ≠ currentContract)
    (hrun : collect env tok src amount memo s = .ok (v, t)) : Draws tok (-amount) s t := by
  obtain ⟨-, rfl⟩ := collect_ok.1 hrun
  refine ⟨fun _ => rfl, ?_⟩
  rw [Store.withLog_log, held_cons]
  simp [hsrc]

/-- Tokens that others move to each other. -/
theorem move_rests {token recipient : Address} (hsrc : src ≠ currentContract) (hamount : 0 < amount)
    (hrun : move env ⟨token, src, recipient, amount, memo⟩ s = .ok (v, t)) : Rests tok s t := by
  obtain ⟨-, rfl⟩ := move_ok.1 hrun
  refine ⟨fun _ => rfl, ?_⟩
  rw [Store.withLog_log, held_cons]
  by_cases hin : token = tok ∧ recipient = currentContract
  · simp only [hin, hsrc, and_self, if_true, and_false, if_false]
    omega
  · simp only [hin, hsrc, if_false, and_false]
    omega

/-- A loop whose rounds draw at most the weight of their element. -/
theorem forM_draws {ι : Type} {f : ι → SplitM Unit} {w : ι → ℤ} {xs : List ι}
    (hstep : ∀ i s t (v : Unit), i ∈ xs → f i s = .ok (v, t) → Draws tok (w i) s t)
    (hrun : forM xs f s = .ok (v, t)) : Draws tok (xs.map w).sum s t := by
  induction xs generalizing s with
  | nil =>
      obtain ⟨-, rfl⟩ := pure_ok.1 hrun
      exact Draws.refl s
  | cons i xs ih =>
      rw [List.forM_cons] at hrun
      obtain ⟨_, u, hfirst, hrest⟩ := bind_ok.1 hrun
      rw [List.map_cons, List.sum_cons]
      exact (hstep i s u _ (by simp) hfirst).trans
        (ih (fun k s t v hk => hstep k s t v (List.mem_cons_of_mem i hk)) hrest)

end Moving

/-! ## What a release sends out -/

/-- The platform fee goes to its recipients in parts. -/
def feeOutlay (env : Env) (fee : ℤ) (treasury : Address) : ℤ :=
  match feeShares fee (env.config.feeRecipients.getD [⟨treasury, 10000⟩]) 0 with
  | .ok shares => (shares.map fun p => max p.2 0).sum
  | .error _ => 0

def platformOutlay (env : Env) (fee : ℤ) : ℤ :=
  if 0 < fee then (env.config.treasury.map (feeOutlay env fee)).getD 0 else 0

theorem payPlatformFee_draws {fee : ℤ} {token : Address}
    (hrun : payPlatformFee env id fee token s = .ok (v, t)) : Draws tok (platformOutlay env fee) s t := by
  unfold platformOutlay
  rcases onlyIf_ok.1 hrun with ⟨hpos, hrun⟩ | ⟨hnot, rfl⟩
  · rw [if_pos hpos]
    obtain ⟨treasury, htreasury, hrun⟩ := orPanic_bind.1 hrun
    rw [htreasury, Option.map_some, Option.getD_some, feeOutlay]
    unfold distributeFee at hrun
    rcases onlyIf_ok.1 hrun with ⟨-, hrun⟩ | ⟨hnot, -⟩
    · obtain ⟨shares, hshares, hrun⟩ := ofResult_bind.1 hrun
      rw [hshares]
      refine forM_draws (fun p s t v _ hstep => ?_) hrun
      refine (transferPositive_draws hstep).mono ?_
      split_ifs
      · exact le_rfl
      · exact le_max_right _ _
    · exact absurd hpos hnot
  · rw [if_neg hnot]
    exact Draws.refl s

/-- What the delivery of a share costs; the routing branch may pay it twice. -/
def deliveryOutlay (inv : Invoice) (i : ℕ) (share : ℤ) : ℤ :=
  if (inv.swapTokens.getD i none).isSome then 0
  else if inv.smartRoute = true ∧ recipientTokenFor inv i = fundingTokenFor inv then 2 * max share 0
  else max share 0

/-- The whole tax goes out with every share. -/
def taxOutlay (inv : Invoice) (plan : Plan) : ℤ :=
  if inv.taxAuthority.isSome then max plan.totalTax 0 else 0

/-- What the transfer pass sends for one recipient, with the fee the creator gets of the share. -/
def recipientOutlay (env : Env) (inv : Invoice) (locked : Address → Bool) (paidSet : List Address)
    (fee : ℤ) (plan : Plan) (ri : Address × ℕ) : ℤ :=
  match plan.payouts[ri.2]? with
  | none => 0
  | some share =>
      if locked ri.1 = true ∨ (share = 0 ∧ ri.1 ∈ paidSet) then 0
      else
        match netPayout env inv fee ri.1 share with
        | .ok net => deliveryOutlay inv ri.2 net.1 + net.2 + taxOutlay inv plan
        | .error _ => 0

theorem deliverPayout_draws {i : ℕ} {dst : Address} {amount : ℤ} {success : Bool}
    (hrun : deliverPayout env id inv i dst amount s = .ok (success, t)) :
    Draws (fundingTokenFor inv) (deliveryOutlay inv i amount) s t := by
  have hzero := le_max_right amount 0
  unfold deliverPayout at hrun
  unfold deliveryOutlay
  cases hswap : inv.swapTokens.getD i none with
  | some outToken =>
      simp only [hswap] at hrun
      obtain ⟨-, rfl⟩ := pure_ok.1 hrun
      exact Draws.refl s
  | none =>
      simp only [hswap] at hrun
      rw [if_neg (by simp)]
      by_cases hsmart : inv.smartRoute = true
      · rw [if_pos hsmart] at hrun
        obtain ⟨sent, u, htry, hrun⟩ := bind_ok.1 hrun
        obtain ⟨_, w, htransfer, hrun⟩ := bind_ok.1 hrun
        obtain ⟨-, rfl⟩ := pure_ok.1 hrun
        refine ((tryTransfer_draws htry).trans (transfer_draws htransfer)).mono ?_
        rw [if_pos rfl]
        by_cases hsame : recipientTokenFor inv i = fundingTokenFor inv
        · rw [if_pos hsame, if_pos ⟨hsmart, hsame⟩, two_mul]
        · rw [if_neg hsame, if_neg fun h => hsame h.2, add_zero]
      · rw [if_neg hsmart] at hrun
        rw [if_neg fun h => hsmart h.1]
        by_cases hstream : inv.convertToStream = true
        · rw [if_pos hstream] at hrun
          cases hcontract : env.config.streamContract with
          | some stream =>
              simp only [hcontract] at hrun
              obtain ⟨sent, u, htry, hrun⟩ := bind_ok.1 hrun
              obtain ⟨-, rfl⟩ := pure_ok.1 hrun
              exact tryTransfer_draws_self htry
          | none =>
              simp only [hcontract] at hrun
              obtain ⟨_, u, htransfer, hrun⟩ := bind_ok.1 hrun
              obtain ⟨-, rfl⟩ := pure_ok.1 hrun
              refine (transfer_draws htransfer).mono ?_
              split_ifs
              · exact le_rfl
              · exact hzero
        · rw [if_neg hstream] at hrun
          obtain ⟨routed, u, hrouted, hrun⟩ := bind_ok.1 hrun
          obtain ⟨rfl, rfl⟩ := executeSmartRoute_off (by simpa using hsmart) hrouted
          exact tryTransfer_draws_self hrun

theorem netPayout_creatorFee {fee share : ℤ} {recipient : Address} {net : ℤ × ℤ}
    (h : netPayout env inv fee recipient share = .ok net) : 0 ≤ net.2 := by
  obtain ⟨tax, -, h⟩ := except_bind_ok.1 h
  obtain ⟨fee, -, h⟩ := except_bind_ok.1 h
  obtain ⟨creatorFee, hcreator, h⟩ := except_bind_ok.1 h
  obtain rfl := Except.ok.inj h
  exact checkedBpsOf_nonneg hcreator

theorem transferIfSet_draws {dst : Option Address} {amount : ℤ} {memo : Memo}
    (hrun : transferIfSet env tok dst amount memo s = .ok (v, t)) :
    Draws tok (if dst.isSome then max amount 0 else 0) s t := by
  cases dst with
  | none =>
      obtain ⟨-, rfl⟩ := pure_ok.1 hrun
      exact Draws.refl s
  | some a => exact transfer_draws_self hrun

/-- One recipient draws at most the outlay, counting the fee put by for the creator. -/
theorem payRecipient_draws {paidSet : List Address} {fee : ℤ} {plan : Plan} {acc acc' : Pass}
    {ri : Address × ℕ} (haccount : env.accountExists (fundingTokenFor inv) ri.1 = true)
    (hacc : 0 ≤ acc.creatorFee)
    (hrun : payRecipient env id inv paidSet fee plan acc ri s = .ok (acc', t)) :
    0 ≤ acc'.creatorFee ∧ Draws (fundingTokenFor inv)
      (recipientOutlay env inv (s.entries id).recipientLock paidSet fee plan ri + acc.creatorFee -
        acc'.creatorFee) s t := by
  unfold payRecipient at hrun
  obtain ⟨share, hshare, hrun⟩ := ofResult_bind.1 hrun
  rw [unwrap_ok] at hshare
  rw [getEntry_bind] at hrun
  unfold recipientOutlay
  rw [hshare]
  dsimp only
  split_ifs at hrun with hskip hmissing
  · obtain ⟨rfl, rfl⟩ := pure_ok.1 hrun
    rw [if_pos hskip]
    exact ⟨hacc, (Draws.refl s).mono (by linarith)⟩
  · rw [haccount] at hmissing
    cases hmissing
  · obtain ⟨net, hnet, hrun⟩ := ofResult_bind.1 hrun
    obtain ⟨success, u₁, hdeliver, hrun⟩ := bind_ok.1 hrun
    obtain ⟨_, u₂, hfailure, hrun⟩ := bind_ok.1 hrun
    obtain ⟨_, u₃, htax, hrun⟩ := bind_ok.1 hrun
    obtain ⟨rfl, rfl⟩ := pure_ok.1 hrun
    rw [if_neg hskip, hnet]
    have hcreator := netPayout_creatorFee hnet
    obtain ⟨hnonneg, hle⟩ := satAddI128_le hacc hcreator
    have h₁ : Draws (fundingTokenFor inv) (deliveryOutlay inv ri.2 net.1) s u₁ :=
      deliverPayout_draws hdeliver
    have h₂ : Rests (fundingTokenFor inv) u₁ u₂ := by
      rcases onlyIf_ok.1 hfailure with ⟨-, hrecord⟩ | ⟨-, rfl⟩
      · exact framed_recordFailure.respects u₁ _ u₂ hrecord
      · exact Draws.refl u₁
    have h₃ : Draws (fundingTokenFor inv) (taxOutlay inv plan) u₂ u₃ := transferIfSet_draws htax
    refine ⟨hnonneg, ((h₁.trans h₂).trans h₃).mono ?_⟩
    dsimp only
    linarith

theorem payEach_draws {paidSet : List Address} {fee : ℤ} {plan : Plan} {acc acc' : Pass}
    {locked : Address → Bool} {ris : List (Address × ℕ)}
    (haccounts : ∀ ri ∈ ris, env.accountExists (fundingTokenFor inv) ri.1 = true)
    (hlocked : (s.entries id).recipientLock = locked) (hacc : 0 ≤ acc.creatorFee)
    (hrun : ris.foldlM (payRecipient env id inv paidSet fee plan) acc s = .ok (acc', t)) :
    0 ≤ acc'.creatorFee ∧ Draws (fundingTokenFor inv)
      ((ris.map (recipientOutlay env inv locked paidSet fee plan)).sum + acc.creatorFee -
        acc'.creatorFee) s t := by
  induction ris generalizing acc s with
  | nil =>
      obtain ⟨rfl, rfl⟩ := pure_ok.1 hrun
      exact ⟨hacc, (Draws.refl s).mono (by simp)⟩
  | cons ri ris ih =>
      rw [List.foldlM_cons] at hrun
      obtain ⟨mid, u, hfirst, hrest⟩ := bind_ok.1 hrun
      obtain ⟨hmid, hdraws⟩ := payRecipient_draws (haccounts ri (by simp)) hacc hfirst
      have hplanned : Keeps Entry.planned s u := framed_payRecipient.respects s _ u hfirst
      have hlocked' : (u.entries id).recipientLock = locked := by
        rw [← hlocked]
        exact congrArg (fun q => q.2.2) (hplanned id)
      obtain ⟨hlast, hdraws'⟩ := ih (fun r hr => haccounts r (List.mem_cons_of_mem ri hr)) hlocked'
        hmid hrest
      refine ⟨hlast, (hdraws.trans hdraws').mono ?_⟩
      rw [hlocked, List.map_cons, List.sum_cons]
      linarith

/-- What the payout of a plan sends, to the treasury of a group or to the recipients. -/
def planOutlay (env : Env) (e : Entry) (inv : Invoice) (fee : ℤ) (plan : Plan) : ℤ :=
  platformOutlay env plan.totalFee +
    match e.treasury with
    | some _ => taxOutlay inv plan + max (plan.distributed - plan.totalTax - plan.totalFee) 0
    | none =>
        (inv.recipients.zipIdx.map
          (recipientOutlay env inv e.recipientLock e.paidRecipients fee plan)).sum

theorem taxOutlay_nonneg {plan : Plan} : 0 ≤ taxOutlay inv plan := by
  unfold taxOutlay
  split_ifs
  · exact le_max_right _ _
  · exact le_rfl

theorem payPlan_draws {e : Entry} {fee : ℤ} {plan : Plan} {failed : Bool}
    (haccounts : ∀ r ∈ inv.recipients, env.accountExists (fundingTokenFor inv) r = true)
    (hlocked : (s.entries id).recipientLock = e.recipientLock)
    (hrun : payPlan env id inv e fee plan s = .ok (failed, t)) :
    Draws (fundingTokenFor inv) (planOutlay env e inv fee plan) s t := by
  unfold payPlan at hrun
  unfold planOutlay
  cases htreasury : e.treasury with
  | some treasury =>
      simp only [htreasury] at hrun ⊢
      obtain ⟨_, u, hpay, hrun⟩ := bind_ok.1 hrun
      obtain ⟨-, rfl⟩ := pure_ok.1 hrun
      obtain ⟨_, u₁, htax, hpay⟩ := bind_ok.1 hpay
      obtain ⟨_, u₂, hfee, hnet⟩ := bind_ok.1 hpay
      have h₁ : Draws (fundingTokenFor inv) (taxOutlay inv plan) s u₁ := by
        rcases onlyIf_ok.1 htax with ⟨-, htax⟩ | ⟨-, rfl⟩
        · exact transferIfSet_draws htax
        · exact (Draws.refl s).mono taxOutlay_nonneg
      have h₂ : Draws (fundingTokenFor inv) (platformOutlay env plan.totalFee) u₁ u₂ :=
        payPlatformFee_draws hfee
      have h₃ : Draws (fundingTokenFor inv) (max (plan.distributed - plan.totalTax - plan.totalFee) 0) u₂ u :=
        transferPositive_draws_self hnet
      exact ((h₁.trans h₂).trans h₃).mono (by linarith)
  | none =>
      simp only [htreasury] at hrun ⊢
      obtain ⟨pass, u₁, hloop, hrun⟩ := bind_ok.1 hrun
      obtain ⟨_, u₂, hfee, hrun⟩ := bind_ok.1 hrun
      obtain ⟨_, u₃, hcreator, hrun⟩ := bind_ok.1 hrun
      obtain ⟨-, rfl⟩ := pure_ok.1 hrun
      obtain ⟨hnonneg, h₁⟩ := payEach_draws
        (fun ri hri => haccounts ri.1 (List.fst_mem_of_mem_zipIdx hri)) hlocked le_rfl hloop
      have h₂ : Draws (fundingTokenFor inv) (platformOutlay env plan.totalFee) u₁ u₂ :=
        payPlatformFee_draws hfee
      have h₃ : Draws (fundingTokenFor inv) (max pass.creatorFee 0) u₂ u₃ :=
        transferPositive_draws_self hcreator
      rw [max_eq_left hnonneg] at h₃
      exact ((h₁.trans h₂).trans h₃).mono (by simp; linarith)

/-- The protocol fee is taken on top of the shares. -/
def protocolOutlay (env : Env) (inv : Invoice) : ℤ :=
  match env.config.protocolFee with
  | none => 0
  | some cfg =>
      if 0 < cfg.rateBps then
        match checkedBpsOf inv.funded cfg.rateBps 10000 with
        | .ok fee => max fee 0
        | .error _ => 0
      else 0

theorem payProtocolFee_draws (hrun : payProtocolFee env id inv s = .ok (v, t)) :
    Draws (fundingTokenFor inv) (protocolOutlay env inv) s t := by
  unfold payProtocolFee at hrun
  unfold protocolOutlay
  cases hconfig : env.config.protocolFee with
  | none =>
      simp only [hconfig] at hrun
      obtain ⟨-, rfl⟩ := pure_ok.1 hrun
      exact Draws.refl s
  | some cfg =>
      simp only [hconfig] at hrun ⊢
      rcases onlyIf_ok.1 hrun with ⟨hrate, hrun⟩ | ⟨hrate, rfl⟩
      · rw [if_pos hrate]
        obtain ⟨fee, hfee, hrun⟩ := ofResult_bind.1 hrun
        rw [hfee]
        exact transferPositive_draws_self hrun
      · rw [if_neg hrate]
        exact Draws.refl s

theorem sum_bonusShares {pool : ℤ} (hpool : 0 ≤ pool) (payers : List Address) :
    ((bonusShares pool payers).map fun p => max p.2 0).sum ≤ pool := by
  unfold bonusShares
  cases hlength : payers.length with
  | zero =>
      obtain rfl := List.length_eq_zero_iff.1 hlength
      simpa using hpool
  | succ n =>
      have hshare : 0 ≤ pool / ((n + 1 : ℕ) : ℤ) := Int.ediv_nonneg hpool (by positivity)
      have hsum : pool / ((n + 1 : ℕ) : ℤ) * ((n + 1 : ℕ) : ℤ) ≤ pool :=
        Int.ediv_mul_le pool (by positivity)
      push_cast at hshare hsum
      have hlast : 0 ≤ pool - pool / ((n : ℤ) + 1) * ((n : ℤ) + 1 - 1) := by nlinarith
      have hparts : ((payers.zipIdx.map fun pi =>
          if pi.2 + 1 = n + 1 then (pi.1, pool - pool / ((n + 1 : ℕ) : ℤ) * (((n + 1 : ℕ) : ℤ) - 1))
          else (pi.1, pool / ((n + 1 : ℕ) : ℤ))).map fun p => max p.2 0) =
          ((payers.zipIdx.map Prod.snd).map fun i =>
            if i = n then pool - pool / ((n : ℤ) + 1) * ((n : ℤ) + 1 - 1) else pool / ((n : ℤ) + 1)) := by
        rw [List.map_map, List.map_map]
        apply List.map_congr_left
        intro pi _
        push_cast
        by_cases hi : pi.2 = n
        · simp only [comp_apply, hi, if_true]
          exact max_eq_left hlast
        · simp only [comp_apply, hi, if_false]
          exact max_eq_left hshare
      rw [hparts, List.zipIdx_map_snd, hlength, ← List.range_eq_range', List.range_succ, List.map_append,
        List.sum_append]
      have hfirst : ((List.range n).map fun i =>
          if i = n then pool - pool / ((n : ℤ) + 1) * ((n : ℤ) + 1 - 1) else pool / ((n : ℤ) + 1)) =
          List.replicate n (pool / ((n : ℤ) + 1)) := by
        rw [List.eq_replicate_iff]
        refine ⟨by simp, fun y hy => ?_⟩
        obtain ⟨i, hi, rfl⟩ := List.mem_map.1 hy
        rw [if_neg (List.mem_range.1 hi).ne]
      rw [hfirst, List.sum_replicate]
      simp only [List.map_cons, List.map_nil, List.sum_cons, List.sum_nil, if_true, nsmul_eq_mul]
      linarith

theorem payBonus_draws (hrun : payBonus env id inv s = .ok (v, t)) :
    Draws (fundingTokenFor inv) (max inv.bonusPool 0) s t := by
  rcases onlyIf_ok.1 hrun with ⟨hpool, hrun⟩ | ⟨-, rfl⟩
  · refine (forM_draws (fun p s t v _ hstep => transfer_draws_self hstep) hrun).mono ?_
    exact (sum_bonusShares hpool.1.le _).trans (le_max_left _ _)
  · exact (Draws.refl s).mono (le_max_right _ _)

theorem returnInsurance_draws (hrun : returnInsurance env id inv s = .ok (v, t)) :
    Draws (fundingTokenFor inv) (max inv.insuranceFund 0) s t :=
  transferPositive_draws_self hrun

/-- What a release sends out besides the bonus and the insurance fund. -/
def releaseOutlay (env : Env) (e : Entry) (inv : Invoice) (actor : Address) : ℤ :=
  match totalPlatformFee env inv actor with
  | .ok fee =>
      match planPayouts env inv e.paidRecipients e.recipientLock fee with
      | .ok plan =>
          protocolOutlay env inv + planOutlay env e inv fee plan +
            if inv.forwardTo.isSome then max (planLeftover inv plan) 0 else 0
      | .error _ => 0
  | .error _ => 0

/-- A release of the invoice that stays within its funding and leaves it closed. -/
structure ReleaseCovered (env : Env) (e : Entry) (inv : Invoice) (actor : Address) : Prop where
  accounts : ∀ r ∈ inv.recipients, env.accountExists (fundingTokenFor inv) r = true
  unfailed : e.failedPayouts = []
  outlay : releaseOutlay env e inv actor ≤ inv.funded
  alone : planLeft env e inv actor ≤ 0 ∨ inv.forwardTarget = none

theorem forwardLeftover_draws {next : ℕ → Invoice → Address → SplitM Unit} {leftover : ℤ}
    (halone : leftover ≤ 0 ∨ inv.forwardTarget = none)
    (hrun : forwardLeftover env next id inv leftover s = .ok (v, t)) :
    t.entries = s.entries ∧
      Draws (fundingTokenFor inv) (if inv.forwardTo.isSome then max leftover 0 else 0) s t := by
  have hnone : 0 ≤ if inv.forwardTo.isSome then max leftover 0 else 0 := by
    split_ifs
    · exact le_max_right _ _
    · exact le_rfl
  rcases forwardLeftover_cases hrun with rfl | ⟨addr, haddr, htransfer⟩ | ⟨hpos, haddr, m, hforward, -⟩
  · exact ⟨rfl, (Draws.refl s).mono hnone⟩
  · rw [haddr]
    refine ⟨?_, transfer_draws_self htransfer⟩
    obtain ⟨-, rfl⟩ := transfer_ok.1 htransfer
    rfl
  · have htarget := halone.resolve_left (not_le.2 hpos)
    rw [Invoice.forwardTarget, haddr, if_neg (by simp), hforward] at htarget
    cases htarget

/-- A covered release draws no more than what the invoice has a claim on and then closes it. -/
theorem releaseFull_draws {next : ℕ → Invoice → Address → SplitM Unit} {actor : Address}
    (hcovered : ReleaseCovered env (s.entries id) inv actor) (hgroup : (s.entries id).group = none)
    (hrun : releaseFull env next id inv actor s = .ok (v, t)) :
    ∃ w failed fee,
      Draws (fundingTokenFor inv) (inv.funded + max inv.insuranceFund 0 + max inv.bonusPool 0) s w ∧
      finishRelease env id inv failed fee w = .ok (v, t) ∧
      (failed = true ∨ (w.entries id).failedPayouts = []) ∧ ∀ k, k ≠ id → w.entries k = s.entries k := by
  obtain ⟨fee, plan, failed, u₄, u₅, u₆, u₇, hfee, hplan, hpasses, hmembers, hinsurance, hforward, hfinish⟩ :=
    releaseFull_passes hrun
  obtain ⟨u₁, u₂, u₃, hpark, hprotocol, hpay, hbonus⟩ := payPasses_ok.1 hpasses
  have hplanned₁ : Keeps Entry.planned s u₁ := framed_parkShares.respects s _ u₁ hpark
  have hplanned₂ : Keeps Entry.planned u₁ u₂ := framed_payProtocolFee.respects u₁ _ u₂ hprotocol
  have hplanned : Keeps Entry.planned s u₂ := trans_of (Keeps _) hplanned₁ hplanned₂
  have hlock : (u₂.entries id).recipientLock = (s.entries id).recipientLock :=
    congrArg (fun q => q.2.2) (hplanned id)
  obtain rfl : u₄ = u₅ := by
    have hkept : Keeps Entry.planned s u₄ := framed_payPasses.respects s _ u₄ hpasses
    have hsame : (u₄.entries id).group = (s.entries id).group := congrArg (fun q => q.1.1) (hkept id)
    exact (releaseGroup_alone (hsame.trans hgroup) hmembers).symm
  have hleft : planLeft env (s.entries id) inv actor = planLeftover inv plan := by
    rw [planLeft, hfee]
    dsimp only
    rw [hplan]
  have houtlay := hcovered.outlay
  rw [releaseOutlay, hfee] at houtlay
  dsimp only at houtlay
  rw [hplan] at houtlay
  dsimp only at houtlay
  have halone := hcovered.alone
  rw [hleft] at halone
  have h₁ : Rests (fundingTokenFor inv) s u₁ := framed_parkShares.respects s _ u₁ hpark
  have h₂ := payProtocolFee_draws hprotocol
  have h₃ := payPlan_draws hcovered.accounts hlock hpay
  have h₄ := payBonus_draws hbonus
  have h₆ := returnInsurance_draws hinsurance
  obtain ⟨hsame, h₇⟩ := forwardLeftover_draws halone hforward
  refine ⟨u₇, failed, _, (((((h₁.trans h₂).trans h₃).trans h₄).trans h₆).trans h₇).mono ?_, hfinish, ?_, ?_⟩
  · linarith
  · have hfailed₂ : Keeps Entry.failedPayouts u₁ u₂ := framed_payProtocolFee.respects u₁ _ u₂ hprotocol
    have hfailed₄ : Keeps Entry.failedPayouts u₃ u₄ := framed_payBonus.respects u₃ _ u₄ hbonus
    have hfailed₆ : Keeps Entry.failedPayouts u₄ u₆ := framed_returnInsurance.respects u₄ _ u₆ hinsurance
    have hstart : (u₂.entries id).failedPayouts = [] := by
      rw [hfailed₂ id]
      obtain rfl := modifyEntry_ok.1 hpark
      rw [Store.setEntry_self]
      exact hcovered.unfailed
    rw [hsame, hfailed₆ id, hfailed₄ id]
    exact payPlan_failed hcovered.accounts hstart hpay
  · intro k hk
    have hne : Fact (k ≠ id) := ⟨hk⟩
    have hpaid : Outside k s u₄ := framed_payPasses.respects s _ u₄ hpasses
    have hreturned : Outside k u₄ u₆ := framed_returnInsurance.respects u₄ _ u₆ hinsurance
    rw [hsame, hreturned.entries, hpaid.entries]

/-! ## What a call takes from the slack -/

variable {ids : Finset ℕ} {payers : Finset Address}

/-- The slack falls by at most `x`, invoices keep their token and no channel is opened. -/
structure Backs (tok : Address) (ids : Finset ℕ) (payers : Finset Address) (x : ℤ) (s t : Store) :
    Prop where
  tokens : Keeps (fun e => e.invoice.map fundingTokenFor) s t
  channels : ∀ k p, (t.entries k).channel p = (s.entries k).channel p ∨ (t.entries k).channel p = none
  slack : slack tok ids payers s ≤ slack tok ids payers t + x

theorem Backs.trans (h₁ : Backs tok ids payers x s u) (h₂ : Backs tok ids payers y u t) :
    Backs tok ids payers (x + y) s t := by
  refine ⟨trans_of (Keeps _) h₁.tokens h₂.tokens, fun k p => ?_, by linarith [h₁.slack, h₂.slack]⟩
  rcases h₂.channels k p with hsame | hnone
  · rw [hsame]
    exact h₁.channels k p
  · exact .inr hnone

theorem Backs.mono (h : Backs tok ids payers x s t) (hxy : x ≤ y) : Backs tok ids payers y s t :=
  ⟨h.tokens, h.channels, by linarith [h.slack]⟩

theorem Draws.backs (h : Draws tok x s t) : Backs tok ids payers x s t := by
  have howed : ∀ k, (t.entries k).owed payers = (s.entries k).owed payers := by
    intro k
    unfold Entry.owed
    rw [h.vaults k]
  refine ⟨fun k => ?_, fun k p => .inl (congrArg (fun q => q.2 p) (h.vaults k)), ?_⟩
  · have htoken := congrArg (fun q => q.1.map Prod.snd) (h.vaults k)
    simpa [Entry.vault, Function.comp_def] using htoken
  · unfold Split.slack
    simp only [howed]
    linarith [h.held]

/-- A call that writes the entries of one invoice and moves nothing. -/
theorem backs_entry (hid : id ∈ ids) (hother : ∀ k, k ≠ id → t.entries k = s.entries k)
    (hlog : t.log = s.log)
    (htoken : (t.entries id).invoice.map fundingTokenFor = (s.entries id).invoice.map fundingTokenFor)
    (hchannels : ∀ p, (t.entries id).channel p = (s.entries id).channel p ∨
      (t.entries id).channel p = none) :
    Backs tok ids payers ((t.entries id).owed payers - (s.entries id).owed payers) s t := by
  refine ⟨fun k => ?_, fun k p => ?_, ?_⟩
  · by_cases hk : k = id
    · rw [hk]
      exact htoken
    · dsimp only
      rw [hother k hk]
  · by_cases hk : k = id
    · rw [hk]
      exact hchannels p
    · exact .inl (by rw [hother k hk])
  · have hsum : ∑ k ∈ ids, ((t.entries k).owed payers - (s.entries k).owed payers) =
        (t.entries id).owed payers - (s.entries id).owed payers := by
      apply Finset.sum_eq_single_of_mem id hid
      intro k _ hk
      rw [hother k hk, sub_self]
    rw [Finset.sum_sub_distrib] at hsum
    unfold Split.slack
    rw [hlog]
    linarith

theorem backs_record (hid : id ∈ ids) (hstored : (s.entries id).vault.1 = some (x, fundingTokenFor inv))
    (hlog : t.log = s.log)
    (hentries : t.entries = (s.setEntry id { s.entries id with invoice := some inv }).entries) :
    Backs tok ids payers (inv.claim - x) s t := by
  have hself : t.entries id = { s.entries id with invoice := some inv } := by
    rw [hentries, Store.setEntry_self]
  have hbacks : Backs tok ids payers ((t.entries id).owed payers - (s.entries id).owed payers) s t := by
    refine backs_entry hid (fun k hk => ?_) hlog ?_ fun p => .inl ?_
    · rw [hentries, Store.setEntry_ne s hk]
    · have htoken := congrArg (Option.map Prod.snd) hstored
      rw [hself]
      simpa [Entry.vault, Function.comp_def] using htoken.symm
    · rw [hself]
  refine hbacks.mono (le_of_eq ?_)
  unfold Entry.owed
  rw [hstored, hself]
  simp [Entry.vault]

theorem saveInvoice_backs (hid : id ∈ ids)
    (hstored : (s.entries id).vault.1 = some (x, fundingTokenFor inv))
    (hrun : saveInvoice env id inv s = .ok (v, t)) : Backs tok ids payers (inv.claim - x) s t := by
  obtain ⟨-, rfl⟩ := saveInvoice_ok.1 hrun
  have hstored' : (s.entries id).vault.1 = some (x, fundingTokenFor (inv.withPayments [])) := hstored
  have hbacks : Backs tok ids payers ((inv.withPayments []).claim - x) s (s.setEntry id
      { s.entries id with invoice := some (inv.withPayments []) }) := backs_record hid hstored' rfl rfl
  exact hbacks

/-- A covered release of a pending invoice is no worse for the slack than saving the invoice. -/
theorem releaseAs_backs {actor : Address} (hid : id ∈ ids) (htoken : fundingTokenFor inv = tok)
    (hpending : inv.status = .pending)
    (hstored : (s.entries id).vault.1 = some (x, fundingTokenFor inv))
    (hunguarded : isGuarded (s.entries id) inv = false)
    (hcovered : ReleaseCovered env (s.entries id) inv actor)
    (hrun : releaseAs env id inv actor s = .ok (v, t)) : Backs tok ids payers (inv.claim - x) s t := by
  rcases releaseAs_ok hrun with ⟨-, depth, hfull⟩ | ⟨htranches, -⟩
  · obtain ⟨w, failed, fee, hdraws, hfinish, hfailed, -⟩ :=
      releaseFull_draws hcovered (isGuarded_group hunguarded) hfull
    obtain ⟨hlog, hentries⟩ := finishRelease_ok hfinish
    have hclosed : ((inv.insurancePaid.completed (releaseStatus (w.entries id) inv failed)
        env.now).withPayments []).claim = 0 := by
      have hstatus : releaseStatus (w.entries id) inv failed ≠ .pending := by
        unfold releaseStatus
        rcases hfailed with rfl | hnone
        · by_cases hnone : (w.entries id).failedPayouts = [] <;> simp [hnone]
        · simp [hnone]
      exact if_neg hstatus
    have hstored' : (w.entries id).vault.1 = some (x, fundingTokenFor
        ((inv.insurancePaid.completed (releaseStatus (w.entries id) inv failed) env.now).withPayments
          [])) := by
      rw [hdraws.vaults id]
      exact hstored
    have hrecord : Backs tok ids payers (0 - x) w t := by
      rw [← hclosed]
      exact backs_record hid hstored' hlog hentries
    rw [htoken] at hdraws
    refine (hdraws.backs.trans hrecord).mono (le_of_eq ?_)
    rw [Invoice.claim, if_pos hpending]
    ring
  · exact absurd (isGuarded_tranches hunguarded) htranches

/-- A covered release writes no other invoice. -/
theorem releaseAs_others {actor : Address} (hunguarded : isGuarded (s.entries id) inv = false)
    (hcovered : ReleaseCovered env (s.entries id) inv actor) (hk : k ≠ id)
    (hrun : releaseAs env id inv actor s = .ok (v, t)) : t.entries k = s.entries k := by
  rcases releaseAs_ok hrun with ⟨-, depth, hfull⟩ | ⟨htranches, -⟩
  · obtain ⟨w, failed, fee, -, hfinish, -, hothers⟩ :=
      releaseFull_draws hcovered (isGuarded_group hunguarded) hfull
    rw [(finishRelease_ok hfinish).2, Store.setEntry_ne w hk, hothers k hk]
  · exact absurd (isGuarded_tranches hunguarded) htranches

end StellarSplit.Split
