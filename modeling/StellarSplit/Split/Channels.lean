import StellarSplit.Split.Credits
import StellarSplit.Split.OtherPayments

/-!
# Payment channels

A channel takes a deposit, counts down a balance and is closed once: what was
spent is credited to the invoice, what is left goes back. The deposits of a
payer are conserved along every run in which no channel is opened over an open
one and a balance is returned in the token it was deposited in.
-/

namespace StellarSplit.Split

open Exec Function Machine

variable {env : Env} {s t u : Store} {v : Unit} {id : ℕ} {inv : Invoice} {payer p tok : Address}

/-! ## The record of one payer -/

/-- What a payer has on record is the same for every invoice. -/
def KeepsPaid (p : Address) (s t : Store) : Prop :=
  ∀ k, paidBy (t.entries k).payments p = paidBy (s.entries k).payments p

instance keepsPaid_refl : Std.Refl (KeepsPaid p) := ⟨fun _ _ => rfl⟩

instance keepsPaid_trans : IsTrans Store (KeepsPaid p) := ⟨fun _ _ _ h₁ h₂ k => (h₂ k).trans (h₁ k)⟩

theorem keepsPaid_setEntry {e : Entry} (h : paidBy e.payments p = paidBy (s.entries id).payments p) :
    KeepsPaid p s (s.setEntry id e) := by
  intro k
  by_cases hk : k = id
  · subst hk
    rw [Store.setEntry_self, h]
  · rw [Store.setEntry_ne s hk]

instance moves_keepsPaid {memo : Memo} : Moves (KeepsPaid p) memo := ⟨fun _ _ _ _ => rfl⟩

instance counts_keepsPaid : Counts (KeepsPaid p) := ⟨fun _ _ _ _ => rfl⟩

instance countsVolume_keepsPaid : CountsVolume (KeepsPaid p) := ⟨fun _ _ _ => rfl⟩

instance saves_keepsPaid : Saves (KeepsPaid p) id inv := ⟨fun _ _ _ => keepsPaid_setEntry rfl⟩

instance notes_keepsPaid : Notes (KeepsPaid p) id := by
  refine ⟨fun s e hcore => keepsPaid_setEntry ?_⟩
  have hshards := congrArg Entry.shards hcore
  change e.shards = (s.entries id).shards at hshards
  unfold Entry.payments
  rw [hshards]

theorem pushPayment_paidBy {q : Payment} (hrun : pushPayment id q s = .ok (v, t)) :
    paidBy (t.entries id).payments p =
      paidBy (s.entries id).payments p + if q.payer = p then q.amount else 0 := by
  obtain rfl := modifyEntry_ok.1 hrun
  have hperm := perm_flatMap_update (s.entries id).shards q (computeShardId_lt q.payer)
  rw [Store.setEntry_self]
  calc paidBy _ p = paidBy ((s.entries id).payments ++ [q]) p := paidBy_perm hperm p
    _ = _ := by
        rw [paidBy_append, paidBy_cons]
        simp [paidBy]

instance creditsBy_keepsPaid {q : Address} [hne : Fact (q ≠ p)] : CreditsBy (KeepsPaid p) id q := by
  refine ⟨fun s r hr => keepsPaid_setEntry ?_⟩
  have hpush : pushPayment id r s = .ok ((), s.setEntry id { s.entries id with
      shards := update (s.entries id).shards (computeShardId r.payer)
        ((s.entries id).shards (computeShardId r.payer) ++ [r]) }) := modifyEntry_ok.2 rfl
  have hpaid := pushPayment_paidBy (p := p) hpush
  rw [Store.setEntry_self, if_neg (by rw [hr]; exact hne.out), add_zero] at hpaid
  exact hpaid

/-! ## What a credit leaves alone -/

instance untouched_channel : Untouched Entry.channel := ⟨fun _ => rfl, fun _ _ => rfl, fun _ _ => rfl⟩

section Credit

variable {R : Store → Store → Prop}

instance framed_creditShard {x : ℤ} [PayNotes R id] [CreditsBy R id payer] :
    Framed R (creditShard id payer x) := by
  unfold creditShard
  infer_instance

instance framed_settleCredit {heldBack : Invoice → Bool} {actor : Address} [∀ id, Notes R id]
    [∀ id, ReleaseMoves R id] [∀ id inv, Saves R id inv] [∀ id, CreditsBy R id currentContract]
    [Counts R] [CountsVolume R] : Framed R (settleCredit env id inv heldBack actor) := by
  unfold settleCredit
  infer_instance

instance framed_creditChannel {x : ℤ} [∀ id, Notes R id] [∀ id, ReleaseMoves R id]
    [∀ id inv, Saves R id inv] [∀ id, CreditsBy R id currentContract] [CreditsBy R id payer]
    [Counts R] [CountsVolume R] : Framed R (creditChannel env id inv payer x) := by
  unfold creditChannel
  infer_instance

end Credit

theorem creditChannel_grows {x : ℤ} (hrun : creditChannel env id inv payer x s = .ok (v, t)) :
    Grows (fun memo => memo.purpose.ofRelease = true) s t := by
  have hmoves : ∀ id, ReleaseMoves (Grows fun memo => memo.purpose.ofRelease = true) id :=
    fun _ => ⟨fun _ hp => moves_grows hp⟩
  exact Framed.holds s v t hrun

theorem creditChannel_channel {x : ℤ} (hrun : creditChannel env id inv payer x s = .ok (v, t)) (k : ℕ) :
    (t.entries k).channel = (s.entries k).channel := by
  have hkept : Keeps Entry.channel s t := Framed.holds s v t hrun
  exact hkept k

/-- The payer's record grows by what is credited, whatever the release forwards. -/
theorem creditChannel_paidBy {x : ℤ} (hpayer : payer ≠ currentContract)
    (hrun : creditChannel env id inv payer x s = .ok (v, t)) :
    paidBy (t.entries id).payments payer = paidBy (s.entries id).payments payer + x := by
  have hne : Fact (currentContract ≠ payer) := ⟨hpayer.symm⟩
  obtain ⟨-, u, hshard, hsettle⟩ := creditChannel_passes hrun
  obtain ⟨_, w, hpush, hcumulative⟩ := bind_ok.1 hshard
  have hkept : KeepsPaid payer w u := Framed.holds _ _ _ hcumulative
  have htail : KeepsPaid payer u t := Framed.holds _ _ _ hsettle
  rw [htail id, hkept id, pushPayment_paidBy hpush, if_pos rfl]

/-! ## Deposits -/

/-- What a payer has deposited for an invoice in a token. -/
def depositedBy (id : ℕ) (payer tok : Address) (s : Store) : ℤ :=
  tally (fun m => m.memo = ⟨id, .deposit⟩ ∧ m.src = payer ∧ m.token = tok) s.log

/-- What has been returned to a payer from channels of an invoice in a token. -/
def returnedTo (id : ℕ) (payer tok : Address) (s : Store) : ℤ :=
  tally (fun m => m.memo = ⟨id, .channelReturn⟩ ∧ m.dst = payer ∧ m.token = tok) s.log

/-- The deposit recorded in the open channel. -/
def recordedDeposit (id : ℕ) (payer : Address) (s : Store) : ℤ :=
  (((s.entries id).channel payer).map Channel.deposited).getD 0

/-- Nothing of the channel of a payer has changed. -/
structure ChannelAside (id : ℕ) (payer tok : Address) (s t : Store) : Prop where
  channel : (t.entries id).channel payer = (s.entries id).channel payer
  deposits : depositedBy id payer tok t = depositedBy id payer tok s
  returns : returnedTo id payer tok t = returnedTo id payer tok s

theorem ChannelAside.refl (s : Store) : ChannelAside id payer tok s s := ⟨rfl, rfl, rfl⟩

theorem ChannelAside.trans (h₁ : ChannelAside id payer tok s t) (h₂ : ChannelAside id payer tok t u) :
    ChannelAside id payer tok s u :=
  ⟨h₂.channel.trans h₁.channel, h₂.deposits.trans h₁.deposits, h₂.returns.trans h₁.returns⟩

/-- Movements for a release concern no channel. -/
theorem channelAside_of_grows (hchannel : (t.entries id).channel payer = (s.entries id).channel payer)
    (h : Grows (fun memo => memo.purpose.ofRelease = true) s t) : ChannelAside id payer tok s t := by
  refine ⟨hchannel, h.tally fun m hm => ?_, h.tally fun m hm => ?_⟩
  · have hmemo : m.memo ≠ ⟨id, .deposit⟩ := by
      intro heq
      rw [heq] at hm
      cases hm
    simp [hmemo]
  · have hmemo : m.memo ≠ ⟨id, .channelReturn⟩ := by
      intro heq
      rw [heq] at hm
      cases hm
    simp [hmemo]

/-! ## Runs -/

/-- The calls on channels, and whatever else happens in between. -/
inductive ChannelCall where
  | openChannel (payer : Address) (id : ℕ) (deposit : ℤ)
  | channelPay (payer : Address) (id : ℕ) (amount : ℤ)
  | closeChannel (payer : Address) (id : ℕ)
  | elsewhere (after : Store)

def channelStep (c : Env × ChannelCall) : SplitM Unit :=
  match c.2 with
  | .openChannel payer id deposit => openChannel c.1 payer id deposit
  | .channelPay payer id amount => channelPay c.1 payer id amount
  | .closeChannel payer id => closeChannel c.1 payer id
  | .elsewhere after => set after

/-- What the closing calls of a payer have credited to the invoice: the growth of the payer's
record. -/
def creditedNext (id : ℕ) (payer : Address) (c : Env × ChannelCall) (credited : ℤ) (s t : Store) : ℤ :=
  match c.2 with
  | .closeChannel payer' id' =>
      if payer' = payer ∧ id' = id then
        credited + (paidBy (t.entries id).payments payer - paidBy (s.entries id).payments payer)
      else credited
  | _ => credited

/-- A call with what was credited beside it. -/
def channelBookStep (id : ℕ) (payer : Address) (c : Env × ChannelCall) :
    Call (Store × ℤ) SplitFault Unit :=
  beside (creditedNext id payer c) (channelStep c)

/-- The payer opens no channel over an open one, deposits in `tok` and gets a balance back in it;
whatever happens elsewhere leaves the channel alone. -/
def ChannelFresh (id : ℕ) (payer tok : Address) (sb : Store × ℤ) (c : Env × ChannelCall) : Prop :=
  match c.2 with
  | .openChannel payer' id' _ => payer' = payer ∧ id' = id →
      (sb.1.entries id).channel payer = none ∧
        ∀ inv ∈ (sb.1.entries id).invoice, fundingTokenFor inv = tok
  | .closeChannel payer' id' => payer' = payer ∧ id' = id →
      ∀ channel ∈ (sb.1.entries id).channel payer, 0 < channel.balance →
        ∀ inv ∈ (sb.1.entries id).invoice, inv.tokens.head? = some tok
  | .elsewhere after => ChannelAside id payer tok sb.1 after
  | .channelPay .. => True

/-- The deposits since `start` are what was credited, what was returned and what is recorded. -/
structure DepositsKept (id : ℕ) (payer tok : Address) (start s : Store) (credited : ℤ) : Prop where
  balance : ∀ channel ∈ (s.entries id).channel payer, 0 ≤ channel.balance ∧
    channel.balance ≤ channel.deposited
  deposits : depositedBy id payer tok s - depositedBy id payer tok start =
    credited + (returnedTo id payer tok s - returnedTo id payer tok start) + recordedDeposit id payer s

theorem DepositsKept.aside {start : Store} {credited : ℤ} (h : DepositsKept id payer tok start s credited)
    (hst : ChannelAside id payer tok s t) : DepositsKept id payer tok start t credited := by
  refine ⟨?_, ?_⟩
  · rw [hst.channel]
    exact h.balance
  · rw [hst.deposits, hst.returns, h.deposits]
    unfold recordedDeposit
    rw [hst.channel]

/-! ### The three calls -/

theorem setChannel_aside {payer' : Address} {id' : ℕ} {channel : Option Channel}
    (hne : ¬(payer' = payer ∧ id' = id)) (hrun : setChannel id' payer' channel s = .ok (v, t)) :
    ChannelAside id payer tok s t := by
  obtain rfl := modifyEntry_ok.1 hrun
  refine ⟨?_, rfl, rfl⟩
  by_cases hid : id' = id
  · subst hid
    rw [Store.setEntry_self]
    exact update_of_ne (fun heq => hne ⟨heq.symm, rfl⟩) _ _
  · rw [Store.setEntry_ne s (Ne.symm hid)]

theorem setChannel_ok {channel : Option Channel} (hrun : setChannel id payer channel s = .ok (v, t)) :
    (t.entries id).channel payer = channel ∧ t.log = s.log := by
  obtain rfl := modifyEntry_ok.1 hrun
  rw [Store.setEntry_self]
  exact ⟨update_self _ _ _, rfl⟩

theorem openChannel_ok {deposit : ℤ} (hrun : openChannel env payer id deposit s = .ok (v, t)) :
    ∃ inv, (s.entries id).load = some inv ∧ 0 < deposit ∧
      setChannel id payer (some ⟨deposit, deposit⟩) (s.withLog
        (⟨fundingTokenFor inv, payer, currentContract, deposit, ⟨id, .deposit⟩⟩ :: s.log)) =
          .ok (v, t) := by
  simp only [openChannel, requireNotPaused_bind, requireAuth_bind, require_bind, loadInvoice_bind] at hrun
  obtain ⟨-, -, hpositive, inv, hload, -, -, hrun⟩ := hrun
  obtain ⟨_, u, hcollect, hset⟩ := bind_ok.1 hrun
  obtain ⟨-, rfl⟩ := collect_ok.1 hcollect
  exact ⟨inv, hload, hpositive, hset⟩

theorem channelPay_ok {amount : ℤ} (hrun : channelPay env payer id amount s = .ok (v, t)) :
    ∃ channel, (s.entries id).channel payer = some channel ∧ 0 < amount ∧ amount ≤ channel.balance ∧
      setChannel id payer (some { channel with balance := channel.balance - amount }) s =
        .ok (v, t) := by
  simp only [channelPay, requireNotPaused_bind, requireAuth_bind, require_bind, getEntry_bind,
    orPanic_bind] at hrun
  obtain ⟨-, -, hpositive, channel, hchannel, hfits, hset⟩ := hrun
  exact ⟨channel, hchannel, hpositive, hfits, hset⟩

/-- A closing call credits what was spent, then returns what is left and removes the channel. -/
theorem closeChannel_ok (hrun : closeChannel env payer id s = .ok (v, t)) :
    ∃ channel inv u w, (s.entries id).channel payer = some channel ∧
      (s.entries id).load = some inv ∧ payer ≠ currentContract ∧
      (∀ k, (u.entries k).channel = (s.entries k).channel) ∧
      Grows (fun memo => memo.purpose.ofRelease = true) s u ∧
      paidBy (u.entries id).payments payer =
        paidBy (s.entries id).payments payer + max (channel.deposited - channel.balance) 0 ∧
      returnBalance env id inv payer channel.balance u = .ok ((), w) ∧
      setChannel id payer none w = .ok (v, t) := by
  obtain ⟨channel, inv, u, w, hchannel, hload, -, hpayer, hcredit, hreturn, hset⟩ := closeChannel_passes hrun
  refine ⟨channel, inv, u, w, hchannel, hload, hpayer, ?_⟩
  rcases hcredit with ⟨hspent, hcredit⟩ | ⟨hspent, rfl⟩
  · refine ⟨creditChannel_channel hcredit, creditChannel_grows hcredit, ?_, hreturn, hset⟩
    rw [creditChannel_paidBy hpayer hcredit, max_eq_left hspent.le]
  · refine ⟨fun _ => rfl, refl_of (Grows _) s, ?_, hreturn, hset⟩
    rw [max_eq_right hspent, add_zero]

/-! ### A call on another channel -/

theorem openChannel_aside {payer' : Address} {id' : ℕ} {deposit : ℤ}
    (hne : ¬(payer' = payer ∧ id' = id)) (hrun : openChannel env payer' id' deposit s = .ok (v, t)) :
    ChannelAside id payer tok s t := by
  obtain ⟨inv, -, -, hset⟩ := openChannel_ok hrun
  have hother : ¬(id' = id ∧ payer' = payer ∧ fundingTokenFor inv = tok) :=
    fun h => hne ⟨h.2.1, h.1⟩
  have htake : ChannelAside id payer tok s (s.withLog (⟨fundingTokenFor inv, payer',
      currentContract, deposit, ⟨id', .deposit⟩⟩ :: s.log)) := by
    refine ⟨rfl, ?_, ?_⟩
    · simp [depositedBy, hother]
    · simp [returnedTo]
  exact htake.trans (setChannel_aside hne hset)

theorem channelPay_aside {payer' : Address} {id' : ℕ} {amount : ℤ}
    (hne : ¬(payer' = payer ∧ id' = id)) (hrun : channelPay env payer' id' amount s = .ok (v, t)) :
    ChannelAside id payer tok s t := by
  obtain ⟨channel, -, -, -, hset⟩ := channelPay_ok hrun
  exact setChannel_aside hne hset

theorem closeChannel_aside {payer' : Address} {id' : ℕ} (hne : ¬(payer' = payer ∧ id' = id))
    (hrun : closeChannel env payer' id' s = .ok (v, t)) : ChannelAside id payer tok s t := by
  obtain ⟨channel, inv, u, w, -, -, -, hchannels, hgrows, -, hreturn, hset⟩ := closeChannel_ok hrun
  have hcredit : ChannelAside id payer tok s u :=
    channelAside_of_grows (by rw [hchannels]) hgrows
  have hback : ChannelAside id payer tok u w := by
    rcases returnBalance_ok hreturn with ⟨-, rfl⟩ | ⟨-, token, -, rfl⟩
    · exact .refl u
    · have hother : ¬(id' = id ∧ payer' = payer ∧ token = tok) := fun h => hne ⟨h.2.1, h.1⟩
      refine ⟨rfl, ?_, ?_⟩
      · simp [depositedBy]
      · simp [returnedTo, hother]
  exact (hcredit.trans hback).trans (setChannel_aside hne hset)

/-! ### A call on the channel -/

theorem DepositsKept.openChannel {start : Store} {credited deposit : ℤ}
    (h : DepositsKept id payer tok start s credited) (hnone : (s.entries id).channel payer = none)
    (htok : ∀ inv ∈ (s.entries id).invoice, fundingTokenFor inv = tok)
    (hrun : openChannel env payer id deposit s = .ok (v, t)) :
    DepositsKept id payer tok start t credited := by
  obtain ⟨inv, hload, hpositive, hset⟩ := openChannel_ok hrun
  have hfunding : fundingTokenFor inv = tok := by
    obtain ⟨stored, hstored, rfl⟩ := Option.map_eq_some_iff.1 hload
    exact htok stored hstored
  obtain ⟨hchannel, hlog⟩ := setChannel_ok hset
  refine ⟨?_, ?_⟩
  · intro channel hmem
    rw [hchannel] at hmem
    cases hmem
    exact ⟨hpositive.le, le_rfl⟩
  · have hdeposits : depositedBy id payer tok t = deposit + depositedBy id payer tok s := by
      unfold depositedBy
      rw [hlog]
      simp [hfunding]
    have hreturns : returnedTo id payer tok t = returnedTo id payer tok s := by
      unfold returnedTo
      rw [hlog]
      simp
    have hbefore := h.deposits
    unfold recordedDeposit at hbefore ⊢
    rw [hnone] at hbefore
    rw [hchannel, hdeposits, hreturns]
    simp only [Option.map_none, Option.getD_none, Option.map_some, Option.getD_some] at hbefore ⊢
    linarith

theorem DepositsKept.channelPay {start : Store} {credited amount : ℤ}
    (h : DepositsKept id payer tok start s credited)
    (hrun : channelPay env payer id amount s = .ok (v, t)) :
    DepositsKept id payer tok start t credited := by
  obtain ⟨channel, hopen, hpositive, hfits, hset⟩ := channelPay_ok hrun
  obtain ⟨hchannel, hlog⟩ := setChannel_ok hset
  obtain ⟨-, hwithin⟩ := h.balance channel hopen
  refine ⟨?_, ?_⟩
  · intro channel' hmem
    rw [hchannel] at hmem
    cases hmem
    dsimp only
    constructor <;> linarith
  · have hbefore := h.deposits
    unfold recordedDeposit depositedBy returnedTo at hbefore ⊢
    rw [hopen] at hbefore
    rw [hchannel, hlog]
    exact hbefore

/-- What is credited and what is returned are the two parts of the deposit. -/
theorem DepositsKept.closeChannel {start : Store} {credited : ℤ}
    (h : DepositsKept id payer tok start s credited)
    (htok : ∀ channel ∈ (s.entries id).channel payer, 0 < channel.balance →
      ∀ inv ∈ (s.entries id).invoice, inv.tokens.head? = some tok)
    (hrun : closeChannel env payer id s = .ok (v, t)) :
    DepositsKept id payer tok start t (credited +
      (paidBy (t.entries id).payments payer - paidBy (s.entries id).payments payer)) := by
  obtain ⟨channel, inv, u, w, hopen, hload, -, hchannels, hgrows, hpaid, hreturn, hset⟩ :=
    closeChannel_ok hrun
  obtain ⟨hbalance, hwithin⟩ := h.balance channel hopen
  obtain ⟨hclosed, hlog⟩ := setChannel_ok hset
  have hcredit : ChannelAside id payer tok s u :=
    channelAside_of_grows (by rw [hchannels]) hgrows
  have hpaidEnd : paidBy (t.entries id).payments payer = paidBy (u.entries id).payments payer := by
    obtain rfl := modifyEntry_ok.1 hset
    rw [Store.setEntry_self]
    rcases returnBalance_ok hreturn with ⟨-, rfl⟩ | ⟨-, token, -, rfl⟩ <;> rfl
  have hback : depositedBy id payer tok t = depositedBy id payer tok s ∧
      returnedTo id payer tok t = returnedTo id payer tok s + channel.balance := by
    rw [← hcredit.deposits, ← hcredit.returns]
    unfold depositedBy returnedTo
    rw [hlog]
    rcases returnBalance_ok hreturn with ⟨hzero, rfl⟩ | ⟨hpositive, token, htoken, rfl⟩
    · exact ⟨rfl, by linarith⟩
    · have hsame : token = tok := by
        obtain ⟨stored, hstored, rfl⟩ := Option.map_eq_some_iff.1 hload
        have hhead := htok channel hopen hpositive stored hstored
        exact Option.some.inj (htoken.symm.trans hhead)
      simp [hsame, add_comm]
  refine ⟨?_, ?_⟩
  · intro channel' hmem
    rw [hclosed] at hmem
    cases hmem
  · have hbefore := h.deposits
    unfold recordedDeposit at hbefore ⊢
    rw [hopen] at hbefore
    rw [hclosed, hback.1, hback.2, hpaidEnd, hpaid, max_eq_left (by linarith)]
    simp only [Option.map_none, Option.getD_none, Option.map_some, Option.getD_some] at hbefore ⊢
    linarith

theorem DepositsKept.step {start : Store} {credited : ℤ} {c : Env × ChannelCall}
    (h : DepositsKept id payer tok start s credited) (hfresh : ChannelFresh id payer tok (s, credited) c)
    (hrun : channelStep c s = .ok (v, t)) :
    DepositsKept id payer tok start t (creditedNext id payer c credited s t) := by
  obtain ⟨env, call⟩ := c
  cases call with
  | openChannel payer' id' deposit =>
      by_cases hown : payer' = payer ∧ id' = id
      · obtain ⟨hnone, htok⟩ := hfresh hown
        obtain ⟨rfl, rfl⟩ := hown
        exact h.openChannel hnone htok hrun
      · exact h.aside (openChannel_aside hown hrun)
  | channelPay payer' id' amount =>
      by_cases hown : payer' = payer ∧ id' = id
      · obtain ⟨rfl, rfl⟩ := hown
        exact h.channelPay hrun
      · exact h.aside (channelPay_aside hown hrun)
  | closeChannel payer' id' =>
      unfold creditedNext
      by_cases hown : payer' = payer ∧ id' = id
      · have htok := hfresh hown
        simp only [if_pos hown]
        obtain ⟨rfl, rfl⟩ := hown
        exact h.closeChannel htok hrun
      · simp only [if_neg hown]
        exact h.aside (closeChannel_aside hown hrun)
  | elsewhere after =>
      obtain rfl := set_ok.1 hrun
      exact h.aside hfresh

/-- The deposits of a payer are conserved along every run in which the payer opens no channel
over an open one and gets a balance back in the token it was deposited in. -/
theorem channel_deposits_conserved {calls : List (Env × ChannelCall)}
    (hnone : (s.entries id).channel payer = none)
    (hcalls : Along (ChannelFresh id payer tok) (channelBookStep id payer) (s, 0) calls) :
    depositedBy id payer tok (runAll channelStep s calls) - depositedBy id payer tok s =
      (runAll (channelBookStep id payer) (s, 0) calls).2 +
        (returnedTo id payer tok (runAll channelStep s calls) - returnedTo id payer tok s) +
        recordedDeposit id payer (runAll channelStep s calls) := by
  have hstart : DepositsKept id payer tok s s 0 := by
    refine ⟨fun channel hmem => ?_, ?_⟩
    · rw [hnone] at hmem
      cases hmem
    · unfold recordedDeposit
      rw [hnone]
      simp
  have hend := runAll_induction
    (I := fun sb : Store × ℤ => DepositsKept id payer tok s sb.1 sb.2) (fun sb c a tb hkept hfresh hrun => by
      obtain ⟨u, credited⟩ := sb
      obtain ⟨w, credited'⟩ := tb
      obtain ⟨hstep, rfl⟩ := beside_ok.1 hrun
      exact hkept.step hfresh hstep) hstart hcalls
  have hruns := runAll_beside (fun c => creditedNext id payer c) channelStep s 0 calls
  have hdeposits := hend.deposits
  unfold channelBookStep at hdeposits ⊢
  rw [hruns] at hdeposits
  exact hdeposits

/-! ## Two channels -/

/-- Payer 20 deposits 40, spends 30 and closes the channel. -/
def channelRun : List (Env × ChannelCall) :=
  [(sampleEnv 10 0, .openChannel 20 1 40), (sampleEnv 11 0, .channelPay 20 1 30),
    (sampleEnv 12 0, .closeChannel 20 1)]

theorem channel_run_conserved :
    depositedBy 1 20 9 (runAll channelStep (sampleStore sampleInvoice []) channelRun) = 40 ∧
      depositedBy 1 20 9 (runAll channelStep (sampleStore sampleInvoice []) channelRun) -
          depositedBy 1 20 9 (sampleStore sampleInvoice []) =
        (runAll (channelBookStep 1 20) (sampleStore sampleInvoice [], 0) channelRun).2 +
          (returnedTo 1 20 9 (runAll channelStep (sampleStore sampleInvoice []) channelRun) -
            returnedTo 1 20 9 (sampleStore sampleInvoice [])) +
          recordedDeposit 1 20 (runAll channelStep (sampleStore sampleInvoice []) channelRun) := by
  refine ⟨by decide +kernel, channel_deposits_conserved rfl ?_⟩
  refine ⟨fun _ _ => ⟨rfl, ?_⟩, fun _ => trivial, fun _ _ => ?_, trivial⟩
  · intro inv hinv
    cases hinv
    rfl
  · intro channel _ _ inv hinv
    cases hinv
    rfl

/-- Payer 20 opens a second channel while the first one is open and closes it. -/
def channelTwice : List (Env × ChannelCall) :=
  [(sampleEnv 10 0, .openChannel 20 1 40), (sampleEnv 11 0, .openChannel 20 1 10),
    (sampleEnv 12 0, .closeChannel 20 1)]

/-- Of the 50 that were deposited, 10 come back and nothing is credited or recorded. -/
theorem second_channel_loses_deposit :
    depositedBy 1 20 9 (runAll channelStep (sampleStore sampleInvoice []) channelTwice) = 50 ∧
      (runAll (channelBookStep 1 20) (sampleStore sampleInvoice [], 0) channelTwice).2 = 0 ∧
      returnedTo 1 20 9 (runAll channelStep (sampleStore sampleInvoice []) channelTwice) = 10 ∧
      recordedDeposit 1 20 (runAll channelStep (sampleStore sampleInvoice []) channelTwice) = 0 := by
  refine ⟨?_, ?_, ?_, ?_⟩ <;> decide +kernel

end StellarSplit.Split
