import StellarSplit.Split.Credits

/-!
# What payers have paid and got back

Payments are recorded in the shards, as contributions, and in the funded
amount. A withdrawal takes the record back as well; a partial refund, a claim
and a withdrawn contribution leave it as it is, and the refunds that come later
pay from the record again. Beside a run the books keep what was credited, what
went out, and which payers were paid from a record that stayed.
-/

namespace StellarSplit.Split

open Exec Function Machine

variable {env : Env} {s t u : Store} {v : Unit} {id : ℕ} {inv start : Invoice} {p : Address}

/-! ## The calls -/

/-- The calls on one invoice that take money in or send it back. -/
inductive FundOp where
  | pay (payer : Address) (amount : ℤ) (nonce : ℕ) (donateOnFailure : Bool)
  | withdraw (payer : Address)
  | withdrawContribution (payer : Address)
  | partialRefund (creator : Address) (bps : ℕ)
  | partialRelease (creator : Address) (amount : ℤ)
  | claimRefund (payer : Address)
  | refund
  | cancelInvoice (caller : Address)
  | autoResolve
deriving DecidableEq, Repr

def fundStep (id : ℕ) (c : Env × FundOp) : SplitM Unit :=
  match c.2 with
  | .pay payer amount nonce donate => pay c.1 payer id amount nonce donate
  | .withdraw payer => withdraw c.1 id payer
  | .withdrawContribution payer => withdrawContribution c.1 payer id
  | .partialRefund creator bps => partialRefund c.1 creator id bps
  | .partialRelease creator amount => partialRelease c.1 id creator amount
  | .claimRefund payer => claimRefund c.1 payer id
  | .refund => refund c.1 id
  | .cancelInvoice caller => cancelInvoice c.1 caller id
  | .autoResolve => autoResolve c.1 id

/-! ## The books -/

/-- What is noted beside a run: what each payer and all of them were credited with, what went out,
who was paid from a record that stayed (in any way, and by a claim or a withdrawn contribution),
and the rates of the partial refunds. -/
structure Books where
  credited : Address → ℤ := fun _ => 0
  total : ℤ := 0
  out : ℤ := 0
  drawn : List Address := []
  claimed : List Address := []
  bps : ℕ := 0

/-- The token an invoice is funded in. -/
def fundingOf (id : ℕ) (s : Store) : Address := ((s.entries id).invoice.map Invoice.fundingToken).getD 0

/-- The payers with a part in a partial refund. -/
def partPayers (bps : ℕ) (payments : List Payment) : List Address :=
  ((partialParts bps payments).filter fun x => 0 < x.2).map Prod.fst

/-- The payers a call pays from the record and leaves on it. -/
def FundOp.draws (payments : List Payment) : FundOp → List Address
  | .withdrawContribution payer => [payer]
  | .claimRefund payer => if paidBy (keptPayments payments) payer = 0 then [] else [payer]
  | .partialRefund _ bps => partPayers bps payments
  | .refund => payersOf (keptPayments payments)
  | .cancelInvoice _ => payersOf payments
  | .autoResolve => payersOf payments
  | _ => []

/-- The books after a call that returned. A payment is credited with what joined the record, and
counts the payouts of a release it sets off; of the other calls everything they send counts. -/
def Books.next (b : Books) (id : ℕ) (s t : Store) (op : FundOp) : Books :=
  let draws := op.draws (s.entries id).payments
  match op with
  | .pay .. =>
      { b with
        credited := fun p => b.credited p +
          (paidBy (t.entries id).payments p - paidBy (s.entries id).payments p)
        total := b.total + (paymentsTotal t id - paymentsTotal s id)
        out := b.out + (paidOutAll id (fundingOf id s) t - paidOutAll id (fundingOf id s) s) }
  | .partialRefund _ bps =>
      { b with out := b.out + (sentFor id t - sentFor id s), drawn := draws ++ b.drawn, bps := b.bps + bps }
  | _ =>
      { b with
        out := b.out + (sentFor id t - sentFor id s)
        drawn := draws ++ b.drawn
        claimed := draws ++ b.claimed }

/-- A call with the books beside it. -/
def bookStep (id : ℕ) (c : Env × FundOp) : Call (Store × Books) SplitFault Unit := fun sb =>
  match fundStep id c sb.1 with
  | .ok (_, t) => .ok ((), (t, sb.2.next id sb.1 t c.2))
  | .error e => .error e

theorem bookStep_eq (c : Env × FundOp) :
    bookStep id c = beside (fun b s t => b.next id s t c.2) (fundStep id c) := by
  funext sb
  unfold bookStep beside
  cases fundStep id c sb.1 <;> rfl

theorem bookStep_ok {c : Env × FundOp} {b b' : Books} :
    bookStep id c (s, b) = .ok (v, (t, b')) ↔
      fundStep id c s = .ok ((), t) ∧ b' = b.next id s t c.2 := by
  rw [bookStep_eq, beside_ok]

/-- The books do not change a run. -/
theorem runAll_bookStep (calls : List (Env × FundOp)) (b : Books) :
    (runAll (bookStep id) (s, b) calls).1 = runAll (fundStep id) s calls := by
  rw [show bookStep id = _ from funext bookStep_eq]
  exact runAll_beside _ _ _ _ _

/-! ## The condition on a call -/

/-- The call pays no payer from a record the payer was paid from before, and no more than the
invoice has funded. -/
def CleanCall (id : ℕ) (b : Books) (s : Store) (c : Env × FundOp) : Prop :=
  ∀ inv, (s.entries id).load = some inv → inv.status = .pending →
    match c.2 with
    | .pay _ amount _ _ => OpenPayment c.1 s id amount
    | .withdraw payer => payer ∉ b.drawn ∧ paidBy inv.payments payer ≤ inv.funded
    | .withdrawContribution payer =>
        payer ∉ b.drawn ∧ (s.entries id).contribution payer ≤ paidBy inv.payments payer ∧
          (s.entries id).contribution payer ≤ inv.funded
    | .partialRefund _ bps =>
        b.bps + bps ≤ 10000 ∧ (∀ p ∈ partPayers bps inv.payments, p ∉ b.claimed) ∧
          positiveSum (partialParts bps inv.payments) ≤ inv.funded
    | .partialRelease _ amount => amount ≤ i128Max
    | .claimRefund payer =>
        payer ∈ inv.refundedAddresses ∨ paidBy (keptPayments inv.payments) payer = 0 ∨
          (payer ∉ b.drawn ∧ paidBy (keptPayments inv.payments) payer ≤ inv.funded)
    | .refund =>
        inv.auctionOnExpiry = true ∨ ((∀ p ∈ payersOf (keptPayments inv.payments), p ∉ b.drawn) ∧
          paymentsTotal s id ≤ inv.funded)
    | .cancelInvoice _ =>
        inv.funded ≤ 0 ∨ ((∀ p ∈ payersOf inv.payments, p ∉ b.drawn) ∧
          paymentsTotal s id ≤ inv.funded ∧ inv.insuranceFund ≤ 0)
    | .autoResolve =>
        (∃ bps, matchingRule inv = some ⟨bps, .refund⟩) ∧ (∀ p ∈ payersOf inv.payments, p ∉ b.drawn) ∧
          paymentsTotal s id ≤ inv.funded

/-! ## The invariant -/

/-- The payers' side of the books: nobody got back more than was credited, and who was not paid
from a record that stayed may still be paid what is on record. -/
structure Owed (id : ℕ) (b : Books) (s : Store) : Prop where
  recorded : Recorded (s.entries id).payments
  refunds : ∀ p, refundedTo id p s ≤ b.credited p
  undrawn : ∀ p, p ∉ b.drawn →
    refundedTo id p s + paidBy (s.entries id).payments p ≤ b.credited p
  parts : ∀ p, p ∉ b.claimed →
    10000 * (refundedTo id p s + paidBy (s.entries id).payments p - b.credited p) ≤
      b.bps * paidBy (s.entries id).payments p

/-- A pending invoice has funded what came in and did not go out. -/
structure FundsOpen (start : Invoice) (b : Books) (inv : Invoice) : Prop where
  terms : inv.terms = start.terms
  pending : inv.status = .pending
  funded : 0 ≤ inv.funded
  covered : b.out + inv.funded ≤ b.total

/-- An invoice that is not pending any more sends nothing. -/
structure FundsClosed (start : Invoice) (b : Books) (inv : Invoice) : Prop where
  settled : inv.status ≠ .pending
  auction : inv.status = .expired → inv.auctionOnExpiry = true
  covered : b.out ≤ b.total + start.bonusPool

/-- The books back what the contract has sent for the invoice. -/
structure Backed (id : ℕ) (start : Invoice) (b : Books) (s : Store) : Prop where
  owed : Owed id b s
  state : ∃ inv, (s.entries id).invoice = some inv ∧ (FundsOpen start b inv ∨ FundsClosed start b inv)

/-- Money went to payers who stay on the record. -/
structure Drew (id : ℕ) (back : Address → ℤ) (out : ℤ) (s t : Store) : Prop where
  payments : (t.entries id).payments = (s.entries id).payments
  refunds : ∀ p, refundedTo id p t = refundedTo id p s + back p
  out : sentFor id t = sentFor id s + out

theorem Sent.drew {back : Address → ℤ} {out : ℤ} (h : Sent id back out s t) :
    Drew id back out s t := by
  refine ⟨?_, h.refunds, h.out⟩
  rw [h.entries]

/-- Saving the invoice moves nothing and keeps the record. -/
theorem Drew.save {back : Address → ℤ} {out : ℤ} (h : Drew id back out s u)
    (hsave : saveInvoice env id inv u = .ok (v, t)) :
    Drew id back out s t ∧ (t.entries id).invoice = some (inv.withPayments []) := by
  obtain ⟨-, rfl⟩ := saveInvoice_ok.1 hsave
  refine ⟨⟨?_, h.refunds, h.out⟩, ?_⟩
  · rw [Store.setEntry_self]
    exact h.payments
  · rw [Store.setEntry_self]

theorem Drew.of_same {back : Address → ℤ} {out : ℤ} (h : Drew id back out s u)
    (hentries : t.entries = u.entries) (hlog : t.log = u.log) : Drew id back out s t := by
  refine ⟨?_, fun p => ?_, ?_⟩
  · rw [hentries]
    exact h.payments
  · have hrefunds := h.refunds p
    unfold refundedTo at hrefunds ⊢
    rw [hlog]
    exact hrefunds
  · have hout := h.out
    unfold sentFor at hout ⊢
    rw [hlog]
    exact hout

theorem Drew.trans {back₁ back₂ : Address → ℤ} {out₁ out₂ : ℤ} (h₁ : Drew id back₁ out₁ s t)
    (h₂ : Drew id back₂ out₂ t u) :
    Drew id (fun p => back₁ p + back₂ p) (out₁ + out₂) s u := by
  refine ⟨h₂.payments.trans h₁.payments, fun p => ?_, ?_⟩
  · rw [h₂.refunds, h₁.refunds, add_assoc]
  · rw [h₂.out, h₁.out, add_assoc]

theorem Drew.congr {back back' : Address → ℤ} {out out' : ℤ} (h : Drew id back out s t)
    (hback : ∀ p, back p = back' p) (hout : out = out') : Drew id back' out' s t := by
  obtain rfl : back = back' := funext hback
  exact hout ▸ h

/-- Paying the undrawn from the record keeps the payers' side of the books. -/
theorem Owed.draw {b b' : Books} {back : Address → ℤ} {out : ℤ} (h : Owed id b s)
    (hdrew : Drew id back out s t) (hcredited : b'.credited = b.credited) (hbps : b'.bps = b.bps)
    (hdrawn : ∀ p, p ∉ b'.drawn → p ∉ b.drawn ∧ back p = 0)
    (hclaimed : ∀ p, p ∉ b'.claimed → p ∉ b.claimed ∧ back p = 0)
    (hback : ∀ p, back p = 0 ∨ (p ∉ b.drawn ∧ back p ≤ paidBy (s.entries id).payments p)) :
    Owed id b' t := by
  refine ⟨?_, fun p => ?_, fun p hp => ?_, fun p hp => ?_⟩
  · rw [hdrew.payments]
    exact h.recorded
  · rw [hdrew.refunds, hcredited]
    rcases hback p with hzero | ⟨hundrawn, hle⟩
    · linarith [h.refunds p]
    · linarith [h.undrawn p hundrawn]
  · obtain ⟨hundrawn, hzero⟩ := hdrawn p hp
    rw [hdrew.refunds, hdrew.payments, hcredited]
    linarith [h.undrawn p hundrawn]
  · obtain ⟨hunclaimed, hzero⟩ := hclaimed p hp
    rw [hdrew.refunds, hdrew.payments, hcredited, hbps, hzero, add_zero]
    exact h.parts p hunclaimed

/-- A partial refund at a rate that the rates so far leave room for. -/
theorem Owed.drawPart {b b' : Books} {back : Address → ℤ} {out : ℤ} {bps : ℕ} (h : Owed id b s)
    (hdrew : Drew id back out s t) (hcredited : b'.credited = b.credited)
    (hbps : b'.bps = b.bps + bps) (hroom : b.bps + bps ≤ 10000)
    (hdrawn : ∀ p, p ∉ b'.drawn → p ∉ b.drawn ∧ back p = 0) (hclaimed : b'.claimed = b.claimed)
    (hback : ∀ p, back p = 0 ∨ p ∉ b.claimed)
    (hpart : ∀ p, 10000 * back p ≤ bps * paidBy (s.entries id).payments p) : Owed id b' t := by
  have hrates : ((b.bps + bps : ℕ) : ℤ) = b.bps + bps := by push_cast; rfl
  have hroom' : (b.bps : ℤ) + bps ≤ 10000 := by
    rw [← hrates]
    exact_mod_cast hroom
  refine ⟨?_, fun p => ?_, fun p hp => ?_, fun p hp => ?_⟩
  · rw [hdrew.payments]
    exact h.recorded
  · rw [hdrew.refunds, hcredited]
    rcases hback p with hzero | hunclaimed
    · linarith [h.refunds p]
    · have hrecord := paidBy_nonneg h.recorded p
      have hrate : (b.bps + bps : ℤ) * paidBy (s.entries id).payments p ≤
          10000 * paidBy (s.entries id).payments p := mul_le_mul_of_nonneg_right hroom' hrecord
      have hsofar := h.parts p hunclaimed
      have hnow := hpart p
      linarith
  · obtain ⟨hundrawn, hzero⟩ := hdrawn p hp
    rw [hdrew.refunds, hdrew.payments, hcredited]
    linarith [h.undrawn p hundrawn]
  · rw [hclaimed] at hp
    rw [hdrew.refunds, hdrew.payments, hcredited, hbps, hrates]
    have hsofar := h.parts p hp
    have hnow := hpart p
    linarith

/-! ## What the calls draw -/

theorem load_payments (hload : (s.entries id).load = some inv) :
    inv.payments = (s.entries id).payments := by
  obtain ⟨stored, -, rfl⟩ := Option.map_eq_some_iff.1 hload
  rfl

theorem withdrawContribution_drew {payer : Address}
    (hrun : withdrawContribution env payer id s = .ok (v, t)) :
    ∃ inv, (s.entries id).load = some inv ∧ inv.status = .pending ∧
      0 < (s.entries id).contribution payer ∧
      Drew id (fun p => if payer = p then (s.entries id).contribution payer else 0)
        ((s.entries id).contribution payer) s t ∧
      (t.entries id).invoice = some ((inv.withFunded
        (satSubI128 inv.funded ((s.entries id).contribution payer))).withPayments []) := by
  simp only [withdrawContribution, requireAuth_bind, loadInvoice_bind, require_bind, getEntry_bind] at hrun
  obtain ⟨-, inv, hload, hpending, hpositive, hrun⟩ := hrun
  obtain ⟨_, u₁, hmodify, hrun⟩ := bind_ok.1 hrun
  obtain ⟨_, u₂, hsave, htransfer⟩ := bind_ok.1 hrun
  obtain rfl := modifyEntry_ok.1 hmodify
  have hcleared : Drew id (fun _ => 0) 0 s (s.setEntry id { s.entries id with
      contribution := update (s.entries id).contribution payer 0 }) := by
    refine ⟨?_, fun _ => (add_zero _).symm, (add_zero _).symm⟩
    rw [Store.setEntry_self]
    rfl
  obtain ⟨hsaved, hstored⟩ := hcleared.save hsave
  have hsent := sent_refund htransfer
  refine ⟨inv, hload, hpending, hpositive, ?_, ?_⟩
  · exact (hsaved.trans hsent.drew).congr (fun _ => by simp) (by simp)
  · rw [hsent.entries]
    exact hstored

theorem partialRefund_drew {creator : Address} {bps : ℕ} (hrecorded : Recorded (s.entries id).payments)
    (hrun : partialRefund env creator id bps s = .ok (v, t)) :
    ∃ inv, (s.entries id).load = some inv ∧ inv.status = .pending ∧ bps ≤ 10000 ∧
      Drew id (sumTo (partialParts bps inv.payments)) (positiveSum (partialParts bps inv.payments)) s t ∧
      (t.entries id).invoice = some ((inv.withFunded
        (inv.funded - positiveSum (partialParts bps inv.payments))).withPayments []) := by
  simp only [partialRefund, requireNotPaused_bind, requireAuth_bind, loadInvoice_bind, require_bind,
    orPanic_bind] at hrun
  obtain ⟨-, -, inv, hload, -, hpending, hbps, -, token, -, hrun⟩ := hrun
  obtain ⟨_, u, hrefund, hrun⟩ := bind_ok.1 hrun
  obtain ⟨funded, hfunded, hsave⟩ := orPanic_bind.1 hrun
  obtain rfl : funded = inv.funded - positiveSum (partialParts bps inv.payments) :=
    checkedSubI128_eq hfunded
  have hparts : ∀ x ∈ partialParts bps inv.payments, 0 ≤ x.2 := by
    intro x hx
    obtain ⟨q, hq, rfl⟩ := List.mem_map.1 hx
    rw [load_payments hload] at hq
    exact (partialAmount_bounds (hrecorded q hq) hbps).1
  have hsent := refundPositive_sent hparts hrefund
  rw [← positiveSum_eq hparts] at hsent
  obtain ⟨hsaved, hstored⟩ := hsent.drew.save hsave
  exact ⟨inv, hload, hpending, hbps, hsaved, hstored⟩

theorem partialRelease_drew {creator : Address} {amount : ℤ} (hword : amount ≤ i128Max)
    (hwords : ∀ inv, (s.entries id).load = some inv → WordAmounts inv)
    (hrun : partialRelease env id creator amount s = .ok (v, t)) :
    ∃ inv out, (s.entries id).load = some inv ∧ inv.status = .pending ∧ amount ≤ inv.funded ∧
      out ≤ amount ∧ Drew id (fun _ => 0) out s t ∧
      (t.entries id).invoice = some ((inv.withFunded (inv.funded - amount)).withPayments []) := by
  simp only [partialRelease, requireNotPaused_bind, requireAuth_bind, loadInvoice_bind, require_bind,
    orPanic_bind] at hrun
  obtain ⟨-, -, inv, hload, -, -, -, hpending, hpositive, hle, token, -, hrun⟩ := hrun
  obtain ⟨_, u, hpay, hsave⟩ := bind_ok.1 hrun
  obtain ⟨out, hsent, hout⟩ := payPartialRelease_sent (hwords inv hload) ⟨hpositive.le, hword⟩ hpay
  obtain ⟨hsaved, hstored⟩ := hsent.drew.save hsave
  exact ⟨inv, out, hload, hpending, hle, hout, hsaved, hstored⟩

/-- A claim pays the kept payments of the payer, or does nothing. -/
theorem claimRefund_drew {payer : Address} (hrun : claimRefund env payer id s = .ok (v, t)) :
    t = s ∨ ∃ inv, (s.entries id).load = some inv ∧ inv.status = .pending ∧
      payer ∉ inv.refundedAddresses ∧ paidBy (keptPayments inv.payments) payer ≠ 0 ∧
      Drew id (fun p => if payer = p then paidBy (keptPayments inv.payments) payer else 0)
        (paidBy (keptPayments inv.payments) payer) s t ∧
      (t.entries id).invoice = some (((inv.markRefunded payer).withFunded
        (satSubI128 inv.funded (paidBy (keptPayments inv.payments) payer))).withPayments []) := by
  simp only [claimRefund, requireFnNotPaused_bind, requireAuth_bind, loadInvoice_bind] at hrun
  obtain ⟨-, -, inv, hload, hrun⟩ := hrun
  rcases onlyIf_ok.1 hrun with ⟨hpending, hrun⟩ | ⟨-, rfl⟩
  · simp only [require_bind] at hrun
    obtain ⟨-, -, hrun⟩ := hrun
    rcases onlyIf_ok.1 hrun with ⟨hfirst, hrun⟩ | ⟨-, rfl⟩
    · rw [payClaim, getEntry_bind] at hrun
      rw [← load_payments hload] at hrun
      rcases onlyIf_ok.1 hrun with ⟨hsome, hrun⟩ | ⟨-, rfl⟩
      · obtain ⟨token, -, hrun⟩ := orPanic_bind.1 hrun
        obtain ⟨_, u, htransfer, hsave⟩ := bind_ok.1 hrun
        obtain ⟨hsaved, hstored⟩ := (sent_refund htransfer).drew.save hsave
        exact .inr ⟨inv, hload, hpending, hfirst, hsome, hsaved, hstored⟩
      · exact .inl rfl
    · exact .inl rfl
  · exact .inl rfl

theorem Entry.dropPayer_payments (e : Entry) (payer : Address) :
    (e.dropPayer payer).payments = e.payments.filter fun q => q.payer ≠ payer := by
  unfold Entry.dropPayer Entry.payments
  rw [List.filter_flatMap]

/-- A withdrawal pays the payer what is on record and takes it off. -/
theorem withdraw_ok {payer : Address} (hrun : withdraw env id payer s = .ok (v, t)) :
    ∃ inv, (s.entries id).load = some inv ∧ inv.status = .pending ∧
      (t.entries id).payments = (s.entries id).payments.filter (fun q => q.payer ≠ payer) ∧
      (∀ p, refundedTo id p t = refundedTo id p s +
        if payer = p then paidBy (s.entries id).payments payer else 0) ∧
      sentFor id t = sentFor id s + paidBy (s.entries id).payments payer ∧
      (t.entries id).invoice = some ((inv.withFunded
        (inv.funded - paidBy (s.entries id).payments payer)).withPayments []) := by
  simp only [withdraw, requireAuth_bind, loadInvoice_bind, require_bind] at hrun
  obtain ⟨-, inv, hload, -, -, hpending, -, hrun⟩ := hrun
  rw [load_payments hload] at hrun
  obtain ⟨_, u₁, hdrop, hrun⟩ := bind_ok.1 hrun
  obtain ⟨token, -, hrun⟩ := orPanic_bind.1 hrun
  obtain ⟨_, u₂, htransfer, hsave⟩ := bind_ok.1 hrun
  obtain rfl := modifyEntry_ok.1 hdrop
  obtain ⟨hsaved, hstored⟩ := (sent_refund htransfer).drew.save hsave
  refine ⟨inv, hload, hpending, ?_, hsaved.refunds, hsaved.out, hstored⟩
  rw [hsaved.payments, Store.setEntry_self]
  exact Entry.dropPayer_payments _ _

theorem returnBonus_sent {token : Address} (hbonus : 0 ≤ inv.bonusPool)
    (hrun : returnBonus env id inv token s = .ok (v, t)) :
    Sent id (fun _ => 0) inv.bonusPool s t := sent_positive hbonus (by simp) hrun

/-- A call that neither writes an entry nor moves anything. -/
theorem Drew.quiet {α : Type} {x : SplitM α} {a : α} {back : Address → ℤ} {out : ℤ}
    (h : Drew id back out s u) (hx : Framed (Frame Set.univ ∅ noMemo) x) (hrun : x u = .ok (a, t)) :
    Drew id back out s t ∧ t.entries = u.entries := by
  obtain ⟨hentries, hlog⟩ := quiet_of_framed hx hrun
  exact ⟨h.of_same hentries hlog, hentries⟩

/-- A refund sends the kept payments back and the donated ones and the bonus to the creator. -/
theorem refundPayers_drew (hrecorded : Recorded (s.entries id).payments) (hbonus : 0 ≤ inv.bonusPool)
    (hrun : refundPayers env id inv s = .ok (v, t)) :
    Drew id (paidBy (keptPayments (s.entries id).payments))
        (paymentsTotal s id + inv.bonusPool) s t ∧
      (t.entries id).invoice = some ((inv.completed .refunded env.now).withPayments []) := by
  unfold refundPayers at hrun
  obtain ⟨token, -, hrun⟩ := orPanic_bind.1 hrun
  rw [getEntry_bind] at hrun
  obtain ⟨_, u₁, hrefund, hrun⟩ := bind_ok.1 hrun
  obtain ⟨_, u₂, hdonate, hrun⟩ := bind_ok.1 hrun
  obtain ⟨_, u₃, hsave, hrun⟩ := bind_ok.1 hrun
  have hdonated : 0 ≤ sumOf (totalsOf (donatedPayments (s.entries id).payments)) := by
    rw [sumOf_totalsOf]
    apply List.sum_nonneg
    intro x hx
    obtain ⟨q, hq, rfl⟩ := List.mem_map.1 hx
    exact hrecorded q (List.mem_of_mem_filter hq)
  have hkept := refundPositive_sent (totalsOf_nonneg (hrecorded.filter _)) hrefund
  have hgiven := sent_positive (by linarith) (by simp) hdonate
  obtain ⟨hsaved, hstored⟩ := (hkept.trans hgiven).drew.save hsave
  have hrest : Framed (Frame Set.univ ∅ noMemo) (do
      notifyInvoice env inv
      maybeRecordRefunded env
      addTotalRefunded (positiveSum (totalsOf (keptPayments (s.entries id).payments)))
      countRefunded inv.creator) := inferInstance
  obtain ⟨hdone, hentries⟩ := hsaved.quiet hrest hrun
  refine ⟨hdone.congr (fun p => ?_) ?_, ?_⟩
  · rw [sumTo_totalsOf, add_zero]
    rfl
  · have hsum := sum_kept_donated (s.entries id).payments
    rw [sumOf_totalsOf, sumOf_totalsOf]
    unfold paymentsTotal
    unfold keptPayments at hsum
    linarith
  · rw [hentries]
    exact hstored

theorem Drew.refl (id : ℕ) (s : Store) : Drew id (fun _ => 0) 0 s s := (Sent.refl id s).drew

/-- A refund starts the auction, or pays everyone back. -/
theorem refund_drew (hrecorded : Recorded (s.entries id).payments)
    (hrun : refund env id s = .ok (v, t)) :
    ∃ inv, (s.entries id).load = some inv ∧ (lazilyExpired env inv).status = .expired ∧
      ((inv.auctionOnExpiry = true ∧ Drew id (fun _ => 0) 0 s t ∧ ∃ n, (t.entries id).invoice =
          some (((lazilyExpired env inv).withAuctionEnd n).withPayments [])) ∨
        (inv.auctionOnExpiry ≠ true ∧ (0 ≤ inv.bonusPool →
          Drew id (paidBy (keptPayments (s.entries id).payments))
              (paymentsTotal s id + inv.bonusPool) s t ∧
            (t.entries id).invoice =
              some (((lazilyExpired env inv).completed .refunded env.now).withPayments [])))) := by
  unfold refund at hrun
  obtain ⟨_, _, hlock, hrun⟩ := bind_ok.1 hrun
  obtain ⟨-, rfl⟩ := acquireLock_ok.1 hlock
  simp only [requireFnNotPaused_bind, loadInvoice_bind, require_bind] at hrun
  obtain ⟨-, inv, hload, -, hexpired, hrun⟩ := hrun
  have hlocked : Drew id (fun _ => 0) 0 s (s.withLock true) := (Drew.refl id s).of_same rfl rfl
  refine ⟨inv, hload, hexpired, ?_⟩
  split at hrun
  · rename_i hauction
    unfold startAuction at hrun
    split at hrun
    · obtain ⟨hsaved, hstored⟩ := hlocked.save hrun
      exact .inl ⟨hauction, hsaved, _, hstored⟩
    · obtain ⟨-, hrun⟩ := require_bind.1 hrun
      exact (throw_ok.1 hrun).elim
  · rename_i hauction
    obtain ⟨_, u, hpay, hunlock⟩ := bind_ok.1 hrun
    have hpool : (lazilyExpired env inv).bonusPool = inv.bonusPool := by
      unfold lazilyExpired
      split <;> rfl
    refine .inr ⟨hauction, fun hbonus => ?_⟩
    rw [← hpool] at hbonus
    obtain ⟨hpaid, hstored⟩ := refundPayers_drew (s := s.withLock true) hrecorded hbonus hpay
    obtain ⟨hdone, hentries⟩ := hpaid.quiet inferInstance hunlock
    refine ⟨?_, ?_⟩
    · rw [← hpool]
      exact (hlocked.trans hdone).congr (fun _ => zero_add _) (zero_add _)
    · rw [hentries]
      exact hstored

theorem refundAll_drew {token : Address}
    (hrun : refundTotals env id token (totalsOf (s.entries id).payments) s = .ok (v, t)) :
    Drew id (paidBy (s.entries id).payments) (paymentsTotal s id) s t := by
  refine (refundTotals_sent hrun).drew.congr (fun p => sumTo_totalsOf _ p) ?_
  exact sumOf_totalsOf _

theorem cancelFunded_drew (hnone : inv.insuranceFund ≤ 0) (hbonus : 0 ≤ inv.bonusPool)
    (hrun : cancelFunded env id inv s = .ok (v, t)) :
    Drew id (paidBy (s.entries id).payments) (paymentsTotal s id + inv.bonusPool) s t := by
  unfold cancelFunded at hrun
  obtain ⟨token, -, hrun⟩ := orPanic_bind.1 hrun
  simp only [aggregateShardPayments, bind_assoc, getEntry_bind, pure_bind] at hrun
  obtain ⟨_, u₁, hrefund, hrun⟩ := bind_ok.1 hrun
  obtain ⟨_, u₂, hreturn, hrun⟩ := bind_ok.1 hrun
  have hsent : Sent id (sumTo (totalsOf (s.entries id).payments))
      (sumOf (totalsOf (s.entries id).payments)) s u₁ := by
    refine sent_forM (fun x _ w _ w' hone => ?_) hrefund
    obtain ⟨amount, hamount, hone⟩ := ofResult_bind.1 hone
    unfold refundWithPremium at hamount
    rw [if_neg (by omega)] at hamount
    obtain rfl := Except.ok.inj hamount
    exact sent_refund hone
  have hreturned := returnBonus_sent hbonus hreturn
  have hrest : Framed (Frame Set.univ ∅ noMemo) (do
      maybeRecordRefunded env
      addTotalRefunded (sumOf (totalsOf (s.entries id).payments))) := inferInstance
  obtain ⟨hdone, -⟩ := (hsent.trans hreturned).drew.quiet hrest hrun
  refine hdone.congr (fun p => ?_) ?_
  · rw [sumTo_totalsOf, add_zero]
  · rw [sumOf_totalsOf]
    rfl

theorem cancelUnfunded_drew (hbonus : 0 ≤ inv.bonusPool)
    (hrun : cancelUnfunded env id inv s = .ok (v, t)) :
    Drew id (fun _ => 0) inv.bonusPool s t := by
  rcases onlyIf_ok.1 hrun with ⟨-, hrun⟩ | ⟨hzero, rfl⟩
  · obtain ⟨token, -, hrun⟩ := orPanic_bind.1 hrun
    exact (returnBonus_sent hbonus hrun).drew
  · have hnone : inv.bonusPool = 0 := le_antisymm (not_lt.1 hzero) hbonus
    exact (Drew.refl id s).congr (fun _ => rfl) hnone.symm

/-- A cancellation of an invoice without insurance pays back what is on record, or only the bonus
when nothing is funded. -/
theorem cancelInvoice_drew {caller : Address}
    (hbonus : ∀ inv, (s.entries id).load = some inv → 0 ≤ inv.bonusPool)
    (hrun : cancelInvoice env caller id s = .ok (v, t)) :
    ∃ inv, (s.entries id).load = some inv ∧ inv.status = .pending ∧
      (t.entries id).invoice = some ((cancelled inv).withPayments []) ∧
      (0 < inv.funded → inv.insuranceFund ≤ 0 →
        Drew id (paidBy (s.entries id).payments) (paymentsTotal s id + inv.bonusPool) s t) ∧
      (inv.funded ≤ 0 → Drew id (fun _ => 0) inv.bonusPool s t) := by
  unfold cancelInvoice at hrun
  obtain ⟨_, _, hlock, hrun⟩ := bind_ok.1 hrun
  obtain ⟨-, rfl⟩ := acquireLock_ok.1 hlock
  simp only [requireNotPaused_bind, requireAuth_bind, loadInvoice_bind, require_bind] at hrun
  obtain ⟨-, -, inv, hload, -, hpending, -, hrun⟩ := hrun
  obtain ⟨_, u₁, hauthorize, hrun⟩ := bind_ok.1 hrun
  obtain rfl := eq_of_framed hauthorize
  obtain ⟨_, u₂, hrate, hrun⟩ := bind_ok.1 hrun
  obtain rfl := eq_of_framed hrate
  obtain ⟨_, u₃, hrefunds, hrun⟩ := bind_ok.1 hrun
  obtain ⟨_, u₄, hsave, hrun⟩ := bind_ok.1 hrun
  have hlocked : Drew id (fun _ => 0) 0 s (s.withLock true) := (Drew.refl id s).of_same rfl rfl
  have hrest : Framed (Frame Set.univ ∅ noMemo) (do
      countCancel env inv.creator caller
      removeLock) := inferInstance
  have hend : ∀ {back : Address → ℤ} {out : ℤ}, Drew id back out (s.withLock true) u₃ →
      Drew id back out s t ∧ (t.entries id).invoice = some ((cancelled inv).withPayments []) := by
    intro back out hdrew
    obtain ⟨hsaved, hstored⟩ := hdrew.save hsave
    obtain ⟨hdone, hentries⟩ := hsaved.quiet hrest hrun
    refine ⟨(hlocked.trans hdone).congr (fun _ => zero_add _) (zero_add _), ?_⟩
    rw [hentries]
    exact hstored
  have hstored : (t.entries id).invoice = some ((cancelled inv).withPayments []) := by
    obtain ⟨-, rfl⟩ := saveInvoice_ok.1 hsave
    obtain ⟨hentries, -⟩ := quiet_of_framed hrest hrun
    rw [hentries, Store.setEntry_self]
  refine ⟨inv, hload, hpending, hstored, fun hfunded hnone => ?_, fun hfunded => ?_⟩
  · rw [cancelRefunds, if_pos hfunded] at hrefunds
    exact (hend (cancelFunded_drew hnone (hbonus inv hload) hrefunds)).1
  · rw [cancelRefunds, if_neg (not_lt.2 hfunded)] at hrefunds
    exact (hend (cancelUnfunded_drew (hbonus inv hload) hrefunds)).1

theorem autoResolve_drew (hrun : autoResolve env id s = .ok (v, t)) :
    ∃ inv, (s.entries id).load = some inv ∧ inv.status = .pending ∧
      ((∃ bps, matchingRule inv = some ⟨bps, .refund⟩) →
        Drew id (paidBy (s.entries id).payments) (paymentsTotal s id) s t ∧
          (t.entries id).invoice = some ((inv.completed .refunded env.now).withPayments [])) := by
  simp only [autoResolve, requireNotPaused_bind, loadInvoice_bind, require_bind] at hrun
  obtain ⟨-, inv, hload, hpending, -, -, -, hrun⟩ := hrun
  refine ⟨inv, hload, hpending, ?_⟩
  rintro ⟨bps, hrule⟩
  rw [applyRule, hrule] at hrun
  change resolveByRefund env id inv s = .ok (v, t) at hrun
  unfold resolveByRefund at hrun
  rw [load_payments hload] at hrun
  obtain ⟨token, -, hrun⟩ := orPanic_bind.1 hrun
  obtain ⟨_, u₁, hrefund, hrun⟩ := bind_ok.1 hrun
  obtain ⟨_, u₂, hsave, hrun⟩ := bind_ok.1 hrun
  obtain ⟨hsaved, hstored⟩ := (refundAll_drew hrefund).save hsave
  have hrest : Framed (Frame Set.univ ∅ noMemo) (do
      maybeRecordRefunded env
      notifyInvoice env inv
      addTotalRefunded (sumOf (totalsOf (s.entries id).payments))) := inferInstance
  obtain ⟨hdone, hentries⟩ := hsaved.quiet hrest hrun
  refine ⟨hdone, ?_⟩
  rw [hentries]
  exact hstored

/-! ## One call -/

section Steps

variable {b : Books}

/-- The stored invoice is the loaded one without its payments. -/
theorem Backed.opened (h : Backed id start b s) (hload : (s.entries id).load = some inv)
    (hpending : inv.status = .pending) : FundsOpen start b inv := by
  obtain ⟨stored, hstored, hfunds⟩ := h.state
  obtain ⟨stored', hstored', rfl⟩ := Option.map_eq_some_iff.1 hload
  obtain rfl : stored = stored' := Option.some.inj (hstored.symm.trans hstored')
  rcases hfunds with hopen | hclosed
  · exact ⟨hopen.terms, hopen.pending, hopen.funded, hopen.covered⟩
  · exact absurd hpending hclosed.settled

theorem Owed.nextDraw {back : Address → ℤ} {out : ℤ} (h : Owed id b s) (op : FundOp)
    (hdrew : Drew id back out s t)
    (hnext : b.next id s t op = { b with
      out := b.out + (sentFor id t - sentFor id s)
      drawn := op.draws (s.entries id).payments ++ b.drawn
      claimed := op.draws (s.entries id).payments ++ b.claimed })
    (hback : ∀ p, back p = 0 ∨ (p ∈ op.draws (s.entries id).payments ∧ p ∉ b.drawn ∧
      back p ≤ paidBy (s.entries id).payments p)) :
    Owed id (b.next id s t op) t ∧ (b.next id s t op).out = b.out + out ∧
      (b.next id s t op).total = b.total := by
  rw [hnext]
  have hzero : ∀ p, p ∉ op.draws (s.entries id).payments → back p = 0 := fun p hp =>
    (hback p).resolve_right fun hdrawn => hp hdrawn.1
  refine ⟨h.draw hdrew rfl rfl (fun p hp => ?_) (fun p hp => ?_) fun p => ?_, ?_, rfl⟩
  · have hboth := not_or.1 (mt List.mem_append.2 hp)
    exact ⟨hboth.2, hzero p hboth.1⟩
  · have hboth := not_or.1 (mt List.mem_append.2 hp)
    exact ⟨hboth.2, hzero p hboth.1⟩
  · exact (hback p).imp_right And.right
  · dsimp only
    rw [hdrew.out]
    ring

theorem FundsOpen.lower {b' : Books} {out x funded : ℤ} {after : Invoice} (h : FundsOpen start b inv)
    (hterms : after.terms = inv.terms) (hstatus : after.status = inv.status)
    (hfunded : after.funded = funded) (hnonneg : 0 ≤ funded) (hle : funded ≤ inv.funded - x)
    (hx : out ≤ x) (hout : b'.out = b.out + out) (htotal : b'.total = b.total) :
    FundsOpen start b' after := by
  refine ⟨hterms.trans h.terms, hstatus.trans h.pending, ?_, ?_⟩
  · rw [hfunded]
    exact hnonneg
  · rw [hout, htotal, hfunded]
    linarith [h.covered]

theorem satSubI128_bounds {a x : ℤ} (h : 0 ≤ a - x) : 0 ≤ satSubI128 a x ∧ satSubI128 a x ≤ a - x := by
  unfold satSubI128 i128Min i128Max
  omega

theorem Backed.withdrawContribution {payer : Address} (h : Backed id start b s)
    (hclean : CleanCall id b s (env, .withdrawContribution payer))
    (hrun : Split.withdrawContribution env payer id s = .ok (v, t)) :
    Backed id start (b.next id s t (.withdrawContribution payer)) t := by
  obtain ⟨inv, hload, hpending, hpositive, hdrew, hstored⟩ := withdrawContribution_drew hrun
  obtain ⟨hundrawn, hrecord, hfunded⟩ := hclean inv hload hpending
  rw [load_payments hload] at hrecord
  have hopen := h.opened hload hpending
  obtain ⟨howed, hout, htotal⟩ := h.owed.nextDraw (.withdrawContribution payer) hdrew rfl fun p => by
    by_cases hp : payer = p
    · subst hp
      exact .inr ⟨List.mem_singleton_self _, hundrawn, by simpa using hrecord⟩
    · exact .inl (if_neg hp)
  obtain ⟨hnonneg, hle⟩ := satSubI128_bounds (a := inv.funded)
    (x := (s.entries id).contribution payer) (by linarith)
  refine ⟨howed, _, hstored, .inl ?_⟩
  exact hopen.lower rfl rfl rfl hnonneg hle le_rfl hout htotal

theorem Backed.claimRefund {payer : Address} (h : Backed id start b s)
    (hclean : CleanCall id b s (env, .claimRefund payer))
    (hrun : Split.claimRefund env payer id s = .ok (v, t)) :
    Backed id start (b.next id s t (.claimRefund payer)) t := by
  rcases claimRefund_drew hrun with rfl | ⟨inv, hload, hpending, hfirst, hsome, hdrew, hstored⟩
  · obtain ⟨howed, hout, htotal⟩ := h.owed.nextDraw (.claimRefund payer) (Drew.refl id t) rfl
      fun p => .inl rfl
    obtain ⟨inv, hinv, hfunds⟩ := h.state
    refine ⟨howed, inv, hinv, ?_⟩
    rw [add_zero] at hout
    rcases hfunds with hopen | hclosed
    · refine .inl ⟨hopen.terms, hopen.pending, hopen.funded, ?_⟩
      rw [hout, htotal]
      exact hopen.covered
    · refine .inr ⟨hclosed.settled, hclosed.auction, ?_⟩
      rw [hout, htotal]
      exact hclosed.covered
  · obtain ⟨hundrawn, hfunded⟩ : payer ∉ b.drawn ∧
        paidBy (keptPayments inv.payments) payer ≤ inv.funded := by
      rcases hclean inv hload hpending with hclaimed | hzero | hboth
      · exact absurd hclaimed hfirst
      · exact absurd hzero hsome
      · exact hboth
    have hpayments := load_payments hload
    have hopen := h.opened hload hpending
    obtain ⟨howed, hout, htotal⟩ := h.owed.nextDraw (.claimRefund payer) hdrew rfl fun p => by
      by_cases hp : payer = p
      · subst hp
        refine .inr ⟨?_, hundrawn, ?_⟩
        · rw [← hpayments, FundOp.draws, if_neg hsome]
          exact List.mem_singleton_self _
        · rw [if_pos rfl, hpayments]
          exact paidBy_filter_le h.owed.recorded _ _
      · exact .inl (if_neg hp)
    obtain ⟨hnonneg, hle⟩ := satSubI128_bounds (a := inv.funded)
      (x := paidBy (keptPayments inv.payments) payer) (by linarith)
    refine ⟨howed, _, hstored, .inl ?_⟩
    exact hopen.lower (by simp) rfl rfl hnonneg hle le_rfl hout htotal

theorem paidBy_drop (payments : List Payment) (payer p : Address) :
    paidBy (payments.filter fun q => q.payer ≠ payer) p =
      if payer = p then 0 else paidBy payments p := by
  unfold paidBy
  rw [List.filter_filter]
  split_ifs with hp
  · subst hp
    rw [List.filter_eq_nil_iff.2]
    · rfl
    · intro q _
      simp
  · congr 2
    apply List.filter_congr
    intro q _
    by_cases hq : q.payer = p
    · simp [hq, Ne.symm hp]
    · simp [hq]

theorem Backed.withdraw {payer : Address} (h : Backed id start b s)
    (hclean : CleanCall id b s (env, .withdraw payer))
    (hrun : Split.withdraw env id payer s = .ok (v, t)) :
    Backed id start (b.next id s t (.withdraw payer)) t := by
  obtain ⟨inv, hload, hpending, hpayments, hrefunds, hsent, hstored⟩ := withdraw_ok hrun
  obtain ⟨hundrawn, hfunded⟩ := hclean inv hload hpending
  rw [load_payments hload] at hfunded
  have hopen := h.opened hload hpending
  have hrecord : ∀ p, paidBy (t.entries id).payments p =
      if payer = p then 0 else paidBy (s.entries id).payments p := by
    intro p
    rw [hpayments, paidBy_drop]
  refine ⟨⟨?_, fun p => ?_, fun p hp => ?_, fun p hp => ?_⟩, _, hstored, .inl ?_⟩
  · rw [hpayments]
    exact h.owed.recorded.filter _
  · change refundedTo id p t ≤ b.credited p
    rw [hrefunds]
    split_ifs with heq
    · subst heq
      exact h.owed.undrawn payer hundrawn
    · rw [add_zero]
      exact h.owed.refunds p
  · change p ∉ b.drawn at hp
    change refundedTo id p t + paidBy (t.entries id).payments p ≤ b.credited p
    rw [hrefunds, hrecord]
    split_ifs with heq
    · subst heq
      rw [add_zero]
      exact h.owed.undrawn payer hundrawn
    · rw [add_zero]
      exact h.owed.undrawn p hp
  · change p ∉ b.claimed at hp
    change 10000 * (refundedTo id p t + paidBy (t.entries id).payments p - b.credited p) ≤
      b.bps * paidBy (t.entries id).payments p
    rw [hrefunds, hrecord]
    split_ifs with heq
    · subst heq
      have hpaid := h.owed.undrawn payer hundrawn
      linarith
    · rw [add_zero]
      exact h.owed.parts p hp
  · refine hopen.lower (x := paidBy (s.entries id).payments payer) rfl rfl rfl
      (sub_nonneg.2 hfunded) le_rfl le_rfl ?_ rfl
    change b.out + (sentFor id t - sentFor id s) = _
    rw [hsent]
    ring

theorem mem_partPayers {bps : ℕ} {payments : List Payment} (h : sumTo (partialParts bps payments) p ≠ 0)
    (hrecorded : Recorded payments) (hbps : bps ≤ 10000) : p ∈ partPayers bps payments := by
  by_contra hnone
  refine h (List.sum_eq_zero fun y hy => ?_)
  obtain ⟨x, hx, rfl⟩ := List.mem_map.1 hy
  split_ifs with hxp
  · obtain ⟨q, hq, rfl⟩ := List.mem_map.1 hx
    have hnonneg := (partialAmount_bounds (hrecorded q hq) hbps).1
    by_contra hne
    have hpositive : 0 < partialAmount bps q := lt_of_le_of_ne hnonneg (Ne.symm hne)
    refine hnone (List.mem_map.2 ⟨_, List.mem_filter.2 ⟨hx, by simpa using hpositive⟩, hxp⟩)
  · rfl

/-- The parts of a payer are at most the rate of what is on record. -/
theorem sumTo_partialParts_rate {bps : ℕ} {payments : List Payment} (hrecorded : Recorded payments)
    (p : Address) : 10000 * sumTo (partialParts bps payments) p ≤ bps * paidBy payments p := by
  induction payments with
  | nil => simp [partialParts, sumTo, paidBy]
  | cons q payments ih =>
      have hrest := ih fun q' hq' => hrecorded q' (List.mem_cons_of_mem q hq')
      have hq : 0 ≤ q.amount := hrecorded q (by simp)
      have hpart : 10000 * partialAmount bps q ≤ bps * q.amount := by
        have hprod : 0 ≤ q.amount * bps := mul_nonneg hq (Int.natCast_nonneg bps)
        unfold partialAmount
        rw [Int.tdiv_eq_ediv_of_nonneg hprod, mul_comm (bps : ℤ)]
        exact Int.mul_ediv_self_le (by norm_num)
      rw [partialParts, List.map_cons, sumTo_cons, paidBy_cons]
      unfold partialParts at hrest
      dsimp only
      split_ifs <;> linarith

theorem Backed.partialRefund {creator : Address} {bps : ℕ} (h : Backed id start b s)
    (hclean : CleanCall id b s (env, .partialRefund creator bps))
    (hrun : Split.partialRefund env creator id bps s = .ok (v, t)) :
    Backed id start (b.next id s t (.partialRefund creator bps)) t := by
  obtain ⟨inv, hload, hpending, hbps, hdrew, hstored⟩ := partialRefund_drew h.owed.recorded hrun
  obtain ⟨hroom, hunclaimed, hfunded⟩ := hclean inv hload hpending
  have hpayments := load_payments hload
  rw [hpayments] at hdrew hunclaimed
  have hopen := h.opened hload hpending
  have hmem : ∀ p, sumTo (partialParts bps (s.entries id).payments) p = 0 ∨
      p ∈ partPayers bps (s.entries id).payments := fun p => by
    by_cases hzero : sumTo (partialParts bps (s.entries id).payments) p = 0
    · exact .inl hzero
    · exact .inr (mem_partPayers hzero h.owed.recorded hbps)
  refine ⟨h.owed.drawPart hdrew rfl rfl hroom (fun p hp => ?_) rfl (fun p => ?_) fun p => ?_, _, hstored,
    .inl ?_⟩
  · have hboth := not_or.1 (mt List.mem_append.2 hp)
    exact ⟨hboth.2, (hmem p).resolve_right hboth.1⟩
  · exact (hmem p).imp_right (hunclaimed p)
  · exact sumTo_partialParts_rate h.owed.recorded p
  · refine hopen.lower (x := positiveSum (partialParts bps inv.payments)) rfl rfl rfl
      (sub_nonneg.2 hfunded) le_rfl le_rfl ?_ rfl
    change b.out + (sentFor id t - sentFor id s) = _
    rw [hdrew.out, hpayments]
    ring

theorem WordAmounts.of_terms (h : WordAmounts start) (hterms : inv.terms = start.terms) :
    WordAmounts inv := by
  have hamounts : inv.amounts = start.amounts := by
    have hfield := congrArg Invoice.amounts hterms
    exact hfield
  refine ⟨?_, ?_⟩
  · rw [hamounts]
    exact h.nonneg
  · have htotal : inv.total = start.total := congrArg List.sum hamounts
    rw [htotal]
    exact h.total

theorem Backed.partialRelease {creator : Address} {amount : ℤ} (hwords : WordAmounts start)
    (h : Backed id start b s) (hclean : CleanCall id b s (env, .partialRelease creator amount))
    (hrun : Split.partialRelease env id creator amount s = .ok (v, t)) :
    Backed id start (b.next id s t (.partialRelease creator amount)) t := by
  obtain ⟨inv, hload, hpending⟩ : ∃ inv, (s.entries id).load = some inv ∧ inv.status = .pending := by
    simp only [Split.partialRelease, requireNotPaused_bind, requireAuth_bind, loadInvoice_bind,
      require_bind] at hrun
    obtain ⟨-, -, inv, hload, -, -, -, hpending, -⟩ := hrun
    exact ⟨inv, hload, hpending⟩
  have hopen := h.opened hload hpending
  have hamounts : ∀ inv', (s.entries id).load = some inv' → WordAmounts inv' := by
    intro inv' hload'
    obtain rfl : inv = inv' := Option.some.inj (hload.symm.trans hload')
    exact hwords.of_terms hopen.terms
  obtain ⟨inv', out, hload', -, hle, hout, hdrew, hstored⟩ :=
    partialRelease_drew (hclean inv hload hpending) hamounts hrun
  obtain rfl : inv = inv' := Option.some.inj (hload.symm.trans hload')
  obtain ⟨howed, hsum, htotal⟩ := h.owed.nextDraw (.partialRelease creator amount) hdrew rfl
    fun p => .inl rfl
  refine ⟨howed, _, hstored, .inl ?_⟩
  exact hopen.lower rfl rfl rfl (sub_nonneg.2 hle) le_rfl hout hsum htotal

theorem FundsOpen.close {b' : Books} {out : ℤ} {after : Invoice} (h : FundsOpen start b inv)
    (hsettled : after.status ≠ .pending)
    (hauction : after.status = .expired → after.auctionOnExpiry = true)
    (hle : out ≤ inv.funded + inv.bonusPool) (hout : b'.out = b.out + out)
    (htotal : b'.total = b.total) : FundsClosed start b' after := by
  have hpool : inv.bonusPool = start.bonusPool := by
    have hfield := congrArg Invoice.bonusPool h.terms
    exact hfield
  refine ⟨hsettled, hauction, ?_⟩
  rw [hout, htotal]
  linarith [h.covered]

theorem Backed.bonus (hbonus : 0 ≤ start.bonusPool) (h : Backed id start b s)
    (hload : (s.entries id).load = some inv) (hpending : inv.status = .pending) :
    0 ≤ inv.bonusPool := by
  have hpool : inv.bonusPool = start.bonusPool := by
    have hfield := congrArg Invoice.bonusPool (h.opened hload hpending).terms
    exact hfield
  rw [hpool]
  exact hbonus

theorem Backed.autoResolve (hbonus : 0 ≤ start.bonusPool) (h : Backed id start b s)
    (hclean : CleanCall id b s (env, .autoResolve)) (hrun : Split.autoResolve env id s = .ok (v, t)) :
    Backed id start (b.next id s t .autoResolve) t := by
  obtain ⟨inv, hload, hpending, hresolved⟩ := autoResolve_drew hrun
  obtain ⟨hrule, hundrawn, hfunded⟩ := hclean inv hload hpending
  obtain ⟨hdrew, hstored⟩ := hresolved hrule
  have hopen := h.opened hload hpending
  rw [load_payments hload] at hundrawn
  obtain ⟨howed, hout, htotal⟩ := h.owed.nextDraw .autoResolve hdrew rfl fun p => by
    by_cases hp : p ∈ payersOf (s.entries id).payments
    · exact .inr ⟨hp, hundrawn p hp, le_rfl⟩
    · exact .inl (paidBy_of_not_mem hp)
  refine ⟨howed, _, hstored, .inr ?_⟩
  have hpool := h.bonus hbonus hload hpending
  refine hopen.close ?_ ?_ (by linarith) hout htotal
  · intro hstatus
    cases hstatus
  · intro hstatus
    cases hstatus

theorem cancelled_status (inv : Invoice) :
    (cancelled inv).status = .refunded ∨ (cancelled inv).status = .cancelled := by
  unfold cancelled
  split
  · exact .inl rfl
  · exact .inr rfl

theorem Backed.cancelInvoice {caller : Address} (hbonus : 0 ≤ start.bonusPool)
    (h : Backed id start b s) (hclean : CleanCall id b s (env, .cancelInvoice caller))
    (hrun : Split.cancelInvoice env caller id s = .ok (v, t)) :
    Backed id start (b.next id s t (.cancelInvoice caller)) t := by
  obtain ⟨inv, hload, hpending⟩ : ∃ inv, (s.entries id).load = some inv ∧ inv.status = .pending := by
    unfold Split.cancelInvoice at hrun
    obtain ⟨_, _, hlock, hrun⟩ := bind_ok.1 hrun
    obtain ⟨-, rfl⟩ := acquireLock_ok.1 hlock
    simp only [requireNotPaused_bind, requireAuth_bind, loadInvoice_bind, require_bind] at hrun
    obtain ⟨-, -, inv, hload, -, hpending, -⟩ := hrun
    exact ⟨inv, hload, hpending⟩
  have hopen := h.opened hload hpending
  have hpool := h.bonus hbonus hload hpending
  obtain ⟨inv', hload', -, hstored, hfilled, hempty⟩ := cancelInvoice_drew (fun inv' hload' => by
    obtain rfl : inv = inv' := Option.some.inj (hload.symm.trans hload')
    exact hpool) hrun
  obtain rfl : inv = inv' := Option.some.inj (hload.symm.trans hload')
  have hstatus : ((cancelled inv).withPayments []).status ≠ .pending ∧
      ((cancelled inv).withPayments []).status ≠ .expired := by
    change (cancelled inv).status ≠ .pending ∧ (cancelled inv).status ≠ .expired
    rcases cancelled_status inv with hrefunded | hcancelled
    · simp [hrefunded]
    · simp [hcancelled]
  by_cases hnone : inv.funded ≤ 0
  · obtain ⟨howed, hout, htotal⟩ := h.owed.nextDraw (.cancelInvoice caller) (hempty hnone) rfl
      fun p => .inl rfl
    refine ⟨howed, _, hstored, .inr ?_⟩
    exact hopen.close hstatus.1 (fun hexpired => absurd hexpired hstatus.2)
      (by linarith [hopen.funded]) hout htotal
  · obtain ⟨hundrawn, hfunded, hinsurance⟩ := (hclean inv hload hpending).resolve_left hnone
    rw [load_payments hload] at hundrawn
    obtain ⟨howed, hout, htotal⟩ := h.owed.nextDraw (.cancelInvoice caller)
      (hfilled (not_le.1 hnone) hinsurance) rfl fun p => by
        by_cases hp : p ∈ payersOf (s.entries id).payments
        · exact .inr ⟨hp, hundrawn p hp, le_rfl⟩
        · exact .inl (paidBy_of_not_mem hp)
    refine ⟨howed, _, hstored, .inr ?_⟩
    exact hopen.close hstatus.1 (fun hexpired => absurd hexpired hstatus.2) (by linarith) hout htotal

theorem Backed.refund (hbonus : 0 ≤ start.bonusPool) (h : Backed id start b s)
    (hclean : CleanCall id b s (env, .refund)) (hrun : Split.refund env id s = .ok (v, t)) :
    Backed id start (b.next id s t .refund) t := by
  obtain ⟨inv, hload, hexpired, hpaid⟩ := refund_drew h.owed.recorded hrun
  have hpayments := load_payments hload
  obtain ⟨stored, hstored, hfunds⟩ := h.state
  have hfield : inv.status = stored.status ∧ inv.auctionOnExpiry = stored.auctionOnExpiry := by
    obtain ⟨stored', hstored', rfl⟩ := Option.map_eq_some_iff.1 hload
    obtain rfl : stored = stored' := Option.some.inj (hstored.symm.trans hstored')
    exact ⟨rfl, rfl⟩
  have hlazy : (lazilyExpired env inv).auctionOnExpiry = inv.auctionOnExpiry := by
    unfold lazilyExpired
    split <;> rfl
  rcases hpaid with ⟨hauction, hdrew, n, hafter⟩ | ⟨hauction, hpaid⟩
  · -- the auction starts: nothing is sent, and the invoice is not pending any more
    obtain ⟨howed, hout, htotal⟩ := h.owed.nextDraw .refund hdrew rfl fun p => .inl rfl
    refine ⟨howed, _, hafter, .inr ⟨?_, fun _ => ?_, ?_⟩⟩
    · change (lazilyExpired env inv).status ≠ .pending
      simp [hexpired]
    · change (lazilyExpired env inv).auctionOnExpiry = true
      rw [hlazy]
      exact hauction
    · rw [hout, htotal, add_zero]
      rcases hfunds with hopen | hclosed
      · linarith [hopen.covered, hopen.funded]
      · exact hclosed.covered
  · by_cases hpending : inv.status = .pending
    · have hopen := h.opened hload hpending
      have hpool := h.bonus hbonus hload hpending
      obtain ⟨hdrew, hafter⟩ := hpaid hpool
      obtain ⟨hundrawn, hfunded⟩ := (hclean inv hload hpending).resolve_left hauction
      rw [hpayments] at hundrawn
      obtain ⟨howed, hout, htotal⟩ := h.owed.nextDraw .refund hdrew rfl fun p => by
        by_cases hp : p ∈ payersOf (keptPayments (s.entries id).payments)
        · exact .inr ⟨hp, hundrawn p hp, paidBy_filter_le h.owed.recorded _ p⟩
        · exact .inl (paidBy_of_not_mem hp)
      refine ⟨howed, _, hafter, .inr ?_⟩
      refine hopen.close ?_ ?_ (by linarith) hout htotal
      · intro hstatus
        cases hstatus
      · intro hstatus
        cases hstatus
    · -- an invoice that is not pending is refunded only when it has expired, and then it has an auction
      rcases hfunds with hopen | hclosed
      · exact absurd (hfield.1.trans hopen.pending) hpending
      · have hstatus : inv.status = .expired := by
          unfold lazilyExpired at hexpired
          rw [if_neg fun hlate => hpending hlate.1] at hexpired
          exact hexpired
        have hon := hclosed.auction (hfield.1.symm.trans hstatus)
        exact absurd (hfield.2.trans hon) hauction

theorem Owed.credit {payer : Address} {amount : ℤ} {nonce : ℕ} {donate : Bool} (h : Owed id b s)
    (hrefunds : ∀ p, refundedTo id p t = refundedTo id p s)
    (hrecorded : Recorded (t.entries id).payments)
    (hgrown : ∀ p, paidBy (s.entries id).payments p ≤ paidBy (t.entries id).payments p) :
    Owed id (b.next id s t (.pay payer amount nonce donate)) t := by
  refine ⟨hrecorded, fun p => ?_, fun p hp => ?_, fun p hp => ?_⟩
  · change refundedTo id p t ≤ b.credited p +
      (paidBy (t.entries id).payments p - paidBy (s.entries id).payments p)
    rw [hrefunds]
    linarith [h.refunds p, hgrown p]
  · change p ∉ b.drawn at hp
    change refundedTo id p t + paidBy (t.entries id).payments p ≤ b.credited p +
      (paidBy (t.entries id).payments p - paidBy (s.entries id).payments p)
    rw [hrefunds]
    linarith [h.undrawn p hp]
  · change p ∉ b.claimed at hp
    change 10000 * (refundedTo id p t + paidBy (t.entries id).payments p - (b.credited p +
      (paidBy (t.entries id).payments p - paidBy (s.entries id).payments p))) ≤
      b.bps * paidBy (t.entries id).payments p
    rw [hrefunds]
    have hrate : (b.bps : ℤ) * paidBy (s.entries id).payments p ≤
        b.bps * paidBy (t.entries id).payments p :=
      mul_le_mul_of_nonneg_left (hgrown p) (Int.natCast_nonneg _)
    linarith [h.parts p hp]

theorem Joined.recorded {payer : Address} {credited : ℤ} (h : Joined id payer credited s t)
    (hnonneg : 0 ≤ credited) (hrecorded : Recorded (s.entries id).payments) :
    Recorded (t.entries id).payments := by
  obtain ⟨q, -, hamount, hperm⟩ := h
  intro q' hq'
  rcases List.mem_append.1 (hperm.mem_iff.1 hq') with hold | hnew
  · exact hrecorded q' hold
  · obtain rfl := List.mem_singleton.1 hnew
    rw [hamount]
    exact hnonneg

theorem Joined.grown {payer : Address} {credited : ℤ} (h : Joined id payer credited s t)
    (hnonneg : 0 ≤ credited) (p : Address) :
    paidBy (s.entries id).payments p ≤ paidBy (t.entries id).payments p := by
  obtain ⟨q, -, hamount, hperm⟩ := h
  have hlast : 0 ≤ paidBy [q] p := by
    refine paidBy_nonneg (fun q' hq' => ?_) p
    obtain rfl := List.mem_singleton.1 hq'
    rw [hamount]
    exact hnonneg
  rw [paidBy_perm hperm, paidBy_append]
  linarith

theorem Joined.total {payer : Address} {credited : ℤ} (h : Joined id payer credited s t) :
    paymentsTotal t id = paymentsTotal s id + credited := by
  obtain ⟨q, -, hamount, hperm⟩ := h
  unfold paymentsTotal
  rw [(hperm.map Payment.amount).sum_eq, List.map_append, List.sum_append, List.map_singleton,
    List.sum_singleton, hamount]

theorem Backed.pay {payer : Address} {amount : ℤ} {nonce : ℕ} {donate : Bool}
    (hbonus : 0 ≤ start.bonusPool) (h : Backed id start b s)
    (hclean : CleanCall id b s (env, .pay payer amount nonce donate))
    (hrun : Split.pay env payer id amount nonce donate s = .ok (v, t)) :
    Backed id start (b.next id s t (.pay payer amount nonce donate)) t := by
  obtain ⟨inv, hload, hpending⟩ := pay_pending hrun
  have hopen := h.opened hload hpending
  obtain ⟨before, hbefore, hpurse⟩ := purse_load hload
  have hfunded : before.funded = inv.funded := (congrArg Purse.funded hpurse).symm
  have hterms : before.terms = start.terms := (congrArg Purse.terms hpurse).symm.trans hopen.terms
  have hstatus : before.status = .pending := (congrArg Purse.status hpurse).symm.trans hpending
  have hout : (b.next id s t (.pay payer amount nonce donate)).out =
      b.out + (paidOutAll id (fundingOf id s) t - paidOutAll id (fundingOf id s) s) := rfl
  have htotal : (b.next id s t (.pay payer amount nonce donate)).total =
      b.total + (paymentsTotal t id - paymentsTotal s id) := rfl
  rcases pay_took (hclean inv hload hpending) hrun with ⟨hstill, hshards⟩ | ⟨credited, hnonneg, htook⟩
  · have hpayments := hshards.payments
    refine ⟨h.owed.credit hstill.refunds ?_ fun p => ?_, ?_⟩
    · rw [hpayments]
      exact h.owed.recorded
    · rw [hpayments]
    · have hafter := hstill.purse
      rw [hbefore] at hafter
      obtain ⟨after, hafter, hsame⟩ := Option.map_eq_some_iff.1 hafter
      have hkept : after.funded = before.funded := congrArg Purse.funded hsame
      refine ⟨after, hafter, .inl ⟨(congrArg Purse.terms hsame).trans hterms,
        (congrArg Purse.status hsame).trans hstatus, ?_, ?_⟩⟩
      · rw [hkept, hfunded]
        exact hopen.funded
      · rw [hout, htotal, hstill.paidOutAll, hkept, hfunded]
        unfold paymentsTotal
        rw [hpayments]
        linarith [hopen.covered]
  · rcases htook with htook | htook
    · refine ⟨h.owed.credit htook.refunds (htook.joined.recorded hnonneg h.owed.recorded)
        (htook.joined.grown hnonneg), ?_⟩
      obtain ⟨before', after, hbefore', hafter, hkept, hsum, hopened, -⟩ := htook.saved
      obtain rfl : before = before' := Option.some.inj (hbefore.symm.trans hbefore')
      refine ⟨after, hafter, .inl ⟨hkept.trans hterms, hopened.trans hstatus, ?_, ?_⟩⟩
      · rw [hsum, hfunded]
        linarith [hopen.funded]
      · rw [hout, htotal, htook.payouts, htook.joined.total, hsum, hfunded]
        linarith [hopen.covered]
    · refine ⟨h.owed.credit htook.refunds (htook.joined.recorded hnonneg h.owed.recorded)
        (htook.joined.grown hnonneg), ?_⟩
      obtain ⟨before', after, hbefore', hafter, hclosed, hpaid⟩ := htook.closed
      obtain rfl : before = before' := Option.some.inj (hbefore.symm.trans hbefore')
      have htoken : fundingOf id s = before.fundingToken := by
        unfold fundingOf
        rw [hbefore]
        rfl
      refine ⟨after, hafter, .inr ⟨?_, fun hexpired => ?_, ?_⟩⟩
      · rcases hclosed with hreleased | hpartly
        · simp [hreleased]
        · simp [hpartly]
      · rcases hclosed with hreleased | hpartly
        · simp [hreleased] at hexpired
        · simp [hpartly] at hexpired
      · rw [hout, htotal, htoken, htook.joined.total]
        linarith [hopen.covered]

end Steps

/-! ## Runs -/

/-- A new invoice: pending, nothing funded, paid or sent, and amounts that fit their words. -/
structure Fresh (id : ℕ) (start : Invoice) (s : Store) : Prop where
  stored : (s.entries id).invoice = some start
  pending : start.status = .pending
  unfunded : start.funded = 0
  unpaid : (s.entries id).payments = []
  unsent : ∀ p, refundedTo id p s = 0
  bonus : 0 ≤ start.bonusPool
  insurance : 0 ≤ start.insuranceFund
  words : WordAmounts start

theorem Fresh.backed (h : Fresh id start s) : Backed id start {} s := by
  refine ⟨⟨?_, fun p => ?_, fun p _ => ?_, fun p _ => ?_⟩, start, h.stored,
    .inl ⟨rfl, h.pending, ?_, ?_⟩⟩
  · rw [h.unpaid]
    intro q hq
    cases hq
  · rw [h.unsent]
  · rw [h.unsent, h.unpaid]
    rfl
  · rw [h.unsent, h.unpaid]
    rfl
  · rw [h.unfunded]
  · rw [h.unfunded]
    rfl

theorem Backed.step {b : Books} {c : Env × FundOp} (hfresh : ∃ s₀, Fresh id start s₀)
    (h : Backed id start b s) (hclean : CleanCall id b s c) (hrun : fundStep id c s = .ok (v, t)) :
    Backed id start (b.next id s t c.2) t := by
  obtain ⟨s₀, hfresh⟩ := hfresh
  obtain ⟨env, op⟩ := c
  cases op with
  | pay payer amount nonce donate => exact h.pay hfresh.bonus hclean hrun
  | withdraw payer => exact h.withdraw hclean hrun
  | withdrawContribution payer => exact h.withdrawContribution hclean hrun
  | partialRefund creator bps => exact h.partialRefund hclean hrun
  | partialRelease creator amount => exact h.partialRelease hfresh.words hclean hrun
  | claimRefund payer => exact h.claimRefund hclean hrun
  | refund => exact h.refund hfresh.bonus hclean hrun
  | cancelInvoice caller => exact h.cancelInvoice hfresh.bonus hclean hrun
  | autoResolve => exact h.autoResolve hfresh.bonus hclean hrun

/-- In a run from a new invoice that pays nobody twice from the record and never more than is
funded, no payer gets back more than was credited, and no more goes out than came in. -/
theorem refunds_within_credits {calls : List (Env × FundOp)} (hfresh : Fresh id start s)
    (hclean : Along (fun sb c => CleanCall id sb.2 sb.1 c) (bookStep id) (s, {}) calls) :
    (∀ p, refundedTo id p (runAll (fundStep id) s calls) ≤
        (runAll (bookStep id) (s, {}) calls).2.credited p) ∧
      (runAll (bookStep id) (s, {}) calls).2.out ≤
        (runAll (bookStep id) (s, {}) calls).2.total + start.bonusPool + start.insuranceFund := by
  have hrun : Backed id start (runAll (bookStep id) (s, {}) calls).2
      (runAll (bookStep id) (s, {}) calls).1 := by
    refine runAll_induction (I := fun sb => Backed id start sb.2 sb.1) ?_ hfresh.backed hclean
    rintro ⟨w, b⟩ c v ⟨w', b'⟩ h hcall hstep
    obtain ⟨hone, rfl⟩ := bookStep_ok.1 hstep
    exact h.step ⟨s, hfresh⟩ hcall hone
  rw [runAll_bookStep] at hrun
  refine ⟨hrun.owed.refunds, ?_⟩
  have hbonus := hfresh.bonus
  have hinsurance := hfresh.insurance
  obtain ⟨inv, -, hopen | hclosed⟩ := hrun.state
  · linarith [hopen.covered, hopen.funded]
  · linarith [hclosed.covered]

/-- A payment, two partial refunds and a partial release. -/
def partRun : List (Env × FundOp) :=
  [(sampleEnv 10 0, .pay 20 60 0 false), (sampleEnv 11 0, .partialRefund 2 2000),
    (sampleEnv 12 0, .partialRefund 2 3000), (sampleEnv 13 0, .partialRelease 2 20)]

theorem fresh_sample : Fresh 1 sampleInvoice (sampleStore sampleInvoice []) := by
  refine ⟨rfl, rfl, rfl, rfl, fun _ => rfl, le_rfl, le_rfl, ?_⟩
  exact ⟨by decide, by decide⟩

theorem part_run_within_credits :
    refundedTo 1 20 (runAll (fundStep 1) (sampleStore sampleInvoice []) partRun) = 30 ∧
      (runAll (bookStep 1) (sampleStore sampleInvoice [], {}) partRun).2.credited 20 = 60 ∧
      (runAll (bookStep 1) (sampleStore sampleInvoice [], {}) partRun).2.out = 50 ∧
      (runAll (bookStep 1) (sampleStore sampleInvoice [], {}) partRun).2.out ≤
        (runAll (bookStep 1) (sampleStore sampleInvoice [], {}) partRun).2.total + 0 + 0 := by
  refine ⟨by decide +kernel, by decide +kernel, by decide +kernel, ?_⟩
  refine (refunds_within_credits fresh_sample ?_).2
  refine ⟨fun _ => ?_, fun _ => ?_, fun _ => ?_, fun _ => ?_, trivial⟩
  · intro inv hload _ inv' target credited hload' htarget hcredited
    cases hload
    cases hload'
    cases htarget
    cases hcredited
    exact ⟨by decide, milestoneAhead_of_none rfl, fun hfilled => absurd hfilled (by decide)⟩
  · intro inv hload _
    cases hload
    exact ⟨by decide, by decide, by decide⟩
  · intro inv hload _
    cases hload
    exact ⟨by decide, by decide, by decide⟩
  · intro inv hload _
    cases hload
    exact (by decide : (20 : ℤ) ≤ i128Max)

/-- A payment, half of which is given back before the invoice is refunded. -/
def twiceRefunded : List (Env × FundOp) :=
  [(sampleEnv 10 0, .pay 20 50 0 false), (sampleEnv 11 0, .partialRefund 2 5000),
    (sampleEnv 2000 50, .refund)]

/-- The payer of 50 gets back 75. -/
theorem half_refunded_invoice_refunds_again :
    refundedTo 1 20 (runAll (fundStep 1) (sampleStore sampleInvoice []) twiceRefunded) = 75 ∧
      (runAll (bookStep 1) (sampleStore sampleInvoice [], {}) twiceRefunded).2.credited 20 = 50 ∧
      (runAll (bookStep 1) (sampleStore sampleInvoice [], {}) twiceRefunded).2.out = 75 ∧
      (runAll (bookStep 1) (sampleStore sampleInvoice [], {}) twiceRefunded).2.total +
        sampleInvoice.bonusPool + sampleInvoice.insuranceFund = 50 := by
  refine ⟨?_, ?_, ?_, ?_⟩ <;> decide +kernel

end StellarSplit.Split
