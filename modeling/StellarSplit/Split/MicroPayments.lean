import StellarSplit.Split.Charges
import StellarSplit.Split.Terms

/-!
# Runs of small payments

The calls of one payer on one invoice, each with a bill. A payment is put by until the
accumulated amount reaches the minimum, and takes no tokens then. Over every run the tokens
taken are what the invoice was credited with, the premiums, what was passed on and the penalties.
-/

namespace StellarSplit.Split.Charges

open Exec Machine

variable {s t : Store} {v : Unit} {id : ℕ} {inv start : Invoice} {payer : Address} {log : List (Transfer Memo)}

/-! ## The calls -/

structure PayCall where
  env : Env
  amount : ℤ
  nonce : ℕ
  donateOnFailure : Bool

def payStep (payer : Address) (id : ℕ) (c : PayCall) : SplitM Unit :=
  pay c.env payer id c.amount c.nonce c.donateOnFailure

/-- The tokens that payments and penalties for the invoice took from the payer. -/
def takenFrom (payer : Address) (id : ℕ) (log : List (Transfer Memo)) : ℤ :=
  tally (fun m => m.src = payer ∧ (m.memo = ⟨id, .payment⟩ ∨ m.memo = ⟨id, .penalty⟩)) log

/-- The tokens that went back to payers or on to the treasury. -/
def passedOn (id : ℕ) (log : List (Transfer Memo)) : ℤ :=
  tally (fun m => m.memo = ⟨id, .surplus⟩ ∨ m.memo = ⟨id, .donation⟩) log

/-- What the tokens of a payment were taken for. -/
structure Bill where
  credited : ℤ
  premium : ℤ
  passed : ℤ
  penalty : ℤ
deriving DecidableEq, Repr

def Bill.total (b : Bill) : ℤ := b.credited + b.premium + b.passed + b.penalty

/-- The bill of one call. A payment that is put by has an empty bill and adds to the accumulated
amount, and a payment that reaches the minimum with nothing put by is credited or passed on whole. -/
structure Bills (payer : Address) (id : ℕ) (c : PayCall) (s t : Store) (inv inv' : Invoice) (b : Bill) : Prop where
  before : (s.entries id).load = some inv
  after : (t.entries id).load = some inv'
  funded : inv'.funded = inv.funded + b.credited
  taken : takenFrom payer id t.log = takenFrom payer id s.log + b.total
  passed : passedOn id t.log = passedOn id s.log + b.passed
  putBy : PutBy (s.entries id) inv payer c.amount → b = ⟨0, 0, 0, 0⟩ ∧
    (t.entries id).accumulator payer = (s.entries id).accumulator payer + c.amount
  premium : plainMulDiv (asU128 b.credited) inv.insurancePremiumBps 10000 = .ok b.premium
  penalty : ¬PutBy (s.entries id) inv payer c.amount → b.penalty = lateFee c.env inv c.amount
  whole : ¬PutBy (s.entries id) inv payer c.amount → (s.entries id).accumulator payer = 0 →
    b.credited + b.passed = c.amount

/-- The bills of a run, one for each call that returns. -/
inductive Billed (payer : Address) (id : ℕ) : Store → List PayCall → List Bill → Prop
  | done (s : Store) : Billed payer id s [] []
  | trapped {s : Store} {c : PayCall} {calls : List PayCall} {bills : List Bill} {e : SplitFault}
      (htrap : payStep payer id c s = .error e) (h : Billed payer id s calls bills) :
      Billed payer id s (c :: calls) bills
  | returned {s t : Store} {c : PayCall} {calls : List PayCall} {b : Bill} {bills : List Bill} {inv inv' : Invoice}
      (hrun : payStep payer id c s = .ok ((), t)) (hbills : Bills payer id c s t inv inv' b)
      (h : Billed payer id t calls bills) : Billed payer id s (c :: calls) (b :: bills)

/-! ## The bill of one payment -/

theorem memo_of_release (id : ℕ) {memo : Memo} (h : memo.purpose.ofRelease = true) :
    (memo ≠ ⟨id, .payment⟩ ∧ memo ≠ ⟨id, .penalty⟩) ∧ memo ≠ ⟨id, .surplus⟩ ∧ memo ≠ ⟨id, .donation⟩ := by
  refine ⟨⟨?_, ?_⟩, ?_, ?_⟩
  all_goals
    rintro rfl
    cases h

section Movements

variable {env : Env} {amount credited premium : ℤ} {charge : Transfer Memo}
  {passed penalties released : List (Transfer Memo)}

theorem takenFrom_append (l₁ l₂ : List (Transfer Memo)) :
    takenFrom payer id (l₁ ++ l₂) = takenFrom payer id l₁ + takenFrom payer id l₂ := tally_append _ _ _

theorem passedOn_append (l₁ l₂ : List (Transfer Memo)) : passedOn id (l₁ ++ l₂) = passedOn id l₁ + passedOn id l₂ :=
  tally_append _ _ _

theorem takenFrom_released (h : ∀ m ∈ released, m.memo.purpose.ofRelease = true) :
    takenFrom payer id released = 0 :=
  tally_eq_zero fun m hm => by
    obtain ⟨hmemo, -⟩ := memo_of_release id (h m hm)
    simp [hmemo]

theorem passedOn_released (h : ∀ m ∈ released, m.memo.purpose.ofRelease = true) : passedOn id released = 0 :=
  tally_eq_zero fun m hm => by
    obtain ⟨-, hmemo⟩ := memo_of_release id (h m hm)
    simp [hmemo]

/-- The movements of a payment by whether they leave the payer or are passed on. -/
theorem Taken.tallies (h : Taken env id inv payer amount credited premium charge passed penalties)
    (log : List (Transfer Memo)) (hne : inv.recipients ≠ []) :
    takenFrom payer id (penalties.reverse ++ (passed ++ charge :: log)) =
        takenFrom payer id log + (amount + premium + lateFee env inv amount) ∧
      passedOn id (penalties.reverse ++ (passed ++ charge :: log)) =
        passedOn id log + (passed.map Transfer.amount).sum := by
  have hpenalties : takenFrom payer id penalties.reverse = lateFee env inv amount := by
    rw [takenFrom, tally_reverse, tally_all fun m hm => ?_, h.divides.sum hne]
    obtain ⟨-, hsrc, -, hmemo, -⟩ := h.divides.each m hm
    simp [hsrc, hmemo]
  have hpassed : takenFrom payer id passed = 0 := by
    refine tally_eq_zero fun m hm => ?_
    obtain ⟨-, -, -, ⟨hmemo, -⟩ | ⟨hmemo, -⟩⟩ := h.passes m hm <;> simp [hmemo]
  have hpenalties' : passedOn id penalties.reverse = 0 := by
    rw [passedOn, tally_reverse]
    refine tally_eq_zero fun m hm => ?_
    simp [(h.divides.each m hm).2.2.2.1]
  have hpassed' : passedOn id passed = (passed.map Transfer.amount).sum := by
    refine tally_all fun m hm => ?_
    obtain ⟨-, -, -, ⟨hmemo, -⟩ | ⟨hmemo, -⟩⟩ := h.passes m hm <;> simp [hmemo]
  have hcharge : takenFrom payer id (charge :: log) = amount + premium + takenFrom payer id log := by
    simp [takenFrom, h.charges]
  have hcharge' : passedOn id (charge :: log) = passedOn id log := by
    simp [passedOn, h.charges]
  rw [takenFrom_append, takenFrom_append, hpenalties, hpassed, hcharge, passedOn_append, passedOn_append,
    hpenalties', hpassed', hcharge']
  constructor <;> ring

end Movements

theorem payStep_bills {c : PayCall} (hwords : WordAmounts inv) (hne : inv.recipients ≠ [])
    (hamount : c.amount ≤ i128Max) (hload : (s.entries id).load = some inv)
    (hrun : payStep payer id c s = .ok (v, t)) : ∃ b inv', Bills payer id c s t inv inv' b := by
  have hinner : payInner c.env payer id c.amount c.nonce c.donateOnFailure s = .ok (v, t) := by
    unfold payStep pay at hrun
    simp only [requireFnNotPaused_bind, requireNotFrozen_bind, requireAuth_bind] at hrun
    exact hrun.2.2.2
  rcases payInner_splits hwords hamount hload hinner with ⟨hput, hlog, hadded, inv', hafter, hfunded⟩ |
    ⟨hnot, p, inv', h⟩
  · refine ⟨⟨0, 0, 0, 0⟩, inv', hload, hafter, by rw [hfunded, add_zero], ?_, ?_, fun _ => ⟨rfl, hadded⟩, ?_,
      fun h => absurd hput h, fun h => absurd hput h⟩
    · rw [hlog]
      exact (add_zero _).symm
    · rw [hlog, add_zero]
    · simp [plainMulDiv, checkedMulDiv, checkedMulU128, asU128, asI128]
  · obtain ⟨htaken, hpassed⟩ := h.taken.tallies s.log hne
    refine ⟨⟨p.credited, p.premium, (p.passed.map Transfer.amount).sum, lateFee c.env inv c.amount⟩, inv', hload,
      h.stored, h.funded, ?_, ?_, fun h => absurd h hnot, h.premium, fun _ => rfl, fun _ _ => h.taken.whole⟩
    · have hsum := h.taken.whole
      rw [h.log, takenFrom_append, takenFrom_released h.released, htaken]
      unfold Bill.total
      dsimp only
      linarith
    · rw [h.log, passedOn_append, passedOn_released h.released, hpassed, zero_add]

/-! ## Runs -/

/-- The invoice has the terms of the first one. -/
def HasTerms (start inv : Invoice) : Prop := inv.terms = start.terms

instance hasTerms_terms : TermFact (HasTerms start) := ⟨fun _ _ hterms h => hterms.trans h⟩

theorem payStep_hasTerms {c : PayCall} (hs : StoredAs (HasTerms start) id s)
    (hrun : payStep payer id c s = .ok (v, t)) : StoredAs (HasTerms start) id t :=
  ((framed_pay_retains (Q := HasTerms start) (k := id)).respects s v t hrun hs).1

theorem billed_run {calls : List PayCall} (hs : StoredAs (HasTerms start) id s) (hwords : WordAmounts start)
    (hne : start.recipients ≠ []) (hamounts : ∀ c ∈ calls, c.amount ≤ i128Max)
    (hload : (s.entries id).load = some inv) :
    ∃ bills last, Billed payer id s calls bills ∧
      ((runAll (payStep payer id) s calls).entries id).load = some last ∧
      last.funded = inv.funded + (bills.map Bill.credited).sum ∧
      takenFrom payer id (runAll (payStep payer id) s calls).log =
        takenFrom payer id s.log + (bills.map Bill.total).sum ∧
      passedOn id (runAll (payStep payer id) s calls).log = passedOn id s.log + (bills.map Bill.passed).sum := by
  induction calls generalizing s inv with
  | nil => exact ⟨[], inv, .done s, hload, by simp, by simp, by simp⟩
  | cons c calls ih =>
      obtain ⟨hamount, hrest⟩ := List.forall_mem_cons.1 hamounts
      rw [runAll_cons]
      cases hrun : payStep payer id c s with
      | error e =>
          obtain ⟨bills, last, hbilled, hlast, hsums⟩ := ih hs hrest hload
          rw [commit_error hrun]
          exact ⟨bills, last, .trapped hrun hbilled, hlast, hsums⟩
      | ok r =>
          obtain ⟨v, t⟩ := r
          have hterms : HasTerms start inv := hs.load lasting_of_terms hload
          have hsame : inv.terms = start.terms := hterms
          have hrecipients : inv.terms.recipients = start.terms.recipients := congrArg Invoice.recipients hsame
          obtain ⟨b, inv', hbills⟩ := payStep_bills (hwords.of_terms hterms) (fun h => hne (hrecipients.symm.trans h)) hamount hload hrun
          obtain ⟨bills, last, hbilled, hlast, hfunded, htaken, hpassed⟩ :=
            ih (payStep_hasTerms hs hrun) hrest hbills.after
          rw [commit_ok hrun]
          refine ⟨b :: bills, last, .returned hrun hbills hbilled, hlast, ?_, ?_, ?_⟩
          · rw [hfunded, hbills.funded, List.map_cons, List.sum_cons, add_assoc]
          · rw [htaken, hbills.taken, List.map_cons, List.sum_cons, add_assoc]
          · rw [hpassed, hbills.passed, List.map_cons, List.sum_cons, add_assoc]

/-- Every run of payments is billed, and the bills add up to what was taken, funded and passed on. -/
theorem micro_payments_billed {calls : List PayCall} (hload : (s.entries id).load = some start)
    (hwords : WordAmounts start) (hne : start.recipients ≠ []) (hamounts : ∀ c ∈ calls, c.amount ≤ i128Max) :
    ∃ bills last, Billed payer id s calls bills ∧
      ((runAll (payStep payer id) s calls).entries id).load = some last ∧
      last.funded = start.funded + (bills.map Bill.credited).sum ∧
      takenFrom payer id (runAll (payStep payer id) s calls).log =
        takenFrom payer id s.log + (bills.map Bill.total).sum ∧
      passedOn id (runAll (payStep payer id) s calls).log = passedOn id s.log + (bills.map Bill.passed).sum := by
  obtain ⟨stored, hstored, hsame⟩ := Option.map_eq_some_iff.1 hload
  refine billed_run ⟨stored, hstored, ?_⟩ hwords hne hamounts hload
  rw [← hsame]
  rfl

def premiumInvoice : Invoice := { thresholdInvoice with
  amounts := [500, 500]
  insurancePremiumBps := 1000 }

/-- Two payments of 60 where at least 100 are asked for. Both come with the first nonce, since a payment
that is put by takes none. -/
def twoPayments : List PayCall := [⟨sampleEnv 5 60, 60, 0, false⟩, ⟨sampleEnv 5 60, 60, 0, false⟩]

theorem micro_payments_billed_sample :
    ∃ bills last, Billed 20 1 (sampleStore premiumInvoice []) twoPayments bills ∧
      ((runAll (payStep 20 1) (sampleStore premiumInvoice []) twoPayments).entries 1).load = some last ∧
      last.funded = premiumInvoice.funded + (bills.map Bill.credited).sum ∧
      takenFrom 20 1 (runAll (payStep 20 1) (sampleStore premiumInvoice []) twoPayments).log =
        takenFrom 20 1 (sampleStore premiumInvoice []).log + (bills.map Bill.total).sum ∧
      passedOn 1 (runAll (payStep 20 1) (sampleStore premiumInvoice []) twoPayments).log =
        passedOn 1 (sampleStore premiumInvoice []).log + (bills.map Bill.passed).sum :=
  micro_payments_billed rfl ⟨by decide, by decide⟩ (by decide) (by decide)

/-- The accumulated 120 units reach the minimum and 60 of them are credited. With the premium of 6 units
the tokens taken are not what was credited and passed on. -/
theorem accumulated_credited_in_part :
    ∃ last, ((runAll (payStep 20 1) (sampleStore premiumInvoice []) twoPayments).entries 1).load = some last ∧
      last.funded = 60 ∧
      takenFrom 20 1 (runAll (payStep 20 1) (sampleStore premiumInvoice []) twoPayments).log ≠
        (last.funded - premiumInvoice.funded) +
          passedOn 1 (runAll (payStep 20 1) (sampleStore premiumInvoice []) twoPayments).log := by
  have hfunded : ((runAll (payStep 20 1) (sampleStore premiumInvoice []) twoPayments).entries 1).load.map
      Invoice.funded = some 60 := by decide +kernel
  have htaken : takenFrom 20 1 (runAll (payStep 20 1) (sampleStore premiumInvoice []) twoPayments).log = 66 := by
    decide +kernel
  have hpassed : passedOn 1 (runAll (payStep 20 1) (sampleStore premiumInvoice []) twoPayments).log = 0 := by
    decide +kernel
  obtain ⟨last, hlast, hsixty⟩ := Option.map_eq_some_iff.1 hfunded
  refine ⟨last, hlast, hsixty, ?_⟩
  rw [htaken, hpassed, hsixty]
  decide

end StellarSplit.Split.Charges
