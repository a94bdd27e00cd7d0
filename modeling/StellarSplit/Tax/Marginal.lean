import Mathlib.Algebra.Order.Field.Rat
import Mathlib.Tactic.FieldSimp
import StellarSplit.Lib.Bands
import StellarSplit.Tax.Accounts

/-!
# Marginal tax

The brackets cut the income of a period into bands. A payment is taxed band by band for
the stretch from the income before it to the income after it, and each band is rounded
down, so the reserves of a period depend on how its income was split by what the
roundings lose.
-/

namespace StellarSplit.Tax

open Bands Exec Function Machine

/-! ## The bands of the brackets -/

/-- Each bracket reaches to the threshold of the next one. -/
def bandsOf : List TaxBracket → List Band
  | [] => []
  | b :: rest =>
      ⟨b.threshold, (rest.head?.map TaxBracket.threshold).getD i128Max, b.rateBps⟩ :: bandsOf rest

/-- The tax on the stretch of income without rounding: every unit costs the rate of its bracket. -/
noncomputable def exactTax (brackets : List TaxBracket) (prior amount : ℤ) : ℚ :=
  (∑ u ∈ Finset.Ioc prior (prior + amount), (rateAt (bandsOf brackets) u : ℚ)) / 10000

variable {s t u : Store} {config : StrategyConfig} {brackets : List TaxBracket} {b : IncomeBreakdown}
  {payer creator token : Address} {gross prior prior' amount amount' tax total lo hi : ℤ}
  {p : PeriodSummary} {templates : Symbol → Option (List TaxBracket)}

theorem rate_of_mem {x : Band} (h : x ∈ bandsOf brackets) : 0 ≤ x.rate := by
  induction brackets with
  | nil => cases h
  | cons b rest ih =>
      rcases List.mem_cons.1 h with rfl | h
      · exact Int.natCast_nonneg _
      · exact ih h

theorem bandsOf_sorted (h : brackets.Pairwise fun a b => a.rateBps ≤ b.rateBps) :
    (bandsOf brackets).Pairwise fun x y => x.rate ≤ y.rate := by
  have hrates : (bandsOf brackets).map Band.rate = brackets.map fun b => (b.rateBps : ℤ) := by
    clear h
    induction brackets with
    | nil => rfl
    | cons b rest ih => exact congrArg (_ :: ·) ih
  have hpair : (brackets.map fun b => (b.rateBps : ℤ)).Pairwise (· ≤ ·) :=
    List.pairwise_map.2 (h.imp fun hle => Int.ofNat_le.2 hle)
  rw [← hrates] at hpair
  exact List.pairwise_map.1 hpair

/-- Ascending brackets adjoin from the first threshold on. -/
theorem adjoining_bandsOf {b : TaxBracket} {rest : List TaxBracket} (h : Ascending (b :: rest))
    (hword : ∀ d ∈ b :: rest, d.threshold ≤ i128Max) : Adjoining b.threshold (bandsOf (b :: rest)) i128Max := by
  induction rest generalizing b with
  | nil => exact .cons rfl (hword b (by simp)) (.nil _)
  | cons d rest ih =>
      obtain ⟨hlink, hchain⟩ := List.isChain_cons.1 h.chain
      have hrest : Ascending (d :: rest) := ⟨fun e he => h.rates e (List.mem_cons_of_mem b he), hchain⟩
      exact .cons rfl (hlink d rfl).le (ih hrest fun e he => hword e (List.mem_cons_of_mem b he))

/-- What the validation establishes: the bands adjoin from zero to the largest word. -/
theorem validateBrackets_bands (h : validateBrackets brackets = .ok ())
    (hword : ∀ b ∈ brackets, b.threshold ≤ i128Max) : Adjoining 0 (bandsOf brackets) i128Max := by
  have hascending := validateBrackets_ok h
  unfold validateBrackets at h
  split_ifs at h with hempty
  cases brackets with
  | nil => exact absurd (.inl rfl) hempty
  | cons b rest =>
      have hzero : b.threshold = 0 := by
        simp only [checkBrackets] at h
        split_ifs at h with _ hne
        exact not_not.1 hne
      rw [← hzero]
      exact adjoining_bandsOf hascending hword

/-! ## The loop -/

theorem taxSlices_eq (h : taxSlices lo hi brackets tax = .ok total) :
    total = tax + charge 10000 (bandsOf brackets) lo hi := by
  induction brackets generalizing tax with
  | nil =>
      obtain rfl := Except.ok.inj h
      exact (add_zero _).symm
  | cons b rest ih =>
      unfold taxSlices at h
      dsimp only at h
      rw [bandsOf, charge_cons, Band.slice]
      dsimp only
      split_ifs at h with hlt
      · simp only [except_bind_ok, checked_ok] at h
        obtain ⟨slice, hslice, scaled, hscaled, next, hnext, h⟩ := h
        obtain rfl := subtract_ok hslice
        obtain rfl := checkedMulI128_eq hscaled
        obtain rfl := checkedAddI128_eq hnext
        have hpos : 0 < min hi ((rest.head?.map TaxBracket.threshold).getD i128Max) - max lo b.threshold :=
          sub_pos.2 hlt
        rw [ih h, max_eq_right hpos.le, Int.tdiv_eq_ediv_of_nonneg (mul_nonneg hpos.le (Int.natCast_nonneg _)),
          add_assoc]
      · rw [ih h, max_eq_left (sub_nonpos.2 (not_lt.1 hlt)), zero_mul, Int.zero_ediv, zero_add]

theorem marginalTax_eq (h : marginalTax brackets prior amount = .ok total) :
    total = charge 10000 (bandsOf brackets) prior (prior + amount) ∧ prior + amount ≤ i128Max := by
  simp only [marginalTax, except_bind_ok, checked_ok] at h
  obtain ⟨finish, hfinish, h⟩ := h
  have hword := checkedAddI128_le hfinish
  obtain rfl := checkedAddI128_eq hfinish
  rw [taxSlices_eq h, zero_add]
  exact ⟨rfl, hword⟩

theorem exactTax_eq (h : Adjoining 0 (bandsOf brackets) i128Max) :
    exactTax brackets prior amount = (due (bandsOf brackets) prior (prior + amount) : ℤ) / 10000 := by
  rw [exactTax, h.due_eq_sum]
  push_cast
  rfl

/-! ## A period -/

/-- The strategy taxes by these brackets, its own or those of a template, and deducts nothing before. -/
def TaxedBy (templates : Symbol → Option (List TaxBracket)) (config : StrategyConfig)
    (brackets : List TaxBracket) : Prop :=
  config.deductionBps = 0 ∧
    (config.kind = .progressive ∧ config.brackets = brackets ∨
      config.kind = .template ∧ ∃ name, config.template = some name ∧ templates name = some brackets)

/-- The payments of one period of a creator that were taxed by these brackets, with any other calls in
between. -/
inductive Collected (creator : Address) (brackets : List TaxBracket) : List IncomeBreakdown → Store → Prop where
  | first {env : Ledger Unit} {payer token : Address} {gross : ℤ} {strategy : TaxStrategy} {s t : Store}
      {b : IncomeBreakdown} (hstrategy : s.strategies creator = some strategy)
      (htaxed : TaxedBy s.templates strategy.config brackets)
      (hnew : ∀ p, s.periods creator = some p → satAddU32 p.startLedger strategy.config.periodLedgers ≤ env.sequence)
      (hrun : processIncome env payer creator token gross s = .ok (b, t)) : Collected creator brackets [b] t
  | next {env : Ledger Unit} {payer token : Address} {gross : ℤ} {strategy : TaxStrategy} {s t : Store}
      {b : IncomeBreakdown} {paid : List IncomeBreakdown} {p : PeriodSummary} (h : Collected creator brackets paid s)
      (hstrategy : s.strategies creator = some strategy) (htaxed : TaxedBy s.templates strategy.config brackets)
      (hperiod : s.periods creator = some p)
      (hopen : env.sequence < satAddU32 p.startLedger strategy.config.periodLedgers)
      (hrun : processIncome env payer creator token gross s = .ok (b, t)) :
      Collected creator brackets (paid ++ [b]) t
  | other {c : Ledger Unit × TaxCall} {r : Option IncomeBreakdown} {s t : Store} {paid : List IncomeBreakdown}
      (h : Collected creator brackets paid s) (hrun : taxStep c s = .ok (r, t))
      (hother : paymentTo creator (c, r) = none) : Collected creator brackets paid t

def income (paid : List IncomeBreakdown) : List ℤ := paid.map IncomeBreakdown.gross

theorem income_snoc (paid : List IncomeBreakdown) (b : IncomeBreakdown) :
    income (paid ++ [b]) = income paid ++ [b.gross] := by
  simp [income]

theorem reserveOf_taxed (htaxed : TaxedBy templates config brackets)
    (h : reserveOf templates config prior amount = .ok total) : marginalTax brackets prior amount = .ok total := by
  obtain ⟨-, ⟨hkind, rfl⟩ | ⟨hkind, name, hname, hbrackets⟩⟩ := htaxed
  · rwa [reserveOf, hkind] at h
  · rw [reserveOf, hkind, hname] at h
    dsimp only at h
    rw [except_bind_ok, loadTemplate, hbrackets] at h
    obtain ⟨_, hload, h⟩ := h
    obtain rfl := Except.ok.inj hload
    exact h

/-- Without a deduction the whole payment is taxed. -/
theorem computeBreakdown_taxed (htaxed : TaxedBy templates config brackets)
    (h : computeBreakdown templates config prior gross = .ok b) :
    0 < b.gross ∧ b.taxable = b.gross ∧ marginalTax brackets prior b.gross = .ok b.reserved := by
  unfold computeBreakdown at h
  split_ifs at h with hpos
  simp only [except_bind_ok, checked_ok] at h
  obtain ⟨scaled, hscaled, taxable, htaxable, reserved, hreserved, net, hnet, rate, hrate, h⟩ := h
  have hscaled := checkedMulI128_eq hscaled
  rw [htaxed.1, Nat.cast_zero, mul_zero] at hscaled
  subst hscaled
  have htaxable := subtract_ok htaxable
  rw [Int.zero_tdiv, sub_zero] at htaxable
  subst htaxable
  obtain rfl := Except.ok.inj h
  exact ⟨not_le.1 hpos, rfl, reserveOf_taxed htaxed hreserved⟩

/-- A payment is added to the period that it finds. -/
theorem processIncome_taxed {env : Ledger Unit} {strategy : TaxStrategy}
    (hstrategy : s.strategies creator = some strategy) (htaxed : TaxedBy s.templates strategy.config brackets)
    (hrun : processIncome env payer creator token gross s = .ok (b, t)) :
    ∃ period u, currentPeriod env creator strategy.config.periodLedgers true s = .ok (period, u) ∧
      t.periods creator = some (period.add b) ∧ 0 < b.gross ∧ b.taxable = b.gross ∧
      marginalTax brackets period.taxableIncome b.gross = .ok b.reserved := by
  obtain ⟨strategy', period, u, hstrategy', hperiod, hb, rfl⟩ := processIncome_ok hrun
  obtain rfl := Option.some.inj (hstrategy.symm.trans hstrategy')
  have htemplates : u.templates = s.templates := by
    obtain ⟨-, rfl⟩ | ⟨-, ⟨_, -, rfl⟩ | ⟨-, rfl⟩⟩ := currentPeriod_ok hperiod <;> rfl
  rw [htemplates] at hb
  exact ⟨period, u, hperiod, update_self _ _ _, computeBreakdown_taxed htaxed hb⟩

/-- What is known of the payments so far: the period has their income, and each was taxed from where
the one before it ended. -/
structure InPeriod (creator : Address) (brackets : List TaxBracket) (paid : List IncomeBreakdown) (s : Store) :
    Prop where
  stored : ∃ p, s.periods creator = some p ∧ p.taxableIncome = (income paid).sum
  positive : ∀ n ∈ income paid, 0 < n
  nonempty : income paid ≠ []
  reserved : paid.map IncomeBreakdown.reserved =
    (intervals 0 (income paid)).map fun i => charge 10000 (bandsOf brackets) i.1 i.2

theorem Collected.inPeriod {paid : List IncomeBreakdown} (h : Collected creator brackets paid s) :
    InPeriod creator brackets paid s := by
  induction h with
  | @first env payer token gross strategy s t b hstrategy htaxed hnew hrun =>
      obtain ⟨period, u, hperiod, hstored, hpos, htaxable, hreserved⟩ := processIncome_taxed hstrategy htaxed hrun
      have hzero : period.taxableIncome = 0 := by
        obtain ⟨hstored, rfl⟩ | ⟨rfl, -⟩ := currentPeriod_ok hperiod
        · -- a period that goes on is not over
          rw [currentPeriod, get_bind, hstored] at hperiod
          dsimp only at hperiod
          rw [if_neg (not_lt.2 (hnew period hstored))] at hperiod
          obtain ⟨_, w, -, hlast⟩ := bind_ok.1 hperiod
          rw [← (pure_ok.1 hlast).1]
          rfl
        · rfl
      rw [hzero] at hreserved
      refine ⟨⟨_, hstored, ?_⟩, ?_, List.cons_ne_nil _ _, ?_⟩
      · change period.taxableIncome + b.taxable = _
        rw [hzero, zero_add, htaxable]
        exact (List.sum_singleton).symm
      · exact List.forall_mem_singleton.2 hpos
      · rw [List.map_singleton, (marginalTax_eq hreserved).1]
        rfl
  | @next env payer token gross strategy s t b paid p h hstrategy htaxed hperiod hopen hrun ih =>
      obtain ⟨period, u, hcurrent, hstored, hpos, htaxable, hreserved⟩ := processIncome_taxed hstrategy htaxed hrun
      obtain ⟨q, hq, hincome⟩ := ih.stored
      obtain rfl := Option.some.inj (hperiod.symm.trans hq)
      rw [currentPeriod, get_bind, hperiod] at hcurrent
      dsimp only at hcurrent
      rw [if_pos hopen] at hcurrent
      obtain ⟨rfl, rfl⟩ := pure_ok.1 hcurrent
      rw [hincome] at hreserved
      refine ⟨⟨_, hstored, ?_⟩, ?_, ?_, ?_⟩
      · change p.taxableIncome + b.taxable = _
        rw [income_snoc, List.sum_append, List.sum_singleton, hincome, htaxable]
      · rw [income_snoc]
        exact List.forall_mem_append.2 ⟨ih.positive, List.forall_mem_singleton.2 hpos⟩
      · rw [income_snoc]
        exact List.append_ne_nil_of_right_ne_nil _ (List.cons_ne_nil _ _)
      · rw [income_snoc, List.map_append, ih.reserved, intervals_snoc, List.map_append, List.map_singleton,
          List.map_singleton, (marginalTax_eq hreserved).1, zero_add]
  | @other c r s t paid h hrun hother ih =>
      refine ⟨?_, ih.positive, ih.nonempty, ih.reserved⟩
      have hsame : t.periods creator = s.periods creator := by
        rcases taxStep_ok hrun with ⟨payer, creator', token, gross, b, hcall, rfl, hincome⟩ | ⟨-, hsets⟩
        · have hne : creator ≠ creator' := by
            rintro rfl
            obtain ⟨env, call⟩ := c
            obtain rfl : call = .income payer creator token gross := hcall
            simp [paymentTo] at hother
          obtain ⟨_, period, u, -, hperiod, -, rfl⟩ := processIncome_ok hincome
          have hperiods : u.periods = s.periods := by
            obtain ⟨-, rfl⟩ | ⟨-, ⟨_, -, rfl⟩ | ⟨-, rfl⟩⟩ := currentPeriod_ok hperiod <;> rfl
          dsimp only
          rw [update_of_ne hne, hperiods]
        · rw [hsets.periods]
      rw [hsame]
      exact ih.stored

/-! ## The law -/

/-- How many brackets each of the payments touches, in all. -/
def pairsTouched (brackets : List TaxBracket) (paid : List IncomeBreakdown) : ℕ :=
  ((intervals 0 (income paid)).map fun i => touched (bandsOf brackets) i.1 i.2).sum

/-- The reserves of a period against the tax on its whole income, and this against the exact one. -/
structure SplitsTax (brackets : List TaxBracket) (paid : List IncomeBreakdown) (whole : ℤ) : Prop where
  le : (paid.map IncomeBreakdown.reserved).sum ≤ whole
  short : whole < (paid.map IncomeBreakdown.reserved).sum + pairsTouched brackets paid
  below : (whole : ℚ) ≤ exactTax brackets 0 (income paid).sum
  within : exactTax brackets 0 (income paid).sum < whole + touched (bandsOf brackets) 0 (income paid).sum

theorem InPeriod.splits {paid : List IncomeBreakdown} {whole : ℤ} (h : InPeriod creator brackets paid s)
    (hbands : Adjoining 0 (bandsOf brackets) i128Max)
    (hwhole : marginalTax brackets 0 (income paid).sum = .ok whole) : SplitsTax brackets paid whole := by
  have hbase : (0 : ℤ) < 10000 := by norm_num
  have hnonneg : ∀ n ∈ income paid, 0 ≤ n := fun n hn => (h.positive n hn).le
  have hpos : 0 < (income paid).sum := List.sum_pos _ h.positive h.nonempty
  obtain ⟨rfl, hword⟩ := marginalTax_eq hwhole
  have hupper : 10000 * charge 10000 (bandsOf brackets) 0 (0 + (income paid).sum) ≤
      due (bandsOf brackets) 0 (0 + (income paid).sum) := mul_charge_le hbase
  have hlower := due_lt hbase (hbands.touched_pos le_rfl (by rwa [zero_add]) hword)
  have hparts : due (bandsOf brackets) 0 (0 + (income paid).sum) ≤
      10000 * ((intervals 0 (income paid)).map fun i => charge 10000 (bandsOf brackets) i.1 i.2).sum +
        (10000 - 1) * (((intervals 0 (income paid)).map fun i => touched (bandsOf brackets) i.1 i.2).sum : ℕ) :=
    due_le_sum_charge hbase hnonneg
  refine ⟨?_, ?_, ?_, ?_⟩
  · rw [h.reserved]
    exact sum_charge_le hbase hnonneg
  · have htouched : 0 < pairsTouched brackets paid := by
      by_contra hnone
      have hzero : pairsTouched brackets paid = 0 := Nat.eq_zero_of_not_pos hnone
      unfold pairsTouched at hzero
      cases hincome : income paid with
      | nil => exact h.nonempty hincome
      | cons n ns =>
          rw [hincome] at hzero hword hpos
          have hn : 0 < n := h.positive n (hincome ▸ List.mem_cons_self)
          have hns : 0 ≤ ns.sum := List.sum_nonneg fun m hm => hnonneg m (hincome ▸ List.mem_cons_of_mem n hm)
          rw [List.sum_cons] at hword
          have hfirst : 0 < touched (bandsOf brackets) 0 (0 + n) :=
            hbands.touched_pos le_rfl (by omega) (by omega)
          rw [intervals, List.map_cons, List.sum_cons] at hzero
          dsimp only at hzero
          omega
    rw [← h.reserved] at hparts
    unfold pairsTouched at htouched ⊢
    omega
  · have hcast : (10000 : ℚ) * charge 10000 (bandsOf brackets) 0 (0 + (income paid).sum) ≤
        due (bandsOf brackets) 0 (0 + (income paid).sum) := by
      exact_mod_cast hupper
    rw [exactTax_eq hbands, le_div_iff₀ (by norm_num)]
    linarith
  · have hcast : (due (bandsOf brackets) 0 (0 + (income paid).sum) : ℚ) < 10000 *
        (charge 10000 (bandsOf brackets) 0 (0 + (income paid).sum) +
          touched (bandsOf brackets) 0 (0 + (income paid).sum)) := by
      exact_mod_cast hlower
    rw [zero_add] at hcast
    rw [exactTax_eq hbands, zero_add, div_lt_iff₀ (by norm_num)]
    linarith

theorem marginalTax_mono {less more : ℤ} (hle : amount ≤ amount') (h : marginalTax brackets prior amount = .ok less)
    (h' : marginalTax brackets prior amount' = .ok more) : less ≤ more := by
  rw [(marginalTax_eq h).1, (marginalTax_eq h').1]
  exact charge_mono (by norm_num) (fun x hx => rate_of_mem hx) (Int.add_le_add_left hle prior)

/-- Where the rates do not fall, the same amount costs no less on a higher income, up to what rounding
the brackets down loses. -/
theorem marginalTax_prior {less more : ℤ} (hbands : Adjoining 0 (bandsOf brackets) i128Max)
    (hsorted : brackets.Pairwise fun a b => a.rateBps ≤ b.rateBps) (hle : prior ≤ prior')
    (h : marginalTax brackets prior amount = .ok less) (h' : marginalTax brackets prior' amount = .ok more) :
    less ≤ more + (touched (bandsOf brackets) prior' (prior' + amount) - 1 : ℕ) := by
  have hbase : (0 : ℤ) < 10000 := by norm_num
  obtain ⟨rfl, -⟩ := marginalTax_eq h
  obtain ⟨rfl, hword⟩ := marginalTax_eq h'
  have hshift := hbands.due_shift (fun x hx => rate_of_mem hx) (bandsOf_sorted hsorted) hle hword
  have hupper : 10000 * charge 10000 (bandsOf brackets) prior (prior + amount) ≤
      due (bandsOf brackets) prior (prior + amount) := mul_charge_le hbase
  have hlower : due (bandsOf brackets) prior' (prior' + amount) ≤
      10000 * charge 10000 (bandsOf brackets) prior' (prior' + amount) +
        (10000 - 1) * touched (bandsOf brackets) prior' (prior' + amount) := due_le hbase
  omega

/-- Accepted brackets tax the income of a period as a whole, whatever payments it came in, up to less
than one unit for each payment and bracket, and the tax does not fall when the amount grows, nor, with
rates that do not fall, when the income before it does. -/
theorem marginal_tax_law (hvalid : validateBrackets brackets = .ok ())
    (hword : ∀ b ∈ brackets, b.threshold ≤ i128Max) :
    (∀ creator paid s whole, Collected creator brackets paid s →
      marginalTax brackets 0 (income paid).sum = .ok whole → SplitsTax brackets paid whole) ∧
    (∀ prior amount amount' less more, amount ≤ amount' → marginalTax brackets prior amount = .ok less →
      marginalTax brackets prior amount' = .ok more → less ≤ more) ∧
    ((brackets.Pairwise fun a b => a.rateBps ≤ b.rateBps) → ∀ prior prior' amount less more, prior ≤ prior' →
      marginalTax brackets prior amount = .ok less → marginalTax brackets prior' amount = .ok more →
        less ≤ more + (touched (bandsOf brackets) prior' (prior' + amount) - 1 : ℕ)) := by
  have hbands := validateBrackets_bands hvalid hword
  exact ⟨fun _ _ _ _ h hwhole => h.inPeriod.splits hbands hwhole,
    fun _ _ _ _ _ hle h h' => marginalTax_mono hle h h',
    fun hsorted _ _ _ _ _ hle h h' => marginalTax_prior hbands hsorted hle h h'⟩

/-- Nothing up to 1000, ten percent up to 5000, and thirty above. -/
def rising : List TaxBracket := [⟨0, 0⟩, ⟨1000, 1000⟩, ⟨5000, 3000⟩]

def risingStore : Store :=
  { strategies := fun creator => if creator = 2 then
      some ⟨2, ⟨.progressive, 0, rising, none, 9, 0, none, minPeriodLedgers⟩, 0⟩ else none }

/-- A payment of 2005, then one of 4000. -/
def firstPaid : Store := commit (processIncome (signedAt 10) 1 2 5 2005) risingStore

def bothPaid : Store := commit (processIncome (signedAt 11) 1 2 5 4000) firstPaid

def bothBreakdowns : List IncomeBreakdown := [⟨2005, 0, 2005, 100, 1905, 498⟩, ⟨4000, 0, 4000, 600, 3400, 1500⟩]

/-- The two reserves come to 700, the tax on both together to 701. -/
theorem marginal_tax_sample : Collected 2 rising bothBreakdowns bothPaid ∧ SplitsTax rising bothBreakdowns 701 := by
  have htaxed : TaxedBy risingStore.templates ⟨.progressive, 0, rising, none, 9, 0, none, minPeriodLedgers⟩ rising :=
    ⟨rfl, .inl ⟨rfl, rfl⟩⟩
  have hfirst : Collected 2 rising [⟨2005, 0, 2005, 100, 1905, 498⟩] firstPaid :=
    .first rfl htaxed (fun p (h : none = some p) => nomatch h) (ok_commit (by decide +kernel))
  have hboth : Collected 2 rising bothBreakdowns bothPaid :=
    hfirst.next (p := ⟨10, 2005, 2005, 0, 100, 1905⟩) rfl htaxed (by decide +kernel) (by decide +kernel)
      (ok_commit (by decide +kernel))
  have hlaw := marginal_tax_law (show validateBrackets rising = .ok () by decide +kernel) (by decide +kernel)
  exact ⟨hboth, hlaw.1 2 _ _ _ hboth (by decide +kernel)⟩

end StellarSplit.Tax
