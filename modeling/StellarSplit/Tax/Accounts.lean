import Mathlib.Data.List.Chain
import StellarSplit.Lib.Registry
import StellarSplit.Tax.Contract

/-!
# The accounts of tax periods

Every payment is divided exactly and paid out, and the payments to a creator fall into periods: the ones
that are closed, each archived once, and the current one, which the stored summary sums up.
-/

namespace StellarSplit.Tax

open Exec Function Machine Registry

/-! ## Runs -/

inductive TaxCall where
  | setUp (admin : Address)
  | setTemplate (admin : Address) (name : Symbol) (brackets : List TaxBracket)
  | removeTemplate (admin : Address) (name : Symbol)
  | setStrategy (creator : Address) (config : StrategyConfig)
  | removeStrategy (creator : Address)
  | income (payer creator token : Address) (gross : ℤ)
deriving DecidableEq

/-- A call, with the breakdown that a payment returns. -/
def taxStep (c : Ledger Unit × TaxCall) : TaxM (Option IncomeBreakdown) :=
  match c.2 with
  | .setUp admin => do
      initializeContract admin
      pure none
  | .setTemplate admin name brackets => do
      setTemplate c.1 admin name brackets
      pure none
  | .removeTemplate admin name => do
      removeTemplate c.1 admin name
      pure none
  | .setStrategy creator config => do
      setStrategy c.1 creator config
      pure none
  | .removeStrategy creator => do
      removeStrategy c.1 creator
      pure none
  | .income payer creator token gross => do
      let b ← processIncome c.1 payer creator token gross
      pure (some b)

/-- The payment to `creator` that a returning call made: its ledger and its breakdown. -/
def paymentTo (creator : Address) : (Ledger Unit × TaxCall) × Option IncomeBreakdown → Option (ℕ × IncomeBreakdown)
  | ((env, .income _ creator' _ _), some b) => if creator' = creator then some (env.sequence, b) else none
  | _ => none

/-- The payments to `creator` in a run, in their order. -/
def payments (creator : Address) (calls : List (Ledger Unit × TaxCall)) : List (ℕ × IncomeBreakdown) :=
  (returned taxStep {} calls).filterMap (paymentTo creator)

/-! ## The law -/

/-- What a breakdown says about the amount. -/
structure Divides (gross : ℤ) (b : IncomeBreakdown) : Prop where
  positive : 0 < gross
  whole : b.gross = gross
  taxable : b.taxable = gross - b.deducted
  parts : b.deducted + b.reserved + b.net = gross
  deducted : 0 ≤ b.deducted
  reserved : 0 ≤ b.reserved
  net : 0 ≤ b.net
  cap : b.reserved * 10000 ≤ 6000 * (gross - b.deducted)

/-- Where the parts of a payment go. -/
def IncomeBreakdown.parts (b : IncomeBreakdown) (config : StrategyConfig) (creator : Address) : List (Address × ℤ) :=
  (config.deductionWallet.toList.map fun wallet => (wallet, b.deducted)) ++
    [(config.reserveWallet, b.reserved), (creator, b.net)]

/-- One movement from the payer for each part that is not zero. -/
def sent (payer token : Address) (parts : List (Address × ℤ)) : List (Transfer Unit) :=
  (parts.filter fun p => 0 < p.2).map fun p => ⟨token, payer, p.1, p.2, ()⟩

def movements (config : StrategyConfig) (payer creator token : Address) (b : IncomeBreakdown) : List (Transfer Unit) :=
  sent payer token (b.parts config creator)

/-- A payment takes the amount from the payer and sends the parts to the wallets of the strategy, as the
estimate just before says. -/
structure Routed (env : Ledger Unit) (payer creator token : Address) (gross : ℤ) (s t : Store) (b : IncomeBreakdown) :
    Prop where
  divides : Divides gross b
  moved : ∃ strategy, s.strategies creator = some strategy ∧
    t.log = (movements strategy.config payer creator token b).reverse ++ s.log ∧
    ((movements strategy.config payer creator token b).map Transfer.amount).sum = gross
  estimated : estimate env creator gross s = .ok (b, s)

/-- The summary of the payments of one period: it starts at the ledger of the first of them. -/
def summarize : List (ℕ × IncomeBreakdown) → Option PeriodSummary
  | [] => none
  | (ledger, b) :: rest => some
      { startLedger := ledger
        grossIncome := (((ledger, b) :: rest).map (·.2.gross)).sum
        taxableIncome := (((ledger, b) :: rest).map (·.2.taxable)).sum
        deducted := (((ledger, b) :: rest).map (·.2.deducted)).sum
        reserved := (((ledger, b) :: rest).map (·.2.reserved)).sum
        netPaid := (((ledger, b) :: rest).map (·.2.net)).sum }

def TaxEvent.closes (creator : Address) : TaxEvent → Bool
  | .periodClosed creator' _ _ _ _ _ => creator' = creator
  | _ => false

/-- What was published about the closed periods of `creator`, the first one first. -/
def Store.closings (s : Store) (creator : Address) : List TaxEvent :=
  (s.events.filter (·.closes creator)).reverse

/-- The payments to a creator, in periods one after the other: the closed ones, each published once and
the last of them kept, and the stored one. -/
structure Periods (s : Store) (creator : Address) (ended : List (List (ℕ × IncomeBreakdown)))
    (current : List (ℕ × IncomeBreakdown)) : Prop where
  nonempty : ∀ g ∈ ended, g ≠ []
  opened : current = [] → ended = []
  stored : s.periods creator = summarize current
  kept : s.lastPeriods creator = ended.getLast?.bind summarize
  published : s.closings creator = (ended.filterMap summarize).map (PeriodSummary.closedEvent creator)

def Accounts (s : Store) (creator : Address) (paid : List (ℕ × IncomeBreakdown)) : Prop :=
  ∃ ended current, ended.flatten ++ current = paid ∧ Periods s creator ended current

structure Balanced (p : PeriodSummary) : Prop where
  taxable : p.taxableIncome = p.grossIncome - p.deducted
  gross : p.grossIncome = p.deducted + p.reserved + p.netPaid

/-! ## The breakdown -/

variable {env : Ledger Unit} {s t u : Store} {v : Unit} {config : StrategyConfig} {brackets : List TaxBracket}
  {b : IncomeBreakdown} {payer creator token admin : Address} {gross prior taxable lo hi tax total : ℤ}
  {p q : PeriodSummary} {c : Ledger Unit × TaxCall}

@[simp] theorem checked_ok {x : Option ℤ} {a : ℤ} : checked x = .ok a ↔ x = some a := by
  cases x <;> simp [checked]

theorem subtract_ok {x y z : ℤ} (h : subtract x y = .ok z) : z = x - y := by
  unfold subtract at h
  split_ifs at h
  exact (Except.ok.inj h).symm

/-- What the validation of brackets checks. -/
structure Ascending (brackets : List TaxBracket) : Prop where
  rates : ∀ b ∈ brackets, b.rateBps ≤ maxRateBps
  chain : brackets.IsChain fun a b => a.threshold < b.threshold

theorem checkBrackets_ok {prev : Option ℤ} (h : checkBrackets prev brackets = .ok ()) :
    Ascending brackets ∧ ∀ b ∈ brackets.head?, ∀ x ∈ prev, x < b.threshold := by
  induction brackets generalizing prev with
  | nil => exact ⟨⟨nofun, .nil⟩, nofun⟩
  | cons b rest ih =>
      obtain ⟨hrate, hprev, hrest⟩ : b.rateBps ≤ maxRateBps ∧ (∀ x ∈ prev, x < b.threshold) ∧
          checkBrackets (some b.threshold) rest = .ok () := by
        cases prev with
        | none =>
            simp only [checkBrackets] at h
            split_ifs at h with hrate
            exact ⟨not_lt.1 hrate, nofun, h⟩
        | some x =>
            simp only [checkBrackets] at h
            split_ifs at h with hrate hle
            refine ⟨not_lt.1 hrate, ?_, h⟩
            rintro _ ⟨⟩
            exact not_le.1 hle
      obtain ⟨hascending, hhead⟩ := ih hrest
      refine ⟨⟨?_, ?_⟩, ?_⟩
      · rintro d (_ | ⟨_, hd⟩)
        · exact hrate
        · exact hascending.rates d hd
      · exact List.isChain_cons.2 ⟨fun d hd => hhead d hd _ rfl, hascending.chain⟩
      · rintro _ ⟨⟩
        exact hprev

theorem validateBrackets_ok (h : validateBrackets brackets = .ok ()) : Ascending brackets := by
  unfold validateBrackets at h
  split_ifs at h
  exact (checkBrackets_ok h).1

/-- The part of the income above the first threshold. -/
def above (start finish : ℤ) : List TaxBracket → ℤ
  | [] => 0
  | b :: _ => max 0 (finish - max start b.threshold)

/-- The cut off part of a scaled amount. -/
theorem part_bounds {x : ℤ} {rate bound : ℕ} (hx : 0 ≤ x) (hrate : rate ≤ bound) :
    0 ≤ (x * rate).tdiv 10000 ∧ (x * rate).tdiv 10000 * 10000 ≤ x * bound := by
  have hscaled : 0 ≤ x * rate := by positivity
  have hle : x * rate ≤ x * bound := mul_le_mul_of_nonneg_left (by exact_mod_cast hrate) hx
  rw [Int.tdiv_eq_ediv_of_nonneg hscaled]
  omega

/-- The slices of ascending brackets do not overlap, so at the highest rate they cost no more than the
whole above the first threshold. -/
theorem taxSlices_bounds (hbrackets : Ascending brackets) (h : taxSlices lo hi brackets tax = .ok total) :
    tax ≤ total ∧ (total - tax) * 10000 ≤ 6000 * above lo hi brackets := by
  induction brackets generalizing tax with
  | nil =>
      obtain rfl := Except.ok.inj h
      simp [above]
  | cons b rest ih =>
      obtain ⟨hlink, hchain⟩ := List.isChain_cons.1 hbrackets.chain
      have hrest : Ascending rest := ⟨fun d hd => hbrackets.rates d (List.mem_cons_of_mem b hd), hchain⟩
      have hrate := hbrackets.rates b (by simp)
      unfold taxSlices at h
      have hroom : above lo hi rest +
          max 0 (min hi ((rest.head?.map TaxBracket.threshold).getD i128Max) - max lo b.threshold) ≤
            above lo hi (b :: rest) := by
        cases rest with
        | nil =>
            simp only [above]
            omega
        | cons d rest =>
            have hlt := hlink d rfl
            simp only [above, List.head?_cons, Option.map_some, Option.getD_some]
            omega
      dsimp only at h
      split_ifs at h with hlt
      · simp only [except_bind_ok, checked_ok] at h
        obtain ⟨slice, hslice, scaled, hscaled, next, hnext, h⟩ := h
        obtain rfl := subtract_ok hslice
        obtain rfl := checkedMulI128_eq hscaled
        obtain rfl := checkedAddI128_eq hnext
        obtain ⟨hmono, hbound⟩ := ih hrest h
        obtain ⟨hpos, hcap⟩ := part_bounds (sub_nonneg.2 hlt.le) hrate
        have hmax : (maxRateBps : ℤ) = 6000 := rfl
        rw [hmax] at hcap
        constructor <;> omega
      · obtain ⟨hmono, hbound⟩ := ih hrest h
        constructor <;> omega

theorem marginalTax_bounds (hbrackets : Ascending brackets) (htaxable : 0 ≤ taxable)
    (h : marginalTax brackets prior taxable = .ok total) : 0 ≤ total ∧ total * 10000 ≤ 6000 * taxable := by
  simp only [marginalTax, except_bind_ok, checked_ok] at h
  obtain ⟨finish, hfinish, h⟩ := h
  obtain rfl := checkedAddI128_eq hfinish
  obtain ⟨hpos, hbound⟩ := taxSlices_bounds hbrackets h
  refine ⟨hpos, ?_⟩
  have hle : above prior (prior + taxable) brackets ≤ taxable := by
    cases brackets <;> simp only [above] <;> omega
  omega

/-- What the validation of a strategy establishes; a template is looked at when it is set. -/
structure Validated (config : StrategyConfig) : Prop where
  flat : config.kind = .flat → config.flatBps ≤ maxRateBps
  progressive : config.kind = .progressive → Ascending config.brackets
  deduction : config.deductionBps ≤ maxDeductionBps
  wallet : 0 < config.deductionBps → ∃ wallet, config.deductionWallet = some wallet

theorem validateConfig_ok (h : validateConfig config s = .ok (v, t)) : Validated config ∧ s = t := by
  unfold validateConfig at h
  obtain ⟨_, u, hkind, h⟩ := bind_ok.1 h
  rw [require_bind, require_ok] at h
  obtain ⟨⟨hdeduction, hwallet⟩, -, rfl⟩ := h
  have hstored : 0 < config.deductionBps → ∃ wallet, config.deductionWallet = some wallet :=
    fun hpos => Option.ne_none_iff_exists'.1 fun hnone => hwallet ⟨hpos, hnone⟩
  cases hk : config.kind with
  | flat =>
      rw [hk] at hkind
      obtain ⟨hflat, rfl⟩ := require_ok.1 hkind
      exact ⟨⟨fun _ => hflat, by simp [hk], hdeduction, hstored⟩, rfl⟩
  | progressive =>
      rw [hk] at hkind
      obtain ⟨hbrackets, rfl⟩ := ofResult_ok.1 hkind
      exact ⟨⟨by simp [hk], fun _ => validateBrackets_ok hbrackets, hdeduction, hstored⟩, rfl⟩
  | template =>
      simp only [hk, orError_bind, get_bind, require_ok] at hkind
      obtain ⟨_, -, -, rfl⟩ := hkind
      exact ⟨⟨by simp [hk], by simp [hk], hdeduction, hstored⟩, rfl⟩

variable {templates : Symbol → Option (List TaxBracket)}

theorem reserveOf_bounds (htemplates : ∀ name brackets, templates name = some brackets → Ascending brackets)
    (hconfig : Validated config) (htaxable : 0 ≤ taxable) (h : reserveOf templates config prior taxable = .ok total) :
    0 ≤ total ∧ total * 10000 ≤ 6000 * taxable := by
  unfold reserveOf at h
  split at h
  · rename_i hk
    simp only [except_bind_ok, checked_ok] at h
    obtain ⟨scaled, hscaled, h⟩ := h
    obtain rfl := checkedMulI128_eq hscaled
    obtain rfl := Except.ok.inj h
    obtain ⟨hpos, hcap⟩ := part_bounds htaxable (hconfig.flat hk)
    have hmax : (maxRateBps : ℤ) = 6000 := rfl
    rw [hmax] at hcap
    exact ⟨hpos, by omega⟩
  · rename_i hk
    exact marginalTax_bounds (hconfig.progressive hk) htaxable h
  · split at h
    · cases h
    · rename_i name _
      rw [except_bind_ok] at h
      obtain ⟨brackets, hload, h⟩ := h
      unfold loadTemplate at hload
      split at hload
      · rename_i found hfound
        obtain rfl := Except.ok.inj hload
        exact marginalTax_bounds (htemplates name found hfound) htaxable h
      · cases hload

theorem computeBreakdown_ok (htemplates : ∀ name brackets, templates name = some brackets → Ascending brackets)
    (hconfig : Validated config) (h : computeBreakdown templates config prior gross = .ok b) :
    Divides gross b ∧ (0 < b.deducted → ∃ wallet, config.deductionWallet = some wallet) := by
  unfold computeBreakdown at h
  split_ifs at h with hgross
  simp only [except_bind_ok, checked_ok] at h
  obtain ⟨scaled, hscaled, taxable, htaxable, reserved, hreserve, net, hnet, rate, -, h⟩ := h
  obtain rfl := Except.ok.inj h
  obtain rfl := checkedMulI128_eq hscaled
  obtain rfl := subtract_ok hnet
  have hpos : 0 < gross := not_le.1 hgross
  obtain ⟨hzero, hcap⟩ := part_bounds hpos.le hconfig.deduction
  have hmax : (maxDeductionBps : ℤ) = 3000 := rfl
  rw [hmax] at hcap
  have htaxed := subtract_ok htaxable
  have hleft : 0 ≤ taxable := by omega
  obtain ⟨hreserved, hbound⟩ := reserveOf_bounds htemplates hconfig hleft hreserve
  refine ⟨⟨hpos, rfl, htaxed, ?_, hzero, hreserved, ?_, ?_⟩, fun hdeducted => hconfig.wallet ?_⟩
  · dsimp only
    omega
  · dsimp only
    omega
  · rw [← htaxed]
    exact hbound
  · by_contra hnone
    rw [Nat.eq_zero_of_not_pos hnone] at hdeducted
    simp at hdeducted

/-! ## What the calls do -/

@[simp] theorem transfer_ok {src dst : Address} {amount : ℤ} : transfer env token src dst amount s = .ok (v, t) ↔
    env.accepts s.log ⟨token, src, dst, amount, ()⟩ = true ∧
      { s with log := ⟨token, src, dst, amount, ()⟩ :: s.log } = t := by
  simp [transfer]

@[simp] theorem emit_ok {e : TaxEvent} : emit e s = .ok (v, t) ↔ { s with events := e :: s.events } = t := by
  simp [emit]

theorem sent_append (xs ys : List (Address × ℤ)) :
    sent payer token (xs ++ ys) = sent payer token xs ++ sent payer token ys := by
  simp [sent]

theorem sum_sent {parts : List (Address × ℤ)} (h : ∀ p ∈ parts, 0 ≤ p.2) :
    ((sent payer token parts).map Transfer.amount).sum = (parts.map Prod.snd).sum := by
  induction parts with
  | nil => rfl
  | cons p parts ih =>
      have hrest := ih fun q hq => h q (List.mem_cons_of_mem p hq)
      have hfirst := h p (by simp)
      unfold sent at hrest ⊢
      rw [List.filter_cons]
      split_ifs with hpos
      · rw [List.map_cons, List.map_cons, List.sum_cons, hrest, List.map_cons, List.sum_cons]
      · rw [hrest, List.map_cons, List.sum_cons]
        simp only [decide_eq_true_eq] at hpos
        omega

/-- The parts make up the amount. -/
theorem sum_movements (hb : Divides gross b) (hwallet : 0 < b.deducted → ∃ wallet, config.deductionWallet = some wallet) :
    ((movements config payer creator token b).map Transfer.amount).sum = gross := by
  have hparts := hb.parts
  unfold movements
  rw [sum_sent]
  · unfold IncomeBreakdown.parts
    cases hw : config.deductionWallet with
    | none =>
        have hzero : b.deducted = 0 := by
          refine le_antisymm (not_lt.1 fun hpos => ?_) hb.deducted
          obtain ⟨wallet, hsome⟩ := hwallet hpos
          cases hw.symm.trans hsome
        simp only [Option.toList_none, List.map_nil, List.nil_append, List.map_cons, List.sum_cons, List.sum_nil]
        omega
    | some wallet =>
        simp only [Option.toList_some, List.map_cons, List.map_nil, List.singleton_append, List.sum_cons,
          List.sum_nil]
        omega
  · intro p hp
    simp only [IncomeBreakdown.parts, List.mem_append, List.mem_map, List.mem_cons, List.not_mem_nil, or_false] at hp
    rcases hp with ⟨wallet, -, rfl⟩ | rfl | rfl
    · exact hb.deducted
    · exact hb.reserved
    · exact hb.net

/-- A part is sent exactly if it is not zero. -/
theorem sendPart_ok {dst : Address} {amount : ℤ}
    (h : onlyIf (0 < amount) (transfer env token payer dst amount) s = .ok (v, t)) :
    t = { s with log := (sent payer token [(dst, amount)]).reverse ++ s.log } := by
  rcases onlyIf_ok.1 h with ⟨hpos, hsend⟩ | ⟨hzero, rfl⟩
  · obtain ⟨-, rfl⟩ := transfer_ok.1 hsend
    simp [sent, hpos]
  · simp [sent, hzero]

theorem payOut_ok (h : payOut env config payer creator token b s = .ok (v, t)) :
    t = { s with log := (movements config payer creator token b).reverse ++ s.log } := by
  obtain ⟨_, s₁, hfirst, h⟩ := bind_ok.1 h
  obtain ⟨_, s₂, hsecond, hthird⟩ := bind_ok.1 h
  have h₁ : s₁ = { s with log :=
      (sent payer token (config.deductionWallet.toList.map fun wallet => (wallet, b.deducted))).reverse ++ s.log } := by
    cases hwallet : config.deductionWallet with
    | none =>
        rw [hwallet] at hfirst
        rcases onlyIf_ok.1 hfirst with ⟨-, hnone⟩ | ⟨-, rfl⟩
        · obtain ⟨-, rfl⟩ := pure_ok.1 hnone
          rfl
        · rfl
    | some wallet =>
        rw [hwallet] at hfirst
        exact sendPart_ok hfirst
  have hparts : movements config payer creator token b =
      sent payer token (config.deductionWallet.toList.map fun wallet => (wallet, b.deducted)) ++
        (sent payer token [(config.reserveWallet, b.reserved)] ++ sent payer token [(creator, b.net)]) := by
    rw [← sent_append, ← sent_append]
    rfl
  rw [sendPart_ok hthird, sendPart_ok hsecond, h₁, hparts]
  simp

/-- The current period goes on, or it is over and archived, or there is none yet. -/
theorem currentPeriod_ok {periodLedgers : ℕ} (h : currentPeriod env creator periodLedgers true s = .ok (p, t)) :
    s.periods creator = some p ∧ t = s ∨
      p = newPeriod env.sequence ∧
        ((∃ q, s.periods creator = some q ∧ t = { s with
          lastPeriods := update s.lastPeriods creator (some q), events := q.closedEvent creator :: s.events }) ∨
        s.periods creator = none ∧ t = s) := by
  rw [currentPeriod, get_bind] at h
  cases hperiod : s.periods creator with
  | none =>
      rw [hperiod] at h
      obtain ⟨rfl, rfl⟩ := pure_ok.1 h
      exact .inr ⟨rfl, .inr ⟨rfl, rfl⟩⟩
  | some q =>
      rw [hperiod] at h
      dsimp only at h
      split_ifs at h
      · obtain ⟨rfl, rfl⟩ := pure_ok.1 h
        exact .inl ⟨rfl, rfl⟩
      · obtain ⟨_, u, hroll, h⟩ := bind_ok.1 h
        obtain ⟨rfl, rfl⟩ := pure_ok.1 h
        obtain ⟨-, hroll⟩ := (onlyIf_ok.1 hroll).resolve_right fun h => h.1 rfl
        obtain ⟨_, w, hkeep, hemit⟩ := bind_ok.1 hroll
        obtain rfl := modify_ok.1 hkeep
        obtain rfl := emit_ok.1 hemit
        exact .inr ⟨rfl, .inl ⟨q, rfl, rfl⟩⟩

/-- Without archiving, the same period is found. -/
theorem currentPeriod_view {periodLedgers : ℕ} (h : currentPeriod env creator periodLedgers true s = .ok (p, t)) :
    currentPeriod env creator periodLedgers false s = .ok (p, s) := by
  rw [currentPeriod, get_bind] at h ⊢
  cases hperiod : s.periods creator with
  | none =>
      rw [hperiod] at h
      obtain ⟨rfl, rfl⟩ := pure_ok.1 h
      rfl
  | some q =>
      rw [hperiod] at h
      dsimp only at h ⊢
      split_ifs at h ⊢
      · obtain ⟨rfl, rfl⟩ := pure_ok.1 h
        rfl
      · obtain ⟨_, u, -, h⟩ := bind_ok.1 h
        obtain ⟨rfl, -⟩ := pure_ok.1 h
        rfl

/-- The period with one more payment. -/
def PeriodSummary.add (p : PeriodSummary) (b : IncomeBreakdown) : PeriodSummary :=
  { p with
    grossIncome := p.grossIncome + b.gross, taxableIncome := p.taxableIncome + b.taxable
    deducted := p.deducted + b.deducted, reserved := p.reserved + b.reserved, netPaid := p.netPaid + b.net }

theorem addTo_ok (h : addTo p b = .ok q) : q = p.add b := by
  simp only [addTo, except_bind_ok, checked_ok] at h
  obtain ⟨_, hgross, _, htaxable, _, hdeducted, _, hreserved, _, hnet, h⟩ := h
  obtain rfl := checkedAddI128_eq hgross
  obtain rfl := checkedAddI128_eq htaxable
  obtain rfl := checkedAddI128_eq hdeducted
  obtain rfl := checkedAddI128_eq hreserved
  obtain rfl := checkedAddI128_eq hnet
  exact (Except.ok.inj h).symm

theorem processIncome_ok (h : processIncome env payer creator token gross s = .ok (b, t)) :
    ∃ strategy period u, s.strategies creator = some strategy ∧
      currentPeriod env creator strategy.config.periodLedgers true s = .ok (period, u) ∧
      computeBreakdown u.templates strategy.config period.taxableIncome gross = .ok b ∧
      t = { u with
        log := (movements strategy.config payer creator token b).reverse ++ u.log
        periods := update u.periods creator (some (period.add b))
        events := .income creator token b.gross b.deducted b.reserved b.net :: u.events } := by
  simp only [processIncome, loadStrategy, requireAuth_bind, bind_assoc, get_bind, orError_bind] at h
  obtain ⟨-, strategy, hstrategy, h⟩ := h
  obtain ⟨period, u, hperiod, h⟩ := bind_ok.1 h
  simp only [get_bind, ofResult_bind] at h
  obtain ⟨b', hb, h⟩ := h
  obtain ⟨_, w, hpay, h⟩ := bind_ok.1 h
  obtain rfl := payOut_ok hpay
  rw [ofResult_bind] at h
  obtain ⟨period', hadd, h⟩ := h
  obtain rfl := addTo_ok hadd
  obtain ⟨_, w, hsave, h⟩ := bind_ok.1 h
  obtain rfl := modify_ok.1 hsave
  obtain ⟨_, w, hemit, h⟩ := bind_ok.1 h
  obtain rfl := emit_ok.1 hemit
  obtain ⟨rfl, rfl⟩ := pure_ok.1 h
  exact ⟨strategy, period, u, hstrategy, hperiod, hb, rfl⟩

theorem requireAdmin_frame (h : requireAdmin env admin s = .ok (v, t)) : s = t := by
  simp only [requireAdmin, get_bind, orError_bind, require_bind, requireAuth_ok] at h
  obtain ⟨_, -, -, -, hsame⟩ := h
  exact hsame

/-- What a call that is no payment may change; the event that it publishes closes no period. -/
structure Sets (s t : Store) : Prop where
  templates : ∀ name brackets, t.templates name = some brackets →
    s.templates name = some brackets ∨ Ascending brackets
  strategies : ∀ creator strategy, t.strategies creator = some strategy →
    s.strategies creator = some strategy ∨ Validated strategy.config
  periods : t.periods = s.periods
  lastPeriods : t.lastPeriods = s.lastPeriods
  closings : ∀ creator, t.closings creator = s.closings creator

theorem closings_emit {e : TaxEvent} (hevents : t.events = e :: s.events) (he : e.closes creator = false) :
    t.closings creator = s.closings creator := by
  unfold Store.closings
  rw [hevents, List.filter_cons, he]
  simp

theorem initializeContract_sets (h : initializeContract admin s = .ok (v, t)) : Sets s t := by
  simp only [initializeContract, get_bind, require_bind, set_ok] at h
  obtain ⟨-, rfl⟩ := h
  exact ⟨fun _ _ => .inl, fun _ _ => .inl, rfl, rfl, fun _ => rfl⟩

theorem setTemplate_sets {name : Symbol} (h : setTemplate env admin name brackets s = .ok (v, t)) : Sets s t := by
  obtain ⟨_, u, hadmin, h⟩ := bind_ok.1 h
  obtain rfl := requireAdmin_frame hadmin
  rw [ofResult_bind] at h
  obtain ⟨_, hbrackets, h⟩ := h
  obtain ⟨_, w, hsave, hemit⟩ := bind_ok.1 h
  obtain rfl := modify_ok.1 hsave
  obtain rfl := emit_ok.1 hemit
  exact ⟨forall_update (fun _ _ => .inl) (.inr (validateBrackets_ok hbrackets)), fun _ _ => .inl, rfl, rfl,
    fun _ => closings_emit rfl rfl⟩

theorem removeTemplate_sets {name : Symbol} (h : removeTemplate env admin name s = .ok (v, t)) : Sets s t := by
  obtain ⟨_, u, hadmin, h⟩ := bind_ok.1 h
  obtain rfl := requireAdmin_frame hadmin
  rw [get_bind, require_bind] at h
  obtain ⟨-, h⟩ := h
  obtain ⟨_, w, hsave, hemit⟩ := bind_ok.1 h
  obtain rfl := set_ok.1 hsave
  obtain rfl := emit_ok.1 hemit
  refine ⟨fun other found hfound => ?_, fun _ _ => .inl, rfl, rfl, fun _ => closings_emit rfl rfl⟩
  rcases eq_or_ne other name with rfl | hne
  · simp at hfound
  · exact .inl ((update_of_ne hne _ _).symm.trans hfound)

theorem setStrategy_sets (h : setStrategy env creator config s = .ok (v, t)) : Sets s t := by
  simp only [setStrategy, requireAuth_bind, get_bind, require_bind] at h
  obtain ⟨-, -, h⟩ := h
  obtain ⟨_, u, hvalid, h⟩ := bind_ok.1 h
  obtain ⟨hconfig, rfl⟩ := validateConfig_ok hvalid
  obtain ⟨_, w, hsave, hemit⟩ := bind_ok.1 h
  obtain rfl := modify_ok.1 hsave
  obtain rfl := emit_ok.1 hemit
  exact ⟨fun _ _ => .inl, forall_update (fun _ _ => .inl) (.inr hconfig), rfl, rfl, fun _ => closings_emit rfl rfl⟩

theorem removeStrategy_sets (h : removeStrategy env creator s = .ok (v, t)) : Sets s t := by
  simp only [removeStrategy, requireAuth_bind, get_bind, require_bind] at h
  obtain ⟨-, -, h⟩ := h
  obtain ⟨_, w, hsave, hemit⟩ := bind_ok.1 h
  obtain rfl := set_ok.1 hsave
  obtain rfl := emit_ok.1 hemit
  refine ⟨fun _ _ => .inl, fun other found hfound => ?_, rfl, rfl, fun _ => closings_emit rfl rfl⟩
  rcases eq_or_ne other creator with rfl | hne
  · simp at hfound
  · exact .inl ((update_of_ne hne _ _).symm.trans hfound)

/-! ## Periods -/

variable {ended : List (List (ℕ × IncomeBreakdown))} {current paid : List (ℕ × IncomeBreakdown)} {ledger : ℕ}

theorem summarize_single (ledger : ℕ) (b : IncomeBreakdown) :
    summarize [(ledger, b)] = some ((newPeriod ledger).add b) := by
  simp [summarize, newPeriod, PeriodSummary.add]

theorem summarize_snoc (h : summarize current = some p) (ledger : ℕ) (b : IncomeBreakdown) :
    summarize (current ++ [(ledger, b)]) = some (p.add b) := by
  cases current with
  | nil => cases h
  | cons x rest =>
      obtain rfl := Option.some.inj h
      simp [summarize, PeriodSummary.add, add_assoc]

theorem summarize_eq_none : summarize current = none ↔ current = [] := by
  cases current <;> simp [summarize]

namespace Periods

theorem start : Periods {} creator [] [] := ⟨nofun, fun _ => rfl, rfl, rfl, rfl⟩

theorem congr (h : Periods s creator ended current) (hperiod : t.periods creator = s.periods creator)
    (hlast : t.lastPeriods creator = s.lastPeriods creator) (hclosings : t.closings creator = s.closings creator) :
    Periods t creator ended current := by
  refine ⟨h.nonempty, h.opened, ?_, ?_, ?_⟩
  · rw [hperiod, h.stored]
  · rw [hlast, h.kept]
  · rw [hclosings, h.published]

/-- A payment in the current period. -/
theorem pay (h : Periods s creator ended current) (hperiod : s.periods creator = some p)
    (hstored : t.periods creator = some (p.add b)) (hlast : t.lastPeriods creator = s.lastPeriods creator)
    (hclosings : t.closings creator = s.closings creator) :
    Periods t creator ended (current ++ [(ledger, b)]) := by
  refine ⟨h.nonempty, by simp, ?_, ?_, ?_⟩
  · rw [hstored, summarize_snoc (h.stored.symm.trans hperiod)]
  · rw [hlast, h.kept]
  · rw [hclosings, h.published]

/-- The first payment of all. -/
theorem first (h : Periods s creator ended current) (hperiod : s.periods creator = none)
    (hstored : t.periods creator = some ((newPeriod ledger).add b))
    (hlast : t.lastPeriods creator = s.lastPeriods creator) (hclosings : t.closings creator = s.closings creator) :
    current = [] ∧ Periods t creator ended [(ledger, b)] := by
  refine ⟨summarize_eq_none.1 (h.stored.symm.trans hperiod), h.nonempty, nofun, ?_, ?_, ?_⟩
  · rw [hstored, summarize_single]
  · rw [hlast, h.kept]
  · rw [hclosings, h.published]

/-- The first payment after a period that is over. -/
theorem roll (h : Periods s creator ended current) (hperiod : s.periods creator = some q)
    (hstored : t.periods creator = some ((newPeriod ledger).add b)) (hlast : t.lastPeriods creator = some q)
    (hclosings : t.closings creator = s.closings creator ++ [q.closedEvent creator]) :
    Periods t creator (ended ++ [current]) [(ledger, b)] := by
  have hsum : summarize current = some q := h.stored.symm.trans hperiod
  refine ⟨?_, nofun, ?_, ?_, ?_⟩
  · intro g hg
    rcases List.mem_append.1 hg with hg | hg
    · exact h.nonempty g hg
    · rw [List.mem_singleton.1 hg]
      rintro rfl
      cases hsum
  · rw [hstored, summarize_single]
  · rw [hlast, List.getLast?_concat, Option.bind_some, hsum]
  · rw [hclosings, h.published, List.filterMap_append, List.map_append, List.filterMap_cons, hsum]
    rfl

end Periods

/-! ## The invariant -/

/-- Brackets and strategies are validated, and the payments to each creator fall into balanced periods. -/
structure Sound (s : Store) (paid : Address → List (ℕ × IncomeBreakdown)) : Prop where
  templates : ∀ name brackets, s.templates name = some brackets → Ascending brackets
  strategies : ∀ creator strategy, s.strategies creator = some strategy → Validated strategy.config
  balanced : ∀ creator p, s.periods creator = some p → Balanced p
  accounts : ∀ creator, Accounts s creator (paid creator)

theorem Balanced.add (hp : Balanced p) (hb : Divides gross b) : Balanced (p.add b) := by
  have hwhole := hb.whole
  have htaxable := hb.taxable
  have hparts := hb.parts
  constructor
  · simp only [PeriodSummary.add, hp.taxable]
    omega
  · simp only [PeriodSummary.add, hp.gross]
    omega

theorem Balanced.newPeriod (ledger : ℕ) : Balanced (newPeriod ledger) := ⟨rfl, rfl⟩

namespace Sound

variable {book : Address → List (ℕ × IncomeBreakdown)}

theorem start : Sound {} fun _ => [] where
  templates _ _ h := nomatch h
  strategies _ _ h := nomatch h
  balanced _ _ h := nomatch h
  accounts _ := ⟨[], [], rfl, .start⟩

theorem sets (h : Sound s book) (hst : Sets s t) : Sound t book := by
  refine ⟨fun name brackets hfound => ?_, fun creator strategy hfound => ?_, ?_, fun creator => ?_⟩
  · rcases hst.templates name brackets hfound with hold | hnew
    · exact h.templates name brackets hold
    · exact hnew
  · rcases hst.strategies creator strategy hfound with hold | hnew
    · exact h.strategies creator strategy hold
    · exact hnew
  · rw [hst.periods]
    exact h.balanced
  · obtain ⟨ended, current, hpaid, hperiods⟩ := h.accounts creator
    refine ⟨ended, current, hpaid, hperiods.congr ?_ ?_ (hst.closings creator)⟩
    · rw [hst.periods]
    · rw [hst.lastPeriods]

/-- The payment divides the amount by the strategy that is stored. -/
theorem divides (h : Sound s book) {strategy : TaxStrategy} (hstrategy : s.strategies creator = some strategy)
    (hb : computeBreakdown s.templates strategy.config prior gross = .ok b) :
    Divides gross b ∧ (0 < b.deducted → ∃ wallet, strategy.config.deductionWallet = some wallet) :=
  computeBreakdown_ok h.templates (h.strategies creator strategy hstrategy) hb

theorem routed (h : Sound s book) (hrun : processIncome env payer creator token gross s = .ok (b, t)) :
    Routed env payer creator token gross s t b := by
  obtain ⟨strategy, period, u, hstrategy, hperiod, hb, rfl⟩ := processIncome_ok hrun
  obtain ⟨htemplates, hlog⟩ : u.templates = s.templates ∧ u.log = s.log := by
    rcases currentPeriod_ok hperiod with ⟨-, rfl⟩ | ⟨-, ⟨q, -, rfl⟩ | ⟨-, rfl⟩⟩ <;> exact ⟨rfl, rfl⟩
  rw [htemplates] at hb
  obtain ⟨hdivides, hwallet⟩ := h.divides hstrategy hb
  refine ⟨hdivides, ⟨strategy, hstrategy, ?_, sum_movements hdivides hwallet⟩, ?_⟩
  · dsimp only
    rw [hlog]
  · simp only [estimate, loadStrategy, bind_assoc, get_bind, orError_bind]
    refine ⟨strategy, hstrategy, bind_ok.2 ⟨period, s, currentPeriod_view hperiod, ?_⟩⟩
    rw [get_bind, ofResult_ok]
    exact ⟨hb, rfl⟩

/-- The accounts of the creator after a payment. -/
theorem account (h : Sound s book) {n : ℕ} (hperiod : currentPeriod env creator n true s = .ok (p, u))
    (hstored : t.periods creator = some (p.add b)) (hlast : t.lastPeriods = u.lastPeriods)
    (hclosings : t.closings creator = u.closings creator) :
    Accounts t creator (book creator ++ [(env.sequence, b)]) := by
  obtain ⟨ended, current, hpaid, hperiods⟩ := h.accounts creator
  rw [← hpaid]
  rcases currentPeriod_ok hperiod with ⟨hcurrent, rfl⟩ | ⟨rfl, ⟨q, hq, rfl⟩ | ⟨hnone, rfl⟩⟩
  · refine ⟨ended, current ++ [(env.sequence, b)], by rw [List.append_assoc], ?_⟩
    exact hperiods.pay hcurrent hstored (by rw [hlast]) hclosings
  · refine ⟨ended ++ [current], [(env.sequence, b)], by simp, hperiods.roll hq hstored ?_ ?_⟩
    · rw [hlast]
      exact update_self ..
    · rw [hclosings]
      simp [Store.closings, PeriodSummary.closedEvent, TaxEvent.closes]
  · obtain ⟨rfl, hfirst⟩ := hperiods.first hnone hstored (by rw [hlast]) hclosings
    exact ⟨ended, [(env.sequence, b)], by simp, hfirst⟩

theorem income (h : Sound s book) (hrun : processIncome env payer creator token gross s = .ok (b, t)) :
    Sound t fun a => book a ++ if creator = a then [(env.sequence, b)] else [] := by
  obtain ⟨strategy, period, u, hstrategy, hperiod, hb, rfl⟩ := processIncome_ok hrun
  have hframe : u.templates = s.templates ∧ u.strategies = s.strategies ∧ u.periods = s.periods ∧
      ∀ a, a ≠ creator → u.lastPeriods a = s.lastPeriods a ∧ u.closings a = s.closings a := by
    rcases currentPeriod_ok hperiod with ⟨-, rfl⟩ | ⟨-, ⟨q, -, rfl⟩ | ⟨-, rfl⟩⟩
    · exact ⟨rfl, rfl, rfl, fun _ _ => ⟨rfl, rfl⟩⟩
    · refine ⟨rfl, rfl, rfl, fun a ha => ⟨update_of_ne ha _ _, closings_emit rfl ?_⟩⟩
      simp [PeriodSummary.closedEvent, TaxEvent.closes, Ne.symm ha]
    · exact ⟨rfl, rfl, rfl, fun _ _ => ⟨rfl, rfl⟩⟩
  obtain ⟨htemplates, hstrategies, hperiods, hothers⟩ := hframe
  rw [htemplates] at hb
  obtain ⟨hdivides, -⟩ := h.divides hstrategy hb
  have hbalanced : Balanced period := by
    rcases currentPeriod_ok hperiod with ⟨hcurrent, -⟩ | ⟨rfl, -⟩
    · exact h.balanced creator period hcurrent
    · exact .newPeriod _
  refine ⟨?_, ?_, ?_, fun a => ?_⟩
  · dsimp only
    rw [htemplates]
    exact h.templates
  · dsimp only
    rw [hstrategies]
    exact h.strategies
  · dsimp only
    rw [hperiods]
    exact forall_update h.balanced (hbalanced.add hdivides)
  · rcases eq_or_ne a creator with rfl | ha
    · rw [if_pos rfl]
      exact h.account hperiod (update_self ..) rfl (closings_emit rfl rfl)
    · rw [if_neg (Ne.symm ha), List.append_nil]
      obtain ⟨hlast, hclosings⟩ := hothers a ha
      obtain ⟨ended, current, hpaid, hold⟩ := h.accounts a
      refine ⟨ended, current, hpaid, hold.congr ?_ hlast ((closings_emit rfl rfl).trans hclosings)⟩
      dsimp only
      rw [update_of_ne ha, hperiods]

end Sound

/-- A call is a payment that returns its breakdown, or it returns nothing and only sets things. -/
theorem taxStep_ok {r : Option IncomeBreakdown} (hrun : taxStep c s = .ok (r, t)) :
    (∃ payer creator token gross b, c.2 = .income payer creator token gross ∧ r = some b ∧
      processIncome c.1 payer creator token gross s = .ok (b, t)) ∨ r = none ∧ Sets s t := by
  obtain ⟨env, call⟩ := c
  have hplain : ∀ {x : TaxM Unit}, (do x; pure none : TaxM (Option IncomeBreakdown)) s = .ok (r, t) →
      r = none ∧ x s = .ok ((), t) := by
    intro x h
    obtain ⟨_, u, hx, h⟩ := bind_ok.1 h
    obtain ⟨rfl, rfl⟩ := pure_ok.1 h
    exact ⟨rfl, hx⟩
  cases call with
  | setUp admin =>
      obtain ⟨hnone, h⟩ := hplain hrun
      exact .inr ⟨hnone, initializeContract_sets h⟩
  | setTemplate admin name brackets =>
      obtain ⟨hnone, h⟩ := hplain hrun
      exact .inr ⟨hnone, setTemplate_sets h⟩
  | removeTemplate admin name =>
      obtain ⟨hnone, h⟩ := hplain hrun
      exact .inr ⟨hnone, removeTemplate_sets h⟩
  | setStrategy creator config =>
      obtain ⟨hnone, h⟩ := hplain hrun
      exact .inr ⟨hnone, setStrategy_sets h⟩
  | removeStrategy creator =>
      obtain ⟨hnone, h⟩ := hplain hrun
      exact .inr ⟨hnone, removeStrategy_sets h⟩
  | income payer creator token gross =>
      obtain ⟨b, u, h, hpure⟩ := bind_ok.1 hrun
      obtain ⟨rfl, rfl⟩ := pure_ok.1 hpure
      exact .inl ⟨payer, creator, token, gross, b, rfl, rfl, h⟩

theorem reachable_sound (calls : List (Ledger Unit × TaxCall)) :
    Sound (runAll taxStep {} calls) fun creator => payments creator calls := by
  refine runAll_returned (H := fun rs s => Sound s fun creator => rs.filterMap (paymentTo creator)) .start ?_
    (along_true taxStep {} calls)
  intro rs s c r t h _ hrun
  simp only [List.filterMap_append]
  rcases taxStep_ok hrun with ⟨payer, creator, token, gross, b, hcall, rfl, hincome⟩ | ⟨rfl, hsets⟩
  · obtain ⟨env, call⟩ := c
    obtain rfl : call = .income payer creator token gross := hcall
    have hpaid : ∀ a, [((env, TaxCall.income payer creator token gross), some b)].filterMap (paymentTo a) =
        if creator = a then [(env.sequence, b)] else [] := by
      intro a
      by_cases ha : creator = a <;> simp [paymentTo, ha]
    simp only [hpaid]
    exact h.income hincome
  · have hpaid : ∀ a, [(c, (none : Option IncomeBreakdown))].filterMap (paymentTo a) = [] := by
      intro a
      simp [paymentTo]
    simp only [hpaid, List.append_nil]
    exact h.sets hsets

/-! ## The law -/

/-- Whatever the calls, the payments to each creator fall into periods that are kept and published once
when they are closed and summed up while they are stored, and the next payment is divided and sent as
the estimate says. -/
theorem tax_accounting (calls : List (Ledger Unit × TaxCall)) :
    (∀ creator, Accounts (runAll taxStep {} calls) creator (payments creator calls)) ∧
      (∀ creator p, (runAll taxStep {} calls).periods creator = some p → Balanced p) ∧
        ∀ env payer creator token gross b t,
          taxStep (env, .income payer creator token gross) (runAll taxStep {} calls) = .ok (some b, t) →
            Routed env payer creator token gross (runAll taxStep {} calls) t b := by
  have hsound := reachable_sound calls
  refine ⟨hsound.accounts, hsound.balanced, fun env payer creator token gross b t hrun => ?_⟩
  obtain ⟨b', u, hincome, hpure⟩ := bind_ok.1 hrun
  obtain ⟨hb, rfl⟩ := pure_ok.1 hpure
  obtain rfl := Option.some.inj hb
  exact hsound.routed hincome

/-! ## Two payments at one ledger -/

/-- A flat rate of ten percent and periods of the given length. -/
def flatFor (periodLedgers : ℕ) : StrategyConfig :=
  { kind := .flat, flatBps := 1000, brackets := [], template := none, reserveWallet := 3, deductionBps := 0,
    deductionWallet := none, periodLedgers := periodLedgers }

/-- Everyone signs, at the given ledger. -/
def signedAt (sequence : ℕ) : Ledger Unit :=
  { now := 0, sequence := sequence, auth := fun _ => true, accepts := fun _ _ => true }

/-- Creator 2 shortens the period between two payments at one ledger; the second one starts a new period. -/
def shortened : List (Ledger Unit × TaxCall) :=
  [(signedAt 0, .setUp 1), (signedAt 0, .setStrategy 2 (flatFor 120961)), (signedAt 0, .income 4 2 5 100),
    (signedAt 120960, .income 4 2 5 100), (signedAt 120960, .setStrategy 2 (flatFor 120960)),
    (signedAt 120960, .income 4 2 5 100)]

/-- The stored income is not that of all payments since the ledger at which the period starts. -/
theorem tax_accounting_fails : ¬∀ calls, (calls.map fun c => c.1.sequence).Pairwise (· ≤ ·) →
    ∀ creator p, (runAll taxStep {} calls).periods creator = some p →
      p.grossIncome = (((payments creator calls).filter fun x => p.startLedger ≤ x.1).map (·.2.gross)).sum := by
  intro h
  have hperiod : (runAll taxStep {} shortened).periods 2 =
      some { startLedger := 120960, grossIncome := 100, taxableIncome := 100, reserved := 10, netPaid := 90 } := by
    decide +kernel
  have hsum : (((payments 2 shortened).filter fun x => 120960 ≤ x.1).map (·.2.gross)).sum = 200 := by
    decide +kernel
  have hclaimed := h shortened (by decide) 2 _ hperiod
  rw [hsum] at hclaimed
  exact absurd hclaimed (by decide)

end StellarSplit.Tax
