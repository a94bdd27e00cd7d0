import Mathlib.Algebra.BigOperators.Ring.Finset
import Mathlib.Data.List.MinMax
import Mathlib.Data.List.Nodup
import Mathlib.Data.List.Pairwise
import Mathlib.Data.List.Perm.Subperm
import Mathlib.Algebra.Order.BigOperators.Group.List
import StellarSplit.Lib.Proportion
import StellarSplit.Split.Storage

/-!
# The rules engine

A rule set decides what each recipient gets: of the rules for the recipient that match
the state of the invoice, the one with the smallest priority. Percentages are parts of
the funded amount, and at most one recipient takes what the others leave.
-/

namespace StellarSplit.Split.RuleEngine

open Machine

/-! ## Rules -/

def maxRules : ℕ := 50

inductive RuleCriteria where
  | always
  | fundedAtLeast (value : ℤ)
  | fundedBelow (value : ℤ)
  | payerCountAtLeast (value : ℕ)
  | afterTimestamp (value : ℕ)
  | beforeTimestamp (value : ℕ)
deriving DecidableEq, Repr

inductive RuleAmount where
  | fixed (amount : ℤ)
  | percentage (bps : ℕ)
  | remainder
deriving DecidableEq, Repr

structure SplitRuleDef where
  recipientIndex : ℕ
  priority : ℕ
  criteria : RuleCriteria
  amount : RuleAmount
deriving DecidableEq, Repr

/-- The state of the invoice that rules are evaluated against. -/
structure RuleContext where
  funded : ℤ
  payerCount : ℕ
  timestamp : ℕ
deriving DecidableEq, Repr

/-! ## Validation -/

/-- The threshold of a criterion on the funding. -/
def RuleCriteria.threshold : RuleCriteria → Option ℤ
  | .fundedAtLeast v => some v
  | .fundedBelow v => some v
  | _ => none

/-- The checks on the amount of a rule: the recipient of the remainder so far and the sum of the
unconditional percentages, both with the rule. -/
def validateAmount (remainderRecipient : Option ℕ) (alwaysBps : ℕ) (rule : SplitRuleDef) :
    Result (Option ℕ × ℕ) :=
  match rule.amount with
  | .fixed amount =>
      if ¬0 < amount then .error (.panic "fixed rule amount must be positive")
      else .ok (remainderRecipient, alwaysBps)
  | .percentage bps =>
      if ¬(1 ≤ bps ∧ bps ≤ 10000) then .error (.panic "rule percentage must be 1..=10000 bps")
      else .ok (remainderRecipient, if rule.criteria = .always then satAddU32 alwaysBps bps else alwaysBps)
  | .remainder =>
      match remainderRecipient with
      | some r =>
          if r ≠ rule.recipientIndex then .error (.panic "only one recipient may take the remainder")
          else .ok (remainderRecipient, alwaysBps)
      | none => .ok (some rule.recipientIndex, alwaysBps)

/-- The checks on a rule, with the rules that come after it. -/
def validateRule (recipientCount : ℕ) (remainderRecipient : Option ℕ) (alwaysBps : ℕ)
    (rule : SplitRuleDef) (later : List SplitRuleDef) : Result (Option ℕ × ℕ) :=
  if ¬rule.recipientIndex < recipientCount then .error (.panic "rule recipient index out of range")
  else if ∃ other ∈ later, other.recipientIndex = rule.recipientIndex ∧ other.priority = rule.priority then
    .error (.panic "duplicate rule priority for recipient")
  else if ¬∀ v ∈ rule.criteria.threshold, 0 ≤ v then .error (.panic "rule threshold must be non-negative")
  else validateAmount remainderRecipient alwaysBps rule

/-- The loop of `validate_rules`; its result is the sum of the unconditional percentages. -/
def validateFrom (recipientCount : ℕ) : Option ℕ → ℕ → List SplitRuleDef → Result ℕ
  | _, alwaysBps, [] => .ok alwaysBps
  | remainderRecipient, alwaysBps, rule :: later => do
      let next ← validateRule recipientCount remainderRecipient alwaysBps rule later
      validateFrom recipientCount next.1 next.2 later

def validateRules (rules : List SplitRuleDef) (recipientCount : ℕ) : Result Unit :=
  if rules = [] then .error (.panic "split rules must not be empty")
  else if ¬rules.length ≤ maxRules then .error (.panic "too many split rules")
  else do
    let alwaysBps ← validateFrom recipientCount none 0 rules
    if ¬alwaysBps ≤ 10000 then .error (.panic "unconditional percentages exceed 100%") else .ok ()

/-! ## Evaluation -/

def criteriaMatches (criteria : RuleCriteria) (ctx : RuleContext) : Bool :=
  match criteria with
  | .always => true
  | .fundedAtLeast v => v ≤ ctx.funded
  | .fundedBelow v => ctx.funded < v
  | .payerCountAtLeast v => v ≤ ctx.payerCount
  | .afterTimestamp v => v ≤ ctx.timestamp
  | .beforeTimestamp v => ctx.timestamp < v

/-- The rule is for the recipient and matches. -/
def applies (recipientIndex : ℕ) (ctx : RuleContext) (rule : SplitRuleDef) : Bool :=
  rule.recipientIndex = recipientIndex && criteriaMatches rule.criteria ctx

/-- The rule is better than the best one so far. -/
def better (best : Option SplitRuleDef) (rule : SplitRuleDef) : Bool :=
  match best with
  | some b => rule.priority < b.priority
  | none => true

def selectRule (rules : List SplitRuleDef) (recipientIndex : ℕ) (ctx : RuleContext) :
    Option SplitRuleDef :=
  rules.foldl (fun best rule =>
    if applies recipientIndex ctx rule then
      if better best rule then some rule else best
    else best) none

/-- The amount of the selected rule before the remainder is known. -/
def resolve (funded : ℤ) : Option SplitRuleDef → Result ℤ
  | none => .ok 0
  | some rule =>
      match rule.amount with
      | .fixed amount => .ok amount
      | .percentage bps =>
          match checkedMulI128 funded bps with
          | some product => .ok (product.tdiv 10000)
          | none => .error (.panic "ArithmeticOverflow")
      | .remainder => .ok 0

def takesRemainder (rule : Option SplitRuleDef) : Bool := rule.any fun r => r.amount = .remainder

/-- The variables of the loop of `evaluate`. -/
structure Allocation where
  amounts : List ℤ := []
  remainderIdx : Option ℕ := none
  allocated : ℤ := 0

def allocate (rules : List SplitRuleDef) (ctx : RuleContext) (funded : ℤ) (a : Allocation) (i : ℕ) :
    Result Allocation := do
  let rule := selectRule rules i ctx
  let amount ← resolve funded rule
  match checkedAddI128 a.allocated amount with
  | some allocated =>
      .ok ⟨a.amounts ++ [amount], if takesRemainder rule then some i else a.remainderIdx, allocated⟩
  | none => .error (.panic "ArithmeticOverflow")

def evaluate (rules : List SplitRuleDef) (recipientCount : ℕ) (ctx : RuleContext) : Result (List ℤ) := do
  let funded := if 0 < ctx.funded then ctx.funded else 0
  let a ← (List.range recipientCount).foldlM (allocate rules ctx funded) {}
  if ¬a.allocated ≤ funded then .error (.panic "split rules exceed funded amount")
  else
    match a.remainderIdx with
    | some idx => .ok (a.amounts.set idx (funded - a.allocated))
    | none => .ok a.amounts

/-! ## What a rule set is validated for -/

variable {rules rules' : List SplitRuleDef} {n i : ℕ} {ctx : RuleContext} {rule : SplitRuleDef} {funded : ℤ}

/-- What the rule adds to the sum of the unconditional percentages. -/
def alwaysBps (rule : SplitRuleDef) : ℕ :=
  match rule.criteria, rule.amount with
  | .always, .percentage bps => bps
  | _, _ => 0

/-- What the validation guarantees and the evaluation relies on. -/
structure Validated (rules : List SplitRuleDef) : Prop where
  distinct : rules.Pairwise fun a b => ¬(b.recipientIndex = a.recipientIndex ∧ b.priority = a.priority)
  positive : ∀ rule ∈ rules, ∀ amount, rule.amount = .fixed amount → 0 < amount
  single : ∀ a ∈ rules, ∀ b ∈ rules, a.amount = .remainder → b.amount = .remainder →
    a.recipientIndex = b.recipientIndex
  always : (rules.map alwaysBps).sum ≤ 10000

/-- A rule that passes keeps the recipient of the remainder, or becomes the first to take it. -/
theorem validateAmount_ok {r r' : Option ℕ} {bps bps' : ℕ}
    (h : validateAmount r bps rule = .ok (r', bps')) :
    (∀ amount, rule.amount = .fixed amount → 0 < amount) ∧
      min (bps + alwaysBps rule) u32Max ≤ bps' ∧ (∀ x ∈ r, r' = some x) ∧
      (rule.amount = .remainder → r' = some rule.recipientIndex) := by
  unfold validateAmount at h
  cases hamount : rule.amount with
  | fixed amount =>
      simp only [hamount] at h
      split_ifs at h with hpos
      obtain ⟨rfl, rfl⟩ := Prod.mk.inj (Except.ok.inj h)
      refine ⟨?_, ?_, fun x hx => hx, nofun⟩
      · rintro a ⟨⟩
        exact hpos
      · cases hcriteria : rule.criteria <;> simp [alwaysBps, hamount, hcriteria]
  | percentage bps =>
      simp only [hamount] at h
      split_ifs at h with hrange
      all_goals
        obtain ⟨rfl, rfl⟩ := Prod.mk.inj (Except.ok.inj h)
        refine ⟨nofun, ?_, fun x hx => hx, nofun⟩
      · simp [alwaysBps, *, satAddU32]
      · cases hcriteria : rule.criteria <;> simp_all [alwaysBps]
  | remainder =>
      simp only [hamount] at h
      have hnone : alwaysBps rule = 0 := by cases hcriteria : rule.criteria <;> simp [alwaysBps, hamount, hcriteria]
      cases r with
      | none =>
          obtain ⟨rfl, rfl⟩ := Prod.mk.inj (Except.ok.inj h)
          exact ⟨nofun, by omega, nofun, fun _ => rfl⟩
      | some x =>
          dsimp only at h
          split_ifs at h with hx
          obtain ⟨rfl, rfl⟩ := Prod.mk.inj (Except.ok.inj h)
          exact ⟨nofun, by omega, fun y hy => hy, fun _ => congrArg some (not_not.1 hx)⟩

theorem validateFrom_ok {r : Option ℕ} {bps total : ℕ} (h : validateFrom n r bps rules = .ok total) :
    (rules.Pairwise fun a b => ¬(b.recipientIndex = a.recipientIndex ∧ b.priority = a.priority)) ∧
      (∀ rule ∈ rules, ∀ amount, rule.amount = .fixed amount → 0 < amount) ∧
      min (bps + (rules.map alwaysBps).sum) u32Max ≤ total ∧
      ∃ x, (∀ y ∈ r, y = x) ∧ ∀ rule ∈ rules, rule.amount = .remainder → rule.recipientIndex = x := by
  induction rules generalizing r bps with
  | nil =>
      obtain rfl := Except.ok.inj h
      exact ⟨.nil, nofun, by simp, r.getD 0, fun y hy => by rw [hy]; rfl, nofun⟩
  | cons rule later ih =>
      obtain ⟨⟨r', bps'⟩, hrule, hlater⟩ := Exec.except_bind_ok.1 h
      unfold validateRule at hrule
      split_ifs at hrule with hrange hduplicate hthreshold
      obtain ⟨hpositive, hbps, hkept, htaken⟩ := validateAmount_ok hrule
      obtain ⟨hdistinct, hpositives, htotal, x, hx, hsingle⟩ := ih hlater
      refine ⟨List.pairwise_cons.2 ⟨fun other hother => fun hsame => hduplicate ⟨other, hother, hsame⟩,
        hdistinct⟩, List.forall_mem_cons.2 ⟨hpositive, hpositives⟩, ?_, x, fun y hy => hx y (hkept y hy),
        List.forall_mem_cons.2 ⟨fun hremainder => hx _ (htaken hremainder), hsingle⟩⟩
      rw [List.map_cons, List.sum_cons]
      omega

theorem validateRules_ok {v : Unit} (h : validateRules rules n = .ok v) : Validated rules := by
  unfold validateRules at h
  split_ifs at h with hempty hmany
  obtain ⟨total, hloop, h⟩ := Exec.except_bind_ok.1 h
  split_ifs at h with hle
  obtain ⟨hdistinct, hpositive, htotal, x, -, hsingle⟩ := validateFrom_ok hloop
  refine ⟨hdistinct, hpositive, fun a ha b hb hra hrb => (hsingle a ha hra).trans (hsingle b hb hrb).symm, ?_⟩
  have hsmall : total < u32Max := hle.trans_lt (by decide)
  omega

/-! ## The selected rule -/

/-- The rule decides the amount of the recipient: none of the rules that apply comes before it. -/
structure Decides (rules : List SplitRuleDef) (i : ℕ) (ctx : RuleContext) (rule : SplitRuleDef) : Prop where
  mem : rule ∈ rules
  applies : applies i ctx rule = true
  first : ∀ other ∈ rules, RuleEngine.applies i ctx other = true → rule.priority ≤ other.priority

theorem selectRule_eq (rules : List SplitRuleDef) (i : ℕ) (ctx : RuleContext) :
    selectRule rules i ctx = (rules.filter (applies i ctx)).argmin SplitRuleDef.priority := by
  unfold selectRule List.argmin
  rw [List.foldl_filter]
  congr 1
  funext best rule
  cases best <;> simp [List.argAux, better]

theorem selectRule_some (h : selectRule rules i ctx = some rule) : Decides rules i ctx rule := by
  rw [selectRule_eq] at h
  have hmem := List.mem_filter.1 (List.argmin_mem h)
  refine ⟨hmem.1, hmem.2, fun other hother happlies => ?_⟩
  exact List.le_of_mem_argmin (List.mem_filter.2 ⟨hother, happlies⟩) h

theorem selectRule_none :
    selectRule rules i ctx = none ↔ ∀ rule ∈ rules, ¬applies i ctx rule = true := by
  rw [selectRule_eq, List.argmin_eq_none, List.filter_eq_nil_iff]

/-- Two rules that decide have the same priority, and then they are the same rule. -/
theorem Validated.decides_unique (h : Validated rules) {a b : SplitRuleDef} (ha : Decides rules i ctx a)
    (hb : Decides rules i ctx b) : a = b := by
  by_contra hne
  have hpriority : a.priority = b.priority :=
    le_antisymm (ha.first b hb.mem hb.applies) (hb.first a ha.mem ha.applies)
  have hindex : a.recipientIndex = i ∧ b.recipientIndex = i := by
    have ha' := ha.applies
    have hb' := hb.applies
    simp only [RuleEngine.applies, Bool.and_eq_true, decide_eq_true_eq] at ha' hb'
    exact ⟨ha'.1, hb'.1⟩
  have hsymm : Std.Symm fun a b : SplitRuleDef =>
      ¬(b.recipientIndex = a.recipientIndex ∧ b.priority = a.priority) :=
    ⟨fun a b hab hba => hab ⟨hba.1.symm, hba.2.symm⟩⟩
  exact h.distinct.forall ha.mem hb.mem hne ⟨hindex.2.trans hindex.1.symm, hpriority.symm⟩

theorem Validated.selectRule_of_decides (h : Validated rules) (hrule : Decides rules i ctx rule) :
    selectRule rules i ctx = some rule := by
  cases hselect : selectRule rules i ctx with
  | none => exact absurd hrule.applies (selectRule_none.1 hselect rule hrule.mem)
  | some other => exact congrArg some (h.decides_unique (selectRule_some hselect) hrule)

theorem Decides.of_perm (hperm : rules.Perm rules') (h : Decides rules i ctx rule) :
    Decides rules' i ctx rule :=
  ⟨hperm.mem_iff.1 h.mem, h.applies, fun other hother => h.first other (hperm.mem_iff.2 hother)⟩

theorem Validated.selectRule_perm (h : Validated rules) (hperm : rules'.Perm rules) :
    selectRule rules' i ctx = selectRule rules i ctx := by
  cases hselect : selectRule rules' i ctx with
  | none =>
      refine (selectRule_none.2 fun rule hrule => ?_).symm
      exact selectRule_none.1 hselect rule (hperm.mem_iff.2 hrule)
  | some rule => exact (h.selectRule_of_decides ((selectRule_some hselect).of_perm hperm)).symm

/-- The evaluation reads the rules only by what is selected. -/
theorem evaluate_congr (h : ∀ i, selectRule rules' i ctx = selectRule rules i ctx) :
    evaluate rules' n ctx = evaluate rules n ctx := by
  have hallocate : ∀ funded, allocate rules' ctx funded = allocate rules ctx funded := by
    intro funded
    funext a i
    unfold allocate
    rw [h i]
  simp only [evaluate, hallocate]

/-! ## The amounts -/

/-- What the selected rule gives before the remainder is known. -/
def share (funded : ℤ) : Option SplitRuleDef → ℤ
  | none => 0
  | some rule =>
      match rule.amount with
      | .fixed amount => amount
      | .percentage bps => funded * bps / 10000
      | .remainder => 0

/-- The amounts before the remainder is known. -/
def shares (rules : List SplitRuleDef) (ctx : RuleContext) (n : ℕ) : List ℤ :=
  (List.range n).map fun i => share (max ctx.funded 0) (selectRule rules i ctx)

theorem resolve_ok {selected : Option SplitRuleDef} {x : ℤ} (hfunded : 0 ≤ funded)
    (h : resolve funded selected = .ok x) : x = share funded selected := by
  cases selected with
  | none => exact (Except.ok.inj h).symm
  | some rule =>
      obtain ⟨index, priority, criteria, amount⟩ := rule
      cases amount with
      | fixed amount => exact (Except.ok.inj h).symm
      | remainder => exact (Except.ok.inj h).symm
      | percentage bps =>
          simp only [resolve] at h
          split at h
          · rename_i product hproduct
            obtain rfl := checkedMulI128_eq hproduct
            obtain rfl := Except.ok.inj h
            exact Int.tdiv_eq_ediv_of_nonneg (by positivity)
          · cases h

theorem share_nonneg (h : Validated rules) (hfunded : 0 ≤ funded) :
    0 ≤ share funded (selectRule rules i ctx) := by
  cases hselect : selectRule rules i ctx with
  | none => exact le_rfl
  | some rule =>
      have hmem := (selectRule_some hselect).mem
      obtain ⟨index, priority, criteria, amount⟩ := rule
      cases amount with
      | fixed amount => exact (h.positive _ hmem amount rfl).le
      | percentage bps => exact Int.ediv_nonneg (by positivity) (by norm_num)
      | remainder => exact le_rfl

theorem allocate_ok {a b : Allocation} (hfunded : 0 ≤ funded) (h : allocate rules ctx funded a i = .ok b) :
    b = ⟨a.amounts ++ [share funded (selectRule rules i ctx)],
      if takesRemainder (selectRule rules i ctx) then some i else a.remainderIdx,
      a.allocated + share funded (selectRule rules i ctx)⟩ := by
  obtain ⟨x, hx, h⟩ := Exec.except_bind_ok.1 h
  obtain rfl := resolve_ok hfunded hx
  split at h
  · rename_i sum hsum
    obtain rfl := checkedAddI128_eq hsum
    exact (Except.ok.inj h).symm
  · cases h

/-- The loop after `n` recipients. -/
structure Allocated (rules : List SplitRuleDef) (ctx : RuleContext) (n : ℕ) (a : Allocation) : Prop where
  amounts : a.amounts = shares rules ctx n
  allocated : a.allocated = (shares rules ctx n).sum
  taken : ∀ i, a.remainderIdx = some i → i < n ∧ takesRemainder (selectRule rules i ctx) = true
  untaken : a.remainderIdx = none → ∀ i, i < n → takesRemainder (selectRule rules i ctx) = false

theorem shares_succ (rules : List SplitRuleDef) (ctx : RuleContext) (n : ℕ) :
    shares rules ctx (n + 1) = shares rules ctx n ++ [share (max ctx.funded 0) (selectRule rules n ctx)] := by
  unfold shares
  rw [List.range_succ, List.map_append]
  rfl

theorem foldlM_allocate {a : Allocation}
    (h : (List.range n).foldlM (allocate rules ctx (max ctx.funded 0)) {} = .ok a) :
    Allocated rules ctx n a := by
  induction n generalizing a with
  | zero =>
      obtain rfl := Except.ok.inj h
      exact ⟨rfl, rfl, nofun, fun _ i hi => absurd hi (Nat.not_lt_zero i)⟩
  | succ n ih =>
      rw [List.range_succ, List.foldlM_append] at h
      obtain ⟨b, hb, h⟩ := Exec.except_bind_ok.1 h
      rw [List.foldlM_cons] at h
      obtain ⟨c, hc, h⟩ := Exec.except_bind_ok.1 h
      obtain rfl := Except.ok.inj h
      obtain ⟨hamounts, hallocated, htaken, huntaken⟩ := ih hb
      obtain rfl := allocate_ok (le_max_right _ _) hc
      refine ⟨?_, ?_, fun i hi => ?_, fun hnone i hi => ?_⟩
      · rw [shares_succ, ← hamounts]
      · rw [shares_succ, List.sum_append, List.sum_singleton, hallocated]
      · dsimp only at hi
        split_ifs at hi with hn
        · obtain rfl := Option.some.inj hi
          exact ⟨n.lt_succ_self, hn⟩
        · exact ⟨(htaken i hi).1.trans n.lt_succ_self, (htaken i hi).2⟩
      · dsimp only at hnone
        split_ifs at hnone with hn
        rcases Nat.lt_succ_iff_lt_or_eq.1 hi with hlt | rfl
        · exact huntaken hnone i hlt
        · exact Bool.not_eq_true _ ▸ hn

theorem funded_or_nothing : (if 0 < ctx.funded then ctx.funded else 0) = max ctx.funded 0 := by
  split_ifs with hpos
  · exact (max_eq_left hpos.le).symm
  · exact (max_eq_right (not_lt.1 hpos)).symm

/-- The evaluation either leaves the shares as they are, or one recipient takes what they leave. -/
theorem evaluate_ok {amounts : List ℤ} (h : evaluate rules n ctx = .ok amounts) :
    (shares rules ctx n).sum ≤ max ctx.funded 0 ∧
      ((amounts = shares rules ctx n ∧ ∀ i, i < n → takesRemainder (selectRule rules i ctx) = false) ∨
        ∃ i, i < n ∧ takesRemainder (selectRule rules i ctx) = true ∧
          amounts = (shares rules ctx n).set i (max ctx.funded 0 - (shares rules ctx n).sum)) := by
  unfold evaluate at h
  simp only [funded_or_nothing] at h
  obtain ⟨a, ha, h⟩ := Exec.except_bind_ok.1 h
  obtain ⟨hamounts, hallocated, htaken, huntaken⟩ := foldlM_allocate ha
  split_ifs at h with hle
  refine ⟨by omega, ?_⟩
  cases hidx : a.remainderIdx with
  | none =>
      simp only [hidx] at h
      obtain rfl := Except.ok.inj h
      exact .inl ⟨hamounts, huntaken hidx⟩
  | some i =>
      simp only [hidx] at h
      obtain rfl := Except.ok.inj h
      obtain ⟨hi, htakes⟩ := htaken i hidx
      exact .inr ⟨i, hi, htakes, by rw [hamounts, hallocated]⟩

/-- What an amount comes to, when the others get so much of what is funded. -/
def RuleAmount.value (funded others : ℤ) : RuleAmount → ℤ
  | .fixed amount => amount
  | .percentage bps => funded * bps / 10000
  | .remainder => funded - others

/-- The amounts are what the rules that decide give, and make up no more than what is funded. -/
structure Settles (rules : List SplitRuleDef) (n : ℕ) (ctx : RuleContext) (amounts : List ℤ) : Prop where
  length : amounts.length = n
  decides : ∀ i, (∃ rule ∈ rules, applies i ctx rule = true) → ∃! rule, Decides rules i ctx rule
  undecided : ∀ i, i < n → (∀ rule ∈ rules, ¬applies i ctx rule = true) → amounts[i]? = some 0
  decided : ∀ i rule, i < n → Decides rules i ctx rule →
    amounts[i]? = some (rule.amount.value (max ctx.funded 0) (amounts.eraseIdx i).sum)
  nonneg : ∀ amount ∈ amounts, 0 ≤ amount
  within : amounts.sum ≤ max ctx.funded 0
  whole : (∃ i rule, i < n ∧ Decides rules i ctx rule ∧ rule.amount = .remainder) →
    amounts.sum = max ctx.funded 0

theorem Validated.decides_exists (h : Validated rules) (hrule : ∃ rule ∈ rules, applies i ctx rule = true) :
    ∃! rule, Decides rules i ctx rule := by
  cases hselect : selectRule rules i ctx with
  | none =>
      obtain ⟨rule, hmem, happlies⟩ := hrule
      exact absurd happlies (selectRule_none.1 hselect rule hmem)
  | some rule =>
      have hdecides := selectRule_some hselect
      exact ⟨rule, hdecides, fun other hother => h.decides_unique hother hdecides⟩

theorem takesRemainder_iff :
    takesRemainder (selectRule rules i ctx) = true ↔
      ∃ rule, selectRule rules i ctx = some rule ∧ rule.amount = .remainder := by
  unfold takesRemainder
  cases selectRule rules i ctx <;> simp

/-- Only one recipient takes the remainder. -/
theorem Validated.takes_unique (h : Validated rules) {j : ℕ}
    (hi : takesRemainder (selectRule rules i ctx) = true)
    (hj : takesRemainder (selectRule rules j ctx) = true) : i = j := by
  obtain ⟨a, ha, hra⟩ := takesRemainder_iff.1 hi
  obtain ⟨b, hb, hrb⟩ := takesRemainder_iff.1 hj
  have hindex : ∀ {k : ℕ} {rule : SplitRuleDef}, Decides rules k ctx rule → rule.recipientIndex = k := by
    intro k rule hrule
    have happlies := hrule.applies
    simp only [applies, Bool.and_eq_true, decide_eq_true_eq] at happlies
    exact happlies.1
  rw [← hindex (selectRule_some ha), ← hindex (selectRule_some hb)]
  exact h.single a (selectRule_some ha).mem b (selectRule_some hb).mem hra hrb

theorem shares_getElem? (hi : i < n) :
    (shares rules ctx n)[i]? = some (share (max ctx.funded 0) (selectRule rules i ctx)) := by
  unfold shares
  rw [List.getElem?_map, List.getElem?_range hi]
  rfl

theorem length_shares : (shares rules ctx n).length = n := by
  unfold shares
  rw [List.length_map, List.length_range]

theorem share_of_remainder {selected : Option SplitRuleDef} (h : takesRemainder selected = true) :
    share funded selected = 0 := by
  cases selected with
  | none => rfl
  | some rule =>
      obtain ⟨index, priority, criteria, amount⟩ := rule
      cases amount <;> simp_all [takesRemainder, share]

theorem share_of_other {others : ℤ} (h : takesRemainder (some rule) = false) :
    share funded (some rule) = rule.amount.value funded others := by
  obtain ⟨index, priority, criteria, amount⟩ := rule
  cases amount with
  | fixed amount => rfl
  | percentage bps => rfl
  | remainder => cases h

theorem sum_eraseIdx_of_zero {l : List ℤ} (h : l[i]? = some 0) : (l.eraseIdx i).sum = l.sum := by
  obtain ⟨hi, hzero⟩ := List.getElem?_eq_some_iff.1 h
  have hsum := (List.getElem_cons_eraseIdx_perm hi).sum_eq
  rwa [List.sum_cons, hzero, zero_add] at hsum

theorem sum_set_eraseIdx {l : List ℤ} (hi : i < l.length) (a : ℤ) : (l.set i a).sum = a + (l.eraseIdx i).sum := by
  rw [(List.set_perm_cons_eraseIdx hi a).sum_eq, List.sum_cons]

theorem Validated.shares_nonneg (h : Validated rules) : ∀ amount ∈ shares rules ctx n, 0 ≤ amount := by
  intro amount hamount
  obtain ⟨i, -, rfl⟩ := List.mem_map.1 hamount
  exact share_nonneg h (le_max_right _ _)

/-- Nobody takes the remainder. -/
theorem Validated.settles_shares (h : Validated rules) (hle : (shares rules ctx n).sum ≤ max ctx.funded 0)
    (hnobody : ∀ i, i < n → takesRemainder (selectRule rules i ctx) = false) :
    Settles rules n ctx (shares rules ctx n) := by
  refine ⟨length_shares, fun i => h.decides_exists, fun i hi hnone => ?_, fun i rule hi hrule => ?_,
    h.shares_nonneg, hle, ?_⟩
  · rw [shares_getElem? hi, selectRule_none.2 hnone]
    rfl
  · have hother := hnobody i hi
    rw [h.selectRule_of_decides hrule] at hother
    rw [shares_getElem? hi, h.selectRule_of_decides hrule, share_of_other hother]
  · rintro ⟨i, rule, hi, hrule, hremainder⟩
    have htakes := takesRemainder_iff.2 ⟨rule, h.selectRule_of_decides hrule, hremainder⟩
    rw [hnobody i hi] at htakes
    cases htakes

/-- One recipient takes what the shares of the others leave. -/
theorem Validated.settles_remainder (h : Validated rules) (hle : (shares rules ctx n).sum ≤ max ctx.funded 0) {k : ℕ}
    (hk : k < n) (htakes : takesRemainder (selectRule rules k ctx) = true) :
    Settles rules n ctx ((shares rules ctx n).set k (max ctx.funded 0 - (shares rules ctx n).sum)) := by
  have hzero : (shares rules ctx n)[k]? = some 0 := by
    rw [shares_getElem? hk, share_of_remainder htakes]
  have hset : ((shares rules ctx n).set k (max ctx.funded 0 - (shares rules ctx n).sum)).sum = max ctx.funded 0 := by
    rw [sum_set_eraseIdx (by rwa [length_shares]), sum_eraseIdx_of_zero hzero]
    ring
  refine ⟨by rw [List.length_set, length_shares], fun i => h.decides_exists, fun i hi hnone => ?_,
    fun i rule hi hrule => ?_, fun amount hamount => ?_, hset.le, fun _ => hset⟩
  · have hne : k ≠ i := by
      rintro rfl
      rw [selectRule_none.2 hnone] at htakes
      cases htakes
    rw [List.getElem?_set_ne hne, shares_getElem? hi, selectRule_none.2 hnone]
    rfl
  · have hselect := h.selectRule_of_decides hrule
    by_cases hki : k = i
    · subst hki
      obtain ⟨rule', hrule', hremainder⟩ := takesRemainder_iff.1 htakes
      obtain rfl := Option.some.inj (hselect.symm.trans hrule')
      rw [List.getElem?_set_self (by rwa [length_shares]), hremainder, List.eraseIdx_set_eq,
        sum_eraseIdx_of_zero hzero]
      rfl
    · have hother : takesRemainder (some rule) = false := by
        rw [← hselect]
        exact Bool.eq_false_iff.2 fun hi' => hki (h.takes_unique htakes hi')
      rw [List.getElem?_set_ne hki, shares_getElem? hi, hselect, share_of_other hother]
  · rcases List.mem_or_eq_of_mem_set hamount with hmem | rfl
    · exact h.shares_nonneg amount hmem
    · omega

theorem evaluate_settles {v : Unit} {amounts : List ℤ} (hrules : validateRules rules n = .ok v)
    (h : evaluate rules n ctx = .ok amounts) : Settles rules n ctx amounts := by
  have hvalid := validateRules_ok hrules
  obtain ⟨hle, ⟨rfl, hnobody⟩ | ⟨k, hk, htakes, rfl⟩⟩ := evaluate_ok h
  · exact hvalid.settles_shares hle hnobody
  · exact hvalid.settles_remainder hle hk htakes

/-- A part of the funding for one recipient unless enough is funded, and the rest for another. -/
def sampleRules : List SplitRuleDef :=
  [⟨0, 2, .always, .percentage 2500⟩, ⟨0, 1, .fundedAtLeast 100, .fixed 70⟩, ⟨2, 0, .always, .remainder⟩]

theorem evaluate_settles_sample : Settles sampleRules 3 ⟨101, 4, 60⟩ [70, 0, 31] :=
  evaluate_settles (v := ()) (by decide) (by decide)

/-! ## Unconditional percentages -/

/-- The percentage that the selected rule adds to the unconditional ones. -/
def selectedBps (selected : Option SplitRuleDef) : ℕ := selected.elim 0 alwaysBps

theorem sum_selectedBps (l : List (Option SplitRuleDef)) :
    (l.map selectedBps).sum = ((l.filterMap id).map alwaysBps).sum := by
  induction l with
  | nil => rfl
  | cons x l ih => cases x <;> simp [selectedBps, ih]

/-- The selected rules are among the rules, each for its own recipient. -/
theorem sum_selectedBps_le (h : Validated rules) :
    (((List.range n).map fun i => selectRule rules i ctx).map selectedBps).sum ≤ 10000 := by
  have hnodup : ((List.range n).filterMap fun i => selectRule rules i ctx).Nodup := by
    refine List.Nodup.filterMap (fun i j rule hi hj => ?_) List.nodup_range
    have hi' := (selectRule_some hi).applies
    have hj' := (selectRule_some hj).applies
    simp only [applies, Bool.and_eq_true, decide_eq_true_eq] at hi' hj'
    exact hi'.1.symm.trans hj'.1
  have hsubset : ((List.range n).filterMap fun i => selectRule rules i ctx) ⊆ rules := by
    intro rule hrule
    obtain ⟨i, -, hi⟩ := List.mem_filterMap.1 hrule
    exact (selectRule_some hi).mem
  obtain ⟨l, hperm, hsub⟩ := hnodup.subperm hsubset
  rw [sum_selectedBps, List.filterMap_map, Function.id_comp, ← (hperm.map alwaysBps).sum_eq]
  exact ((hsub.map alwaysBps).sum_le_sum fun _ _ => Nat.zero_le _).trans h.always

/-- Every rule is unconditional, and a percentage or the remainder. -/
def Unconditional (rules : List SplitRuleDef) : Prop :=
  ∀ rule ∈ rules, rule.criteria = .always ∧ ((∃ bps, rule.amount = .percentage bps) ∨ rule.amount = .remainder)

theorem share_of_unconditional (h : Unconditional rules) :
    share funded (selectRule rules i ctx) =
      Proportion.part funded 10000 (selectedBps (selectRule rules i ctx)) := by
  cases hselect : selectRule rules i ctx with
  | none => simp [share, selectedBps, Proportion.part]
  | some rule =>
      obtain ⟨hcriteria, hamount⟩ := h rule (selectRule_some hselect).mem
      obtain ⟨index, priority, criteria, amount⟩ := rule
      obtain rfl : criteria = .always := hcriteria
      obtain ⟨bps, rfl⟩ | rfl : (∃ bps, amount = .percentage bps) ∨ amount = .remainder := hamount
      · rfl
      · simp [share, selectedBps, alwaysBps, Proportion.part]

/-- The shares of unconditional rules fit what is funded. -/
theorem sum_shares_le (hvalid : Validated rules) (h : Unconditional rules) :
    (shares rules ctx n).sum ≤ max ctx.funded 0 := by
  have hshares : shares rules ctx n = (((List.range n).map fun i => selectRule rules i ctx).map fun r =>
      (selectedBps r : ℤ)).map (Proportion.part (max ctx.funded 0) 10000) := by
    unfold shares
    rw [List.map_map, List.map_map]
    exact List.map_congr_left fun i _ => share_of_unconditional h
  have hbps : (((List.range n).map fun i => selectRule rules i ctx).map fun r => (selectedBps r : ℤ)).sum ≤
      10000 := by
    have hle : (((List.range n).map fun i => selectRule rules i ctx).map selectedBps).sum ≤ 10000 :=
      sum_selectedBps_le hvalid
    have hcast : ∀ l : List (Option SplitRuleDef), (l.map fun r => (selectedBps r : ℤ)).sum =
        ((l.map selectedBps).sum : ℕ) := by
      intro l
      rw [Nat.cast_list_sum, List.map_map]
      rfl
    rw [hcast]
    exact_mod_cast hle
  have hparts := Proportion.mul_sum_part_le (by norm_num : (0 : ℤ) < 10000) (max ctx.funded 0)
    (((List.range n).map fun i => selectRule rules i ctx).map fun r => (selectedBps r : ℤ))
  rw [← hshares] at hparts
  have hscaled := hparts.trans (mul_le_mul_of_nonneg_left hbps (le_max_right ctx.funded 0))
  omega

theorem allocate_error {a : Allocation} {e : SplitFault} (h : allocate rules ctx funded a i = .error e) :
    e = .panic "ArithmeticOverflow" := by
  unfold allocate at h
  cases hx : resolve funded (selectRule rules i ctx) with
  | ok x =>
      simp only [hx] at h
      change (match checkedAddI128 a.allocated x with
        | some allocated => _
        | none => _) = _ at h
      split at h
      · cases h
      · exact (Except.error.inj h).symm
  | error e' =>
      simp only [hx] at h
      obtain rfl : e' = e := Except.error.inj h
      unfold resolve at hx
      split at hx
      · cases hx
      · split at hx
        · cases hx
        · split at hx
          · cases hx
          · exact (Except.error.inj hx).symm
        · cases hx

theorem foldlM_allocate_error {is : List ℕ} {a : Allocation} {e : SplitFault}
    (h : is.foldlM (allocate rules ctx funded) a = .error e) : e = .panic "ArithmeticOverflow" := by
  induction is generalizing a with
  | nil => cases h
  | cons i is ih =>
      rw [List.foldlM_cons] at h
      cases hi : allocate rules ctx funded a i with
      | ok b =>
          rw [hi] at h
          exact ih h
      | error e' =>
          rw [hi] at h
          exact Except.error.inj h ▸ allocate_error hi

theorem evaluate_of_unconditional (hvalid : Validated rules) (h : Unconditional rules) :
    evaluate rules n ctx ≠ .error (.panic "split rules exceed funded amount") := by
  intro herror
  unfold evaluate at herror
  simp only [funded_or_nothing] at herror
  cases hrun : (List.range n).foldlM (allocate rules ctx (max ctx.funded 0)) {} with
  | error e =>
      rw [hrun] at herror
      have he := foldlM_allocate_error hrun
      rw [he] at herror
      exact absurd (Except.error.inj herror) (by decide)
  | ok a =>
      rw [hrun] at herror
      have hle : (shares rules ctx n).sum ≤ max ctx.funded 0 := sum_shares_le hvalid h
      rw [← (foldlM_allocate hrun).allocated] at hle
      change (if ¬a.allocated ≤ max ctx.funded 0 then _ else _) = _ at herror
      rw [if_neg (not_not.2 hle)] at herror
      split at herror <;> cases herror

/-- The order of the rules does not matter, and unconditional percentages never exceed what is funded. -/
theorem evaluate_permuted_unconditional {v : Unit} (hrules : validateRules rules n = .ok v) :
    (∀ rules', rules'.Perm rules → ∀ ctx, evaluate rules' n ctx = evaluate rules n ctx) ∧
      (Unconditional rules →
        ∀ ctx, evaluate rules n ctx ≠ .error (.panic "split rules exceed funded amount")) := by
  have hvalid := validateRules_ok hrules
  refine ⟨fun rules' hperm ctx => evaluate_congr fun i => hvalid.selectRule_perm hperm, fun h ctx => ?_⟩
  exact evaluate_of_unconditional hvalid h

/-- A quarter for one recipient, half for another and the rest for the third. -/
def unconditionalRules : List SplitRuleDef :=
  [⟨0, 2, .always, .percentage 2500⟩, ⟨1, 1, .always, .percentage 5000⟩, ⟨2, 0, .always, .remainder⟩]

theorem evaluate_permuted_unconditional_sample :
    evaluate unconditionalRules.reverse 3 ⟨101, 4, 60⟩ = evaluate unconditionalRules 3 ⟨101, 4, 60⟩ ∧
      evaluate unconditionalRules 3 ⟨101, 4, 60⟩ ≠ .error (.panic "split rules exceed funded amount") := by
  have h := @evaluate_permuted_unconditional unconditionalRules 3 () (by decide)
  exact ⟨h.1 _ (List.reverse_perm _) _, h.2 (by simp [Unconditional, unconditionalRules]) _⟩

end StellarSplit.Split.RuleEngine
