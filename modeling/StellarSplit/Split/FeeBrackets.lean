import Mathlib.Algebra.Order.Field.Rat
import Mathlib.Tactic.FieldSimp
import StellarSplit.Lib.Bands
import StellarSplit.Split.PlainRelease

/-!
# Progressive fees

The brackets of the platform fee cut an amount into bands. Each band is charged at its
own rate and rounded down, and without brackets the whole amount is one band.
-/

namespace StellarSplit.Split.FeeBrackets

open Bands Exec Machine PlainRelease

/-! ## Setting the brackets -/

/-- The loop of `set_fee_brackets`, with the maximum before. -/
def validateBracketsFrom : ℤ → List FeeBracket → Result Unit
  | _, [] => .ok ()
  | prevMax, b :: bs =>
      if ¬b.rateBps ≤ 10000 then .error (.panic "rate_bps must be <= 10000")
      else if ¬prevMax < b.maxAmount then .error (.panic "max_amount must be strictly ascending")
      else validateBracketsFrom b.maxAmount bs

def validateBrackets (brackets : List FeeBracket) : Result Unit :=
  match brackets.getLast? with
  | none => .error (.panic "brackets must not be empty")
  | some last => do
      validateBracketsFrom (-1) brackets
      if last.maxAmount ≠ i128Max then .error (.panic "last bracket max_amount must be i128::MAX")
      else .ok ()

/-- The entry is that of the brackets. -/
def setFeeBrackets (env : Env) (brackets : List FeeBracket) :
    Call (Option (List FeeBracket)) SplitFault Unit := do
  let _ ← requireAdmin env
  ofResult (validateBrackets brackets)
  set (some brackets)

/-- The brackets that fees are computed with: those an administrator has set, or one for everything. -/
inductive InForce (config : Config) : List FeeBracket → Prop
  | brackets {env : Env} {brackets : List FeeBracket} {s t : Option (List FeeBracket)} {v : Unit}
      (hset : setFeeBrackets env brackets s = .ok (v, t)) (hconfig : config.feeBrackets = t) :
      InForce config brackets
  | flat (hnone : config.feeBrackets = none) (hrate : config.platformFeeBps ≤ 10000) :
      InForce config [⟨i128Max, config.platformFeeBps⟩]

/-! ## The bands of the brackets -/

/-- The bands of the brackets from an amount on. -/
def bandsFrom : ℤ → List FeeBracket → List Band
  | _, [] => []
  | prevMax, b :: bs => ⟨prevMax, b.maxAmount, b.rateBps⟩ :: bandsFrom b.maxAmount bs

def bandsOf (brackets : List FeeBracket) : List Band := bandsFrom 0 brackets

/-- The fee of an amount without rounding: every unit costs the rate of its bracket. -/
noncomputable def exactFee (brackets : List FeeBracket) (amount : ℤ) : ℚ :=
  (∑ u ∈ Finset.Ioc 0 amount, (rateAt (bandsOf brackets) u : ℚ)) / 10000

variable {config : Config} {brackets bs : List FeeBracket} {amount fee prevMax : ℤ}

/-- The brackets go up from an amount, to the largest word, at rates of at most 100%. -/
structure Ascends (prevMax : ℤ) (bs : List FeeBracket) : Prop where
  adjoining : Adjoining prevMax (bandsFrom prevMax bs) i128Max
  rates : ∀ x ∈ bandsFrom prevMax bs, 0 ≤ x.rate ∧ x.rate ≤ 10000

theorem Ascends.cons {b : FeeBracket} (hle : prevMax ≤ b.maxAmount) (hrate : b.rateBps ≤ 10000)
    (h : Ascends b.maxAmount bs) : Ascends prevMax (b :: bs) :=
  ⟨.cons rfl hle h.adjoining,
    List.forall_mem_cons.2 ⟨⟨Int.natCast_nonneg _, Int.ofNat_le.2 hrate⟩, h.rates⟩⟩

theorem ascends_nil : Ascends i128Max [] := ⟨.nil _, nofun⟩

theorem validateBracketsFrom_ok {v : Unit} {last : FeeBracket} (h : validateBracketsFrom prevMax bs = .ok v)
    (hlast : bs.getLast? = some last) (hmax : last.maxAmount = i128Max) {lo : ℤ} (hlo : lo ≤ prevMax + 1) :
    Ascends lo bs := by
  induction bs generalizing prevMax lo with
  | nil => cases hlast
  | cons b bs ih =>
      simp only [validateBracketsFrom] at h
      split_ifs at h with hrate hless
      refine Ascends.cons (hlo.trans hless) hrate ?_
      cases bs with
      | nil =>
          obtain rfl : b = last := Option.some.inj hlast
          rw [hmax]
          exact ascends_nil
      | cons c bs => exact ih h (by rwa [List.getLast?_cons_cons] at hlast) (by omega)

theorem setFeeBrackets_ok {env : Env} {s t : Option (List FeeBracket)} {v : Unit}
    (hrun : setFeeBrackets env brackets s = .ok (v, t)) : Ascends 0 brackets ∧ t = some brackets := by
  obtain ⟨_, u, -, hrun⟩ := bind_ok.1 hrun
  obtain ⟨_, hvalid, hset⟩ := ofResult_bind.1 hrun
  refine ⟨?_, (set_ok.1 hset).symm⟩
  unfold validateBrackets at hvalid
  split at hvalid
  · cases hvalid
  · rename_i last hlast
    obtain ⟨_, hfrom, hvalid⟩ := except_bind_ok.1 hvalid
    split_ifs at hvalid with hmax
    exact validateBracketsFrom_ok hfrom hlast (not_not.1 hmax) (by norm_num)

theorem InForce.ascends (h : InForce config brackets) :
    Ascends 0 brackets ∧ config.feeBrackets.getD [⟨i128Max, config.platformFeeBps⟩] = brackets := by
  cases h with
  | brackets hset hconfig =>
      obtain ⟨hascends, rfl⟩ := setFeeBrackets_ok hset
      rw [hconfig]
      exact ⟨hascends, rfl⟩
  | flat hnone hrate =>
      rw [hnone]
      exact ⟨ascends_nil.cons (by norm_num [i128Max]) hrate, rfl⟩

/-! ## The loop -/

/-- The slice of the loop is the part of the amount that lies in the band. -/
theorem feeSlice {maxAmount : ℤ} (rate : ℤ) (hnonneg : 0 ≤ prevMax) (hle : prevMax ≤ maxAmount)
    (hmax : maxAmount ≤ i128Max) (hless : prevMax < amount) :
    (if satSubI128 maxAmount prevMax < amount - prevMax then satSubI128 maxAmount prevMax
      else amount - prevMax) = Band.slice ⟨prevMax, maxAmount, rate⟩ 0 amount ∧
    Band.slice ⟨prevMax, maxAmount, rate⟩ 0 amount = min maxAmount amount - prevMax := by
  have hlimit : satSubI128 maxAmount prevMax = maxAmount - prevMax := by
    unfold satSubI128 i128Min
    omega
  rw [hlimit]
  unfold Band.slice
  dsimp only
  split_ifs <;> omega

/-- What is left of the amount after the brackets before is charged in the bands that follow. -/
theorem feeLoop_eq {r : ℤ} (hascends : Ascends prevMax bs) (hnonneg : 0 ≤ prevMax) (hless : prevMax < amount)
    (hword : amount ≤ i128Max) (h : feeLoop bs (amount - prevMax) prevMax fee = .ok r) :
    r = fee + charge 10000 (bandsFrom prevMax bs) 0 amount := by
  induction bs generalizing prevMax fee with
  | nil =>
      cases hascends.adjoining
      omega
  | cons b bs ih =>
      obtain ⟨hadjoining, hrates⟩ := hascends
      obtain ⟨⟨hrate₀, hrate₁⟩, hrest⟩ := List.forall_mem_cons.1 hrates
      have hbands : bandsFrom prevMax (b :: bs) =
          ⟨prevMax, b.maxAmount, b.rateBps⟩ :: bandsFrom b.maxAmount bs := rfl
      cases hadjoining with
      | cons _ hle hadjoining =>
          have hle' : prevMax ≤ b.maxAmount := hle
          obtain ⟨hslice, hwidth⟩ := feeSlice b.rateBps hnonneg hle' hadjoining.le hless
          simp only [feeLoop] at h
          rw [hslice] at h
          rw [hbands, charge_cons]
          by_cases hpos : 0 < Band.slice ⟨prevMax, b.maxAmount, b.rateBps⟩ 0 amount
          · rw [if_pos hpos] at h
            obtain ⟨x, hx, h⟩ := except_bind_ok.1 h
            have hpart : x = Band.slice ⟨prevMax, b.maxAmount, b.rateBps⟩ 0 amount * b.rateBps / 10000 :=
              plainMulDiv_bps_part ⟨hpos.le, by omega⟩ (Int.ofNat_le.1 hrate₁) hx
            rw [← hpart]
            by_cases hdone : amount ≤ b.maxAmount
            · -- the brackets that follow begin behind the amount
              rw [if_pos (by omega)] at h
              rw [charge_eq_zero fun y hy => slice_of_le (hdone.trans (hadjoining.lower_le y hy)), add_zero]
              exact (Except.ok.inj h).symm
            · have hleft : amount - prevMax - Band.slice ⟨prevMax, b.maxAmount, b.rateBps⟩ 0 amount =
                  amount - b.maxAmount := by omega
              rw [if_neg (by omega), hleft] at h
              rw [ih ⟨hadjoining, hrest⟩ (hnonneg.trans hle') (not_le.1 hdone) h, add_assoc]
          · have hempty : b.maxAmount = prevMax := by omega
            have hzero : Band.slice ⟨prevMax, b.maxAmount, b.rateBps⟩ 0 amount = 0 :=
              le_antisymm (not_lt.1 hpos) slice_nonneg
            rw [if_neg hpos, if_neg (by omega)] at h
            rw [hzero, zero_mul, Int.zero_ediv, zero_add]
            rw [hempty] at h hadjoining hrest ⊢
            exact ih ⟨hadjoining, hrest⟩ hnonneg hless h

/-! ## The fee -/

/-- The fee of a positive amount: between nothing and the amount, below the exact fee by less than
one unit for each bracket the amount reaches, and made up of what the units in each bracket come to. -/
structure Progressive (brackets : List FeeBracket) (amount fee : ℤ) : Prop where
  nonneg : 0 ≤ fee
  le : fee ≤ amount
  below : (fee : ℚ) ≤ exactFee brackets amount
  within : exactFee brackets amount < fee + touched (bandsOf brackets) 0 amount
  sliced : fee = ((bandsOf brackets).map fun x =>
    (((Finset.Ioc 0 amount).filter fun u => x.Holds u).card : ℤ) * x.rate / 10000).sum
  once : ∀ u, 0 < u → u ≤ amount → ((bandsOf brackets).countP fun x => x.Holds u) = 1

theorem computeFee_of_nonpos (hle : amount ≤ 0) (h : computeFee config amount = .ok fee) : fee = 0 := by
  unfold computeFee at h
  rw [if_pos hle] at h
  exact (Except.ok.inj h).symm

theorem computeFee_eq (hforce : InForce config brackets) (hpos : 0 < amount) (hword : amount ≤ i128Max)
    (h : computeFee config amount = .ok fee) : fee = charge 10000 (bandsOf brackets) 0 amount := by
  obtain ⟨hascends, htable⟩ := hforce.ascends
  unfold computeFee at h
  rw [if_neg (not_le.2 hpos), htable] at h
  rw [← sub_zero amount] at h
  have hloop := feeLoop_eq hascends le_rfl hpos hword h
  rwa [zero_add] at hloop

theorem exactFee_eq (hascends : Ascends 0 brackets) :
    exactFee brackets amount = (due (bandsOf brackets) 0 amount : ℤ) / 10000 := by
  have hdue : due (bandsOf brackets) 0 amount = ∑ u ∈ Finset.Ioc 0 amount, rateAt (bandsOf brackets) u :=
    hascends.adjoining.due_eq_sum
  unfold exactFee
  rw [hdue]
  push_cast
  rfl

theorem computeFee_progressive (hforce : InForce config brackets) (hpos : 0 < amount)
    (hword : amount ≤ i128Max) (h : computeFee config amount = .ok fee) :
    Progressive brackets amount fee := by
  have hascends := hforce.ascends.1
  obtain rfl := computeFee_eq hforce hpos hword h
  have hrates₀ : ∀ x ∈ bandsOf brackets, 0 ≤ x.rate := fun x hx => (hascends.rates x hx).1
  have hrates₁ : ∀ x ∈ bandsOf brackets, x.rate ≤ 10000 := fun x hx => (hascends.rates x hx).2
  have hbase : (0 : ℤ) < 10000 := by norm_num
  have hadjoining : Adjoining 0 (bandsOf brackets) i128Max := hascends.adjoining
  refine ⟨charge_nonneg hbase hrates₀, ?_, ?_, ?_, ?_, ?_⟩
  · have hle := charge_le (a := 0) (b := amount) hbase hrates₁
    rw [hadjoining.sum_slice] at hle
    omega
  · have hle : 10000 * charge 10000 (bandsOf brackets) 0 amount ≤ due (bandsOf brackets) 0 amount :=
      mul_charge_le hbase
    have hcast : (10000 : ℚ) * charge 10000 (bandsOf brackets) 0 amount ≤ due (bandsOf brackets) 0 amount := by
      exact_mod_cast hle
    rw [exactFee_eq hascends, le_div_iff₀ (by norm_num)]
    linarith
  · have hlt := due_lt hbase (hadjoining.touched_pos le_rfl hpos hword)
    have hcast : (due (bandsOf brackets) 0 amount : ℚ) <
        10000 * (charge 10000 (bandsOf brackets) 0 amount + touched (bandsOf brackets) 0 amount) := by
      exact_mod_cast hlt
    rw [exactFee_eq hascends, div_lt_iff₀ (by norm_num)]
    linarith
  · unfold charge
    simp only [slice_eq_card]
  · exact fun u hu hle => hadjoining.countP_holds hu (hle.trans hword)

theorem computeFee_mono {more fee' : ℤ} (hforce : InForce config brackets) (hle : amount ≤ more)
    (hword : more ≤ i128Max) (h : computeFee config amount = .ok fee)
    (h' : computeFee config more = .ok fee') : fee ≤ fee' := by
  by_cases hpos : 0 < amount
  · have hrates : ∀ x ∈ bandsOf brackets, 0 ≤ x.rate := fun x hx => (hforce.ascends.1.rates x hx).1
    rw [computeFee_eq hforce hpos (hle.trans hword) h, computeFee_eq hforce (hpos.trans_le hle) hword h']
    exact charge_mono (by norm_num) hrates hle
  · obtain rfl := computeFee_of_nonpos (not_lt.1 hpos) h
    by_cases hpos' : 0 < more
    · exact (computeFee_progressive hforce hpos' hword h').nonneg
    · exact (computeFee_of_nonpos (not_lt.1 hpos') h').ge

/-- The fee of a positive amount is the progressive fee, it does not fall when the amount grows,
and an amount that is not positive has none. -/
theorem computeFee_sound (hforce : InForce config brackets) (hword : amount ≤ i128Max)
    (h : computeFee config amount = .ok fee) :
    (amount ≤ 0 → fee = 0) ∧ (0 < amount → Progressive brackets amount fee) ∧
      ∀ more fee', amount ≤ more → more ≤ i128Max → computeFee config more = .ok fee' → fee ≤ fee' :=
  ⟨fun hle => computeFee_of_nonpos hle h, fun hpos => computeFee_progressive hforce hpos hword h,
    fun _ _ hle hmore h' => computeFee_mono hforce hle hmore h h'⟩

def steps : List FeeBracket := [⟨1000, 100⟩, ⟨i128Max, 50⟩]

theorem steps_inForce : InForce { feeBrackets := some steps } steps := by
  have hset : setFeeBrackets { sampleEnv 0 0 with config := { admin := some 1 } } steps none =
      .ok ((), some steps) := by decide +kernel
  exact .brackets hset rfl

theorem computeFee_sound_sample :
    computeFee { feeBrackets := some steps } 2500 = .ok 17 ∧ Progressive steps 2500 17 := by
  have h : computeFee { feeBrackets := some steps } 2500 = .ok 17 := by decide +kernel
  exact ⟨h, (computeFee_sound steps_inForce (by decide) h).2.1 (by norm_num)⟩

/-- An amount below zero has no fee, so its fee is above it. -/
theorem computeFee_above_negative :
    InForce { feeBrackets := some steps } steps ∧ computeFee { feeBrackets := some steps } (-1) = .ok 0 ∧
      ¬(0 : ℤ) ≤ -1 :=
  ⟨steps_inForce, by decide +kernel, by norm_num⟩

end StellarSplit.Split.FeeBrackets
