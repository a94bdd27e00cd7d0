import Mathlib.Algebra.BigOperators.Group.Finset.Piecewise
import Mathlib.Algebra.BigOperators.Ring.Finset
import Mathlib.Algebra.Order.BigOperators.Group.Finset
import Mathlib.Algebra.Order.BigOperators.Group.List
import Mathlib.Algebra.Order.Interval.Finset.Basic
import Mathlib.Algebra.Order.Ring.Int
import Mathlib.Data.Int.ConditionallyCompleteOrder
import Mathlib.Data.Int.Interval
import Mathlib.Tactic.Linarith
import Mathlib.Tactic.Ring

/-!
# Rates by bands

A line of units is cut into adjoining bands, and each unit of a band costs its rate. The
units of an interval are charged band by band, and each band is rounded down to whole
units of account.
-/

namespace Bands

structure Band where
  lower : ℤ
  upper : ℤ
  rate : ℤ
deriving DecidableEq, Repr

/-- The unit lies in the band. -/
def Band.Holds (x : Band) (u : ℤ) : Prop := x.lower < u ∧ u ≤ x.upper

instance (x : Band) (u : ℤ) : Decidable (x.Holds u) := inferInstanceAs (Decidable (_ ∧ _))

/-- How many units of an interval lie in the band. -/
def Band.slice (x : Band) (a b : ℤ) : ℤ := max 0 (min b x.upper - max a x.lower)

/-- What an interval costs, in parts of the base. -/
def due (bands : List Band) (a b : ℤ) : ℤ := (bands.map fun x => x.slice a b * x.rate).sum

/-- What an interval is charged, band by band. -/
def charge (base : ℤ) (bands : List Band) (a b : ℤ) : ℤ := (bands.map fun x => x.slice a b * x.rate / base).sum

/-- How many bands an interval has units in. -/
def touched (bands : List Band) (a b : ℤ) : ℕ := bands.countP fun x => 0 < x.slice a b

/-- The rate of the first band that the unit lies in. -/
def rateAt (bands : List Band) (u : ℤ) : ℤ := (bands.find? fun x => x.Holds u).elim 0 Band.rate

/-- Every band begins where the one before it ends. -/
inductive Adjoining : ℤ → List Band → ℤ → Prop
  | nil (lo : ℤ) : Adjoining lo [] lo
  | cons {x : Band} {bands : List Band} {lo hi : ℤ} (hlo : x.lower = lo) (hx : x.lower ≤ x.upper)
      (h : Adjoining x.upper bands hi) : Adjoining lo (x :: bands) hi

variable {x : Band} {bands : List Band} {base lo hi a a' b b' c n u v : ℤ}

/-! ## Slices -/

theorem slice_nonneg : 0 ≤ x.slice a b := le_max_left _ _

theorem slice_mono (h : b ≤ b') : x.slice a b ≤ x.slice a b' := by
  unfold Band.slice
  omega

/-- Two intervals in a row share the slice of both. -/
theorem slice_add (hab : a ≤ b) (hbc : b ≤ c) : x.slice a b + x.slice b c = x.slice a c := by
  unfold Band.slice
  omega

theorem slice_eq_card : x.slice a b = ((Finset.Ioc a b).filter fun u => x.Holds u).card := by
  have hfilter : (Finset.Ioc a b).filter (fun u => x.Holds u) =
      Finset.Ioc (max a x.lower) (min b x.upper) := by
    ext u
    rw [Finset.mem_filter, Finset.mem_Ioc, Finset.mem_Ioc, max_lt_iff, le_min_iff]
    unfold Band.Holds
    tauto
  rw [hfilter, Int.card_Ioc, Band.slice]
  omega

theorem slice_of_le (h : b ≤ x.lower) : x.slice a b = 0 := by
  unfold Band.slice
  omega

theorem Adjoining.le (h : Adjoining lo bands hi) : lo ≤ hi := by
  induction h with
  | nil lo => exact le_rfl
  | cons hlo hx _ ih => exact hlo.ge.trans (hx.trans ih)

theorem Adjoining.lower_le (h : Adjoining lo bands hi) : ∀ x ∈ bands, lo ≤ x.lower := by
  induction h with
  | nil lo => exact fun x hx => absurd hx List.not_mem_nil
  | cons hlo hx _ ih =>
      exact List.forall_mem_cons.2 ⟨hlo.ge, fun y hy => hlo.ge.trans (hx.trans (ih y hy))⟩

/-- The slices make up the part of the interval that is covered. -/
theorem Adjoining.sum_slice (h : Adjoining lo bands hi) :
    (bands.map fun x => x.slice a b).sum = max 0 (min b hi - max a lo) := by
  induction h with
  | nil lo =>
      rw [List.map_nil, List.sum_nil]
      omega
  | cons hlo hx h ih =>
      have hle := h.le
      rw [List.map_cons, List.sum_cons, ih, Band.slice]
      omega

/-! ## Units -/

theorem Adjoining.holds_none (h : Adjoining lo bands hi) (hu : u ≤ lo) : ∀ x ∈ bands, ¬x.Holds u :=
  fun x hx hholds => absurd (hu.trans (h.lower_le x hx)) (not_le.2 hholds.1)

/-- A unit of the line lies in exactly one band. -/
theorem Adjoining.countP_holds (h : Adjoining lo bands hi) (hlo : lo < u) (hhi : u ≤ hi) :
    (bands.countP fun x => x.Holds u) = 1 := by
  induction h with
  | nil lo => exact absurd hhi (not_le.2 hlo)
  | @cons x bands lo hi hlower hx h ih =>
      by_cases hu : u ≤ x.upper
      · have hholds : x.Holds u := ⟨hlower.trans_lt hlo, hu⟩
        rw [List.countP_cons_of_pos (by simpa using hholds), Nat.add_eq_right]
        exact List.countP_eq_zero.2 fun y hy => by simpa using h.holds_none hu y hy
      · rw [List.countP_cons_of_neg (by simpa using fun hholds => hu hholds.2)]
        exact ih (not_le.1 hu) hhi

/-- Summing over the bands picks the rate of the band that the unit lies in. -/
theorem Adjoining.sum_rates (h : Adjoining lo bands hi) :
    (bands.map fun x => if x.Holds u then x.rate else 0).sum = rateAt bands u := by
  induction h with
  | nil lo => rfl
  | @cons x bands lo hi _ _ h ih =>
      rw [List.map_cons, List.sum_cons, ih]
      unfold rateAt
      by_cases hu : x.Holds u
      · have hnone : bands.find? (fun y => y.Holds u) = none :=
          List.find?_eq_none.2 fun y hy => by simpa using h.holds_none hu.2 y hy
        rw [if_pos hu, hnone, List.find?_cons_of_pos (by simpa using hu)]
        exact add_zero _
      · rw [if_neg hu, zero_add, List.find?_cons_of_neg (by simpa using hu)]

theorem slice_mul_rate : x.slice a b * x.rate = ∑ u ∈ Finset.Ioc a b, if x.Holds u then x.rate else 0 := by
  rw [Finset.sum_ite, Finset.sum_const_zero, add_zero, Finset.sum_const, slice_eq_card, nsmul_eq_mul]

/-- What an interval costs is what its units cost. -/
theorem Adjoining.due_eq_sum (h : Adjoining lo bands hi) :
    due bands a b = ∑ u ∈ Finset.Ioc a b, rateAt bands u := by
  have hswap : ∀ l : List Band, due l a b =
      ∑ u ∈ Finset.Ioc a b, (l.map fun x => if x.Holds u then x.rate else 0).sum := by
    intro l
    induction l with
    | nil => simp [due]
    | cons x l ih =>
        have hcons : due (x :: l) a b = x.slice a b * x.rate + due l a b := rfl
        simp only [List.map_cons, List.sum_cons]
        rw [Finset.sum_add_distrib, ← ih, hcons, slice_mul_rate]
  rw [hswap]
  exact Finset.sum_congr rfl fun u _ => h.sum_rates

/-! ## Rounding -/

theorem charge_cons (base : ℤ) (x : Band) (bands : List Band) (a b : ℤ) :
    charge base (x :: bands) a b = x.slice a b * x.rate / base + charge base bands a b := rfl

theorem charge_eq_zero (h : ∀ x ∈ bands, x.slice a b = 0) : charge base bands a b = 0 := by
  induction bands with
  | nil => rfl
  | cons x bands ih =>
      obtain ⟨hx, hrest⟩ := List.forall_mem_cons.1 h
      rw [charge_cons, hx, ih hrest, zero_mul, Int.zero_ediv, add_zero]

section Rounding

variable (hbase : 0 < base)
include hbase

theorem charge_nonneg (hrates : ∀ x ∈ bands, 0 ≤ x.rate) : 0 ≤ charge base bands a b := by
  refine List.sum_nonneg fun y hy => ?_
  obtain ⟨x, hx, rfl⟩ := List.mem_map.1 hy
  exact Int.ediv_nonneg (mul_nonneg slice_nonneg (hrates x hx)) hbase.le

theorem charge_mono (hrates : ∀ x ∈ bands, 0 ≤ x.rate) (h : b ≤ b') :
    charge base bands a b ≤ charge base bands a b' :=
  List.sum_le_sum fun x hx =>
    Int.ediv_le_ediv hbase (mul_le_mul_of_nonneg_right (slice_mono h) (hrates x hx))

/-- Rates of at most the base take at most every unit. -/
theorem charge_le (hrates : ∀ x ∈ bands, x.rate ≤ base) :
    charge base bands a b ≤ (bands.map fun x => x.slice a b).sum :=
  List.sum_le_sum fun x hx =>
    Int.ediv_le_of_le_mul hbase (mul_le_mul_of_nonneg_left (hrates x hx) slice_nonneg)

theorem mul_charge_le : base * charge base bands a b ≤ due bands a b := by
  induction bands with
  | nil => simp [charge, due]
  | cons x bands ih =>
      have hfirst : base * (x.slice a b * x.rate / base) ≤ x.slice a b * x.rate := Int.mul_ediv_self_le hbase.ne'
      have hcons : due (x :: bands) a b = x.slice a b * x.rate + due bands a b := rfl
      rw [charge_cons, hcons, mul_add]
      exact add_le_add hfirst ih

/-- Each band that the interval has units in loses less than one unit of account. -/
theorem due_le : due bands a b ≤ base * charge base bands a b + (base - 1) * touched bands a b := by
  induction bands with
  | nil => simp [charge, due, touched]
  | cons x bands ih =>
      have hcons : due (x :: bands) a b = x.slice a b * x.rate + due bands a b := rfl
      have hfirst : x.slice a b * x.rate < base * (x.slice a b * x.rate / base) + base :=
        Int.lt_mul_ediv_self_add hbase
      rw [charge_cons, hcons]
      unfold touched at ih ⊢
      by_cases hx : 0 < x.slice a b
      · rw [List.countP_cons_of_pos (by simpa using hx), Nat.cast_succ]
        linarith
      · have hzero : x.slice a b = 0 := le_antisymm (not_lt.1 hx) slice_nonneg
        rw [List.countP_cons_of_neg (by simpa using hx), hzero, zero_mul, Int.zero_ediv]
        linarith

/-- Altogether less than one unit of account for each of them. -/
theorem due_lt (htouched : 0 < touched bands a b) :
    due bands a b < base * (charge base bands a b + touched bands a b) := by
  have hle : due bands a b ≤ base * charge base bands a b + (base - 1) * touched bands a b := due_le hbase
  have hpos : (0 : ℤ) < touched bands a b := Int.natCast_pos.2 htouched
  linarith

end Rounding

/-! ## Intervals in a row -/

theorem due_add (hab : a ≤ b) (hbc : b ≤ c) : due bands a b + due bands b c = due bands a c := by
  induction bands with
  | nil => rfl
  | cons x bands ih =>
      have hcons : ∀ d e, due (x :: bands) d e = x.slice d e * x.rate + due bands d e := fun _ _ => rfl
      rw [hcons, hcons, hcons, ← ih, ← slice_add hab hbc]
      ring

/-- Rounded down apart, two parts come to no more than together. -/
theorem charge_add_le (hbase : 0 < base) (hab : a ≤ b) (hbc : b ≤ c) :
    charge base bands a b + charge base bands b c ≤ charge base bands a c := by
  induction bands with
  | nil => exact le_rfl
  | cons x bands ih =>
      have hparts : x.slice a b * x.rate / base + x.slice b c * x.rate / base ≤ x.slice a c * x.rate / base := by
        have hfirst := Int.ediv_mul_le (x.slice a b * x.rate) hbase.ne'
        have hsecond := Int.ediv_mul_le (x.slice b c * x.rate) hbase.ne'
        apply Int.le_ediv_of_mul_le hbase
        rw [← slice_add hab hbc, add_mul, add_mul]
        exact add_le_add hfirst hsecond
      rw [charge_cons, charge_cons, charge_cons]
      linarith

/-- The intervals of these lengths, one after the other. -/
def intervals : ℤ → List ℤ → List (ℤ × ℤ)
  | _, [] => []
  | a, n :: ns => (a, a + n) :: intervals (a + n) ns

theorem intervals_snoc (a : ℤ) (ns : List ℤ) (n : ℤ) :
    intervals a (ns ++ [n]) = intervals a ns ++ [(a + ns.sum, a + ns.sum + n)] := by
  induction ns generalizing a with
  | nil => simp [intervals]
  | cons m ns ih => simp [intervals, ih, add_assoc]

section Rows

variable {ns : List ℤ} (hbase : 0 < base) (hns : ∀ n ∈ ns, 0 ≤ n)
include hbase hns

/-- Charged one by one, intervals in a row come to no more than the interval they make up. -/
theorem sum_charge_le :
    ((intervals a ns).map fun i => charge base bands i.1 i.2).sum ≤ charge base bands a (a + ns.sum) := by
  induction ns generalizing a with
  | nil =>
      have hzero : ∀ x ∈ bands, x.slice a a = 0 := by
        intro x _
        unfold Band.slice
        omega
      rw [List.sum_nil, add_zero, charge_eq_zero hzero]
      exact le_rfl
  | cons n ns ih =>
      obtain ⟨hn, hrest⟩ := List.forall_mem_cons.1 hns
      have hsum : 0 ≤ ns.sum := List.sum_nonneg hrest
      have hle := ih (a := a + n) hrest
      have hadd : charge base bands a (a + n) + charge base bands (a + n) (a + n + ns.sum) ≤
          charge base bands a (a + n + ns.sum) := charge_add_le hbase (by omega) (by omega)
      rw [intervals, List.map_cons, List.sum_cons, List.sum_cons, ← add_assoc]
      linarith

/-- Charged one by one, they lose less than one unit for each band that each of them has units in. -/
theorem due_le_sum_charge :
    due bands a (a + ns.sum) ≤ base * ((intervals a ns).map fun i => charge base bands i.1 i.2).sum +
      (base - 1) * (((intervals a ns).map fun i => touched bands i.1 i.2).sum : ℕ) := by
  induction ns generalizing a with
  | nil =>
      have hzero : due bands a a = 0 := by
        have htwice : due bands a a + due bands a a = due bands a a := due_add le_rfl le_rfl
        linarith
      rw [List.sum_nil, add_zero, hzero]
      simp [intervals]
  | cons n ns ih =>
      obtain ⟨hn, hrest⟩ := List.forall_mem_cons.1 hns
      have hsum : 0 ≤ ns.sum := List.sum_nonneg hrest
      have hle := ih (a := a + n) hrest
      have hfirst : due bands a (a + n) ≤ base * charge base bands a (a + n) +
          (base - 1) * touched bands a (a + n) := due_le hbase
      have hadd : due bands a (a + n) + due bands (a + n) (a + n + ns.sum) = due bands a (a + n + ns.sum) :=
        due_add (by omega) (by omega)
      rw [intervals, List.map_cons, List.sum_cons, List.sum_cons, List.map_cons, List.sum_cons, ← add_assoc,
        ← hadd, Nat.cast_add]
      linarith

end Rows

/-- An interval that the bands cover has units in one of them. -/
theorem Adjoining.touched_pos (h : Adjoining lo bands hi) (hlo : lo ≤ a) (hab : a < b) (hhi : b ≤ hi) :
    0 < touched bands a b := by
  refine List.countP_pos_iff.2 ?_
  by_contra hnone
  push Not at hnone
  have hzero : (bands.map fun x => x.slice a b).sum = 0 := by
    refine List.sum_eq_zero fun y hy => ?_
    obtain ⟨x, hx, rfl⟩ := List.mem_map.1 hy
    exact le_antisymm (not_lt.1 (by simpa using hnone x hx)) slice_nonneg
  rw [h.sum_slice] at hzero
  omega

/-! ## Rates that do not fall -/

theorem Adjoining.rateAt_eq (h : Adjoining lo bands hi) (hlo : lo < u) (hhi : u ≤ hi) :
    ∃ x ∈ bands, x.Holds u ∧ rateAt bands u = x.rate := by
  have hone := h.countP_holds hlo hhi
  cases hfind : bands.find? fun x => x.Holds u with
  | none =>
      have hzero : (bands.countP fun x => x.Holds u) = 0 :=
        List.countP_eq_zero.2 fun x hx => List.find?_eq_none.1 hfind x hx
      omega
  | some x =>
      refine ⟨x, List.mem_of_find?_eq_some hfind, by simpa using List.find?_some hfind, ?_⟩
      rw [rateAt, hfind, Option.elim_some]

theorem Adjoining.rateAt_of_le (h : Adjoining lo bands hi) (hu : u ≤ lo) : rateAt bands u = 0 := by
  have hnone : bands.find? (fun x => x.Holds u) = none :=
    List.find?_eq_none.2 fun x hx => by simpa using h.holds_none hu x hx
  rw [rateAt, hnone, Option.elim_none]

/-- Where the rates do not fall from band to band, they do not fall from unit to unit. -/
theorem Adjoining.rateAt_mono (h : Adjoining lo bands hi) (hrates : ∀ x ∈ bands, 0 ≤ x.rate)
    (hsorted : bands.Pairwise fun x y => x.rate ≤ y.rate) (huv : u ≤ v) (hv : v ≤ hi) :
    rateAt bands u ≤ rateAt bands v := by
  induction h with
  | nil lo => exact le_rfl
  | @cons x bands lo hi hlower hx h ih =>
      obtain ⟨hfirst, hrest⟩ := List.pairwise_cons.1 hsorted
      obtain ⟨hrate, hrates⟩ := List.forall_mem_cons.1 hrates
      have hcons : Adjoining lo (x :: bands) hi := .cons hlower hx h
      by_cases hin : lo < u
      · obtain ⟨y, hy, hyu, hyrate⟩ := hcons.rateAt_eq hin (huv.trans hv)
        obtain ⟨z, hz, hzv, hzrate⟩ := hcons.rateAt_eq (hin.trans_le huv) hv
        rw [hyrate, hzrate]
        rcases List.mem_cons.1 hy with rfl | hy
        · rcases List.mem_cons.1 hz with rfl | hz
          · exact le_rfl
          · exact hfirst z hz
        · -- the later unit is behind the first band as well
          have hbehind : x.upper < u := (h.lower_le y hy).trans_lt hyu.1
          have hskip : ∀ w, x.upper < w → rateAt (x :: bands) w = rateAt bands w := by
            intro w hw
            rw [rateAt, List.find?_cons_of_neg (by simpa using fun hholds => absurd hholds.2 (not_le.2 hw)), rateAt]
          rw [← hyrate, ← hzrate, hskip u hbehind, hskip v (hbehind.trans_le huv)]
          exact ih hrates hrest hv
      · rw [hcons.rateAt_of_le (not_lt.1 hin)]
        by_cases hvlo : lo < v
        · obtain ⟨z, hz, -, hzrate⟩ := hcons.rateAt_eq hvlo hv
          rw [hzrate]
          rcases List.mem_cons.1 hz with rfl | hz
          · exact hrate
          · exact hrates z hz
        · rw [hcons.rateAt_of_le (not_lt.1 hvlo)]

/-- Then an interval costs no less further up. -/
theorem Adjoining.due_shift (h : Adjoining lo bands hi) (hrates : ∀ x ∈ bands, 0 ≤ x.rate)
    (hsorted : bands.Pairwise fun x y => x.rate ≤ y.rate) (haa' : a ≤ a') (hhi : a' + n ≤ hi) :
    due bands a (a + n) ≤ due bands a' (a' + n) := by
  have hmap : Finset.Ioc a' (a' + n) = (Finset.Ioc a (a + n)).map (addRightEmbedding (a' - a)) := by
    rw [Finset.map_add_right_Ioc]
    congr 1 <;> ring
  rw [h.due_eq_sum, h.due_eq_sum, hmap, Finset.sum_map]
  refine Finset.sum_le_sum fun u hu => h.rateAt_mono hrates hsorted ?_ ?_
  · change u ≤ u + (a' - a)
    omega
  · have hle := (Finset.mem_Ioc.1 hu).2
    change u + (a' - a) ≤ hi
    omega

end Bands
