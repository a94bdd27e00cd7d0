import Mathlib.Data.BitVec
import Mathlib.Data.List.Basic
import Mathlib.Logic.Function.Iterate

/-!
# Cyclic redundancy checks

The remainder of a sequence of bytes by a polynomial, a bit at a time, most significant first. A bit
is absorbed linearly and, for a polynomial with a constant term, without loss: a change within two
neighbouring bytes is therefore always seen.
-/

namespace Crc

variable {w : ℕ} (poly : BitVec w)

def step (crc : BitVec w) : BitVec w := if crc.msb then crc <<< 1 ^^^ poly else crc <<< 1

theorem step_xor (x y : BitVec w) : step poly (x ^^^ y) = step poly x ^^^ step poly y := by
  unfold step
  rw [BitVec.msb_xor, BitVec.shiftLeft_xor_distrib]
  cases x.msb <;> cases y.msb
  · rfl
  · exact BitVec.xor_assoc _ _ _
  · change x <<< 1 ^^^ y <<< 1 ^^^ poly = x <<< 1 ^^^ poly ^^^ y <<< 1
    rw [BitVec.xor_assoc, BitVec.xor_assoc, BitVec.xor_comm poly]
  · change x <<< 1 ^^^ y <<< 1 = x <<< 1 ^^^ poly ^^^ (y <<< 1 ^^^ poly)
    rw [BitVec.xor_comm (y <<< 1), BitVec.xor_assoc, ← BitVec.xor_assoc poly, BitVec.xor_self,
      BitVec.zero_xor]

theorem iterate_xor (n : ℕ) (x y : BitVec w) :
    (step poly)^[n] (x ^^^ y) = (step poly)^[n] x ^^^ (step poly)^[n] y := by
  induction n generalizing x y with
  | zero => rfl
  | succ n ih =>
      rw [Function.iterate_succ_apply, step_xor, ih, ← Function.iterate_succ_apply,
        ← Function.iterate_succ_apply]

theorem eq_zero_of_shift {x : BitVec w} (hmsb : x.msb = false) (h : x <<< 1 = 0#w) : x = 0#w := by
  refine BitVec.eq_of_getLsbD_eq fun i hi => ?_
  rw [BitVec.getLsbD_zero]
  rcases Nat.lt_or_ge (i + 1) w with hlt | hge
  · have hbit : (x <<< 1).getLsbD (i + 1) = (0#w).getLsbD (i + 1) := by rw [h]
    rwa [BitVec.getLsbD_shiftLeft, decide_eq_true hlt, decide_eq_false (by omega), Bool.not_false,
      Bool.true_and, Bool.true_and, Nat.add_sub_cancel, BitVec.getLsbD_zero] at hbit
  · rw [BitVec.msb_eq_getLsbD_last] at hmsb
    rwa [show i = w - 1 by omega]

theorem step_injective (hpoly : poly.getLsbD 0 = true) : Function.Injective (step poly) := by
  intro x y h
  have hzero : step poly (x ^^^ y) = 0#w := by rw [step_xor, h, BitVec.xor_self]
  refine BitVec.xor_eq_zero_iff.1 ?_
  generalize x ^^^ y = z at hzero
  unfold step at hzero
  split_ifs at hzero with hmsb
  · -- the constant term of the polynomial stays alone at the low end
    have hbit := congrArg (fun y : BitVec w => y.getLsbD 0) hzero
    simp [BitVec.getLsbD_shiftLeft, hpoly] at hbit
  · exact eq_zero_of_shift (Bool.eq_false_iff.2 hmsb) hzero

/-! ## Bytes -/

/-- A byte at the high end of the register. -/
def top (w : ℕ) (byte : BitVec 8) : BitVec w := byte.setWidth w <<< (w - 8)

def absorb (crc : BitVec w) (byte : BitVec 8) : BitVec w := (step poly)^[8] (crc ^^^ top w byte)

def checksum (data : List (BitVec 8)) : BitVec w := data.foldl (absorb poly) 0#w

theorem absorb_xor (crc : BitVec w) (byte : BitVec 8) :
    absorb poly crc byte = (step poly)^[8] crc ^^^ (step poly)^[8] (top w byte) := iterate_xor poly 8 _ _

theorem absorb_injective (hpoly : poly.getLsbD 0 = true) (byte : BitVec 8) :
    Function.Injective fun crc => absorb poly crc byte := fun _ _ h =>
  (BitVec.xor_left_inj _).1 ((step_injective poly hpoly).iterate 8 h)

/-- Bytes after a difference do not take it back. -/
theorem foldl_absorb_injective (hpoly : poly.getLsbD 0 = true) (data : List (BitVec 8)) :
    Function.Injective fun crc => data.foldl (absorb poly) crc := by
  induction data with
  | nil => exact fun _ _ h => h
  | cons byte data ih => exact fun x y h => absorb_injective poly hpoly byte (ih h)

theorem top_xor (a b : BitVec 8) : top w (a ^^^ b) = top w a ^^^ top w b := by
  rw [top, BitVec.setWidth_xor, BitVec.shiftLeft_xor_distrib]
  rfl

/-- Two last bytes change the checksum by what their difference alone gives. -/
theorem checksum_last (before : List (BitVec 8)) (a a' : BitVec 8) :
    checksum poly (before ++ [a]) ^^^ checksum poly (before ++ [a']) = (step poly)^[8] (top w (a ^^^ a')) := by
  unfold checksum
  rw [List.foldl_append, List.foldl_append]
  change absorb poly _ a ^^^ absorb poly _ a' = _
  rw [absorb_xor, absorb_xor, BitVec.xor_comm _ ((step poly)^[8] (top w a)), BitVec.xor_assoc,
    ← BitVec.xor_assoc ((step poly)^[8] (before.foldl (absorb poly) 0#w)), BitVec.xor_self, BitVec.zero_xor,
    ← iterate_xor, top_xor]

/-! ## Two neighbouring bytes -/

/-- A byte below the high byte of the register. -/
def second (w : ℕ) (byte : BitVec 8) : BitVec w := byte.setWidth w <<< (w - 16)

/-- It moves to the top before the polynomial can touch it. -/
theorem iterate_second (hw : 16 ≤ w) (byte : BitVec 8) : (step poly)^[8] (second w byte) = top w byte := by
  have hmoves : ∀ k ≤ 8, (step poly)^[k] (second w byte) = byte.setWidth w <<< (w - 16 + k) := by
    intro k hk
    induction k with
    | zero => rfl
    | succ k ih =>
        have hmsb : (byte.setWidth w <<< (w - 16 + k)).msb = false := by
          rw [BitVec.msb_eq_getLsbD_last, BitVec.getLsbD_shiftLeft, BitVec.getLsbD_setWidth,
            BitVec.getLsbD_of_ge byte _ (by omega), Bool.and_false, Bool.and_false]
        rw [Function.iterate_succ_apply', ih (by omega), step, hmsb, if_neg Bool.false_ne_true,
          ← BitVec.shiftLeft_add]
        rfl
  rw [hmoves 8 le_rfl, top, show w - 16 + 8 = w - 8 by omega]

theorem getLsbD_shifted (byte : BitVec 8) {k i : ℕ} (hi : k + i < w) :
    (byte.setWidth w <<< k).getLsbD (k + i) = byte.getLsbD i := by
  rw [BitVec.getLsbD_shiftLeft, BitVec.getLsbD_setWidth, decide_eq_true hi, decide_eq_false (by omega),
    Nat.add_sub_cancel_left, decide_eq_true (by omega), Bool.not_false, Bool.true_and, Bool.true_and,
    Bool.true_and]

theorem second_injective (hw : 16 ≤ w) : Function.Injective (second w) := by
  intro b b' h
  refine BitVec.eq_of_getLsbD_eq fun i hi => ?_
  rw [← getLsbD_shifted b (show w - 16 + i < w by omega), ← getLsbD_shifted b' (show w - 16 + i < w by omega)]
  exact congrArg (fun x : BitVec w => x.getLsbD (w - 16 + i)) h

theorem top_xor_second_injective (hw : 16 ≤ w) {a a' b b' : BitVec 8}
    (h : top w a ^^^ second w b = top w a' ^^^ second w b') : a = a' ∧ b = b' := by
  have hhigh : ∀ a b : BitVec 8, ∀ i < 8, (top w a ^^^ second w b).getLsbD (w - 8 + i) = a.getLsbD i := by
    intro a b i hi
    have hnone : (second w b).getLsbD (w - 8 + i) = false := by
      rw [show w - 8 + i = w - 16 + (8 + i) by omega, second, getLsbD_shifted b (by omega)]
      exact BitVec.getLsbD_of_ge b _ (by omega)
    rw [BitVec.getLsbD_xor, hnone, Bool.xor_false, top, getLsbD_shifted a (by omega)]
  have ha : a = a' := BitVec.eq_of_getLsbD_eq fun i hi => by rw [← hhigh a b i hi, h, hhigh a' b' i hi]
  subst ha
  exact ⟨rfl, second_injective hw ((BitVec.xor_right_inj _).1 h)⟩

/-- A change of two neighbouring bytes is seen. -/
theorem checksum_pair (hpoly : poly.getLsbD 0 = true) (hw : 16 ≤ w) (before after : List (BitVec 8))
    {a a' b b' : BitVec 8}
    (h : checksum poly (before ++ a :: b :: after) = checksum poly (before ++ a' :: b' :: after)) :
    a = a' ∧ b = b' := by
  unfold checksum at h
  rw [List.foldl_append, List.foldl_append, List.foldl_cons, List.foldl_cons, List.foldl_cons,
    List.foldl_cons] at h
  have hpair := foldl_absorb_injective poly hpoly after h
  generalize before.foldl (absorb poly) 0#w = crc at hpair
  have hword : ∀ a b, absorb poly (absorb poly crc a) b =
      (step poly)^[8] ((step poly)^[8] (crc ^^^ (top w a ^^^ second w b))) := by
    intro a b
    rw [absorb, absorb, ← BitVec.xor_assoc, iterate_xor poly 8 _ (second w b), iterate_second poly hw]
  rw [hword, hword] at hpair
  have hinj := (step_injective poly hpoly).iterate 8
  exact top_xor_second_injective hw ((BitVec.xor_right_inj _).1 (hinj (hinj hpair)))

/-- Two sequences that differ within two neighbouring bytes at most. -/
theorem checksum_window (hpoly : poly.getLsbD 0 = true) (hw : 16 ≤ w) {data data' : List (BitVec 8)} {j : ℕ}
    (hlength : data.length = data'.length) (hj : j + 1 < data.length) (htake : data.take j = data'.take j)
    (hdrop : data.drop (j + 2) = data'.drop (j + 2)) (h : checksum poly data = checksum poly data') :
    data = data' := by
  have hsplit : ∀ (xs : List (BitVec 8)) (hxs : j + 1 < xs.length),
      xs = xs.take j ++ xs[j] :: xs[j + 1] :: xs.drop (j + 2) := fun xs hxs => by
    rw [← List.drop_eq_getElem_cons hxs, ← List.drop_eq_getElem_cons, List.take_append_drop]
  have hj' : j + 1 < data'.length := hlength ▸ hj
  rw [hsplit data hj, hsplit data' hj', htake, hdrop] at h ⊢
  obtain ⟨ha, hb⟩ := checksum_pair poly hpoly hw _ _ h
  rw [ha, hb]

end Crc
