import Mathlib.Data.Nat.Digits.Lemmas
import Mathlib.Tactic.Ring

/-!
# Digits of another width

Digits of one width cut into digits of another, both with the most significant first. The two
lists stand for the same number in the same number of bits, so each determines the other, and
where two lists of the one kind agree the lists of the other kind do, up to a digit.
-/

namespace Radix

/-- The number that digits in base `b` stand for. -/
def number (b : ℕ) (ds : List ℕ) : ℕ := Nat.ofDigits b ds.reverse

theorem number_snoc (b : ℕ) (ds : List ℕ) (d : ℕ) : number b (ds ++ [d]) = number b ds * b + d := by
  rw [number, List.reverse_append, List.reverse_singleton, List.singleton_append, Nat.ofDigits_cons, number,
    mul_comm b, add_comm]

section Base

variable {b : ℕ} {ds es : List ℕ}

theorem number_injective (hb : 1 < b) (hlength : ds.length = es.length) (hds : ∀ d ∈ ds, d < b)
    (hes : ∀ e ∈ es, e < b) (h : number b ds = number b es) : ds = es := by
  refine List.reverse_injective (Nat.ofDigits_inj_of_len_eq hb ?_ ?_ ?_ h)
  · rw [List.length_reverse, List.length_reverse, hlength]
  · exact fun d hd => hds d (List.mem_reverse.1 hd)
  · exact fun e he => hes e (List.mem_reverse.1 he)

theorem number_take (hb : 0 < b) (hds : ∀ d ∈ ds, d < b) (i : ℕ) :
    number b (ds.take i) = number b ds / b ^ (ds.length - i) := by
  rw [number, number, List.reverse_take]
  exact (Nat.ofDigits_div_pow_eq_ofDigits_drop _ hb _ fun d hd => hds d (List.mem_reverse.1 hd)).symm

theorem number_drop (hb : 0 < b) (hds : ∀ d ∈ ds, d < b) (i : ℕ) :
    number b (ds.drop i) = number b ds % b ^ (ds.length - i) := by
  rw [number, number, List.reverse_drop]
  exact (Nat.ofDigits_mod_pow_eq_ofDigits_take _ hb _ fun d hd => hds d (List.mem_reverse.1 hd)).symm

end Base

/-- The digits `es` of width `v` are the digits `ds` of width `w`, cut anew. -/
structure Recut (w v : ℕ) (ds es : List ℕ) : Prop where
  length : ds.length * w = es.length * v
  reads : ∀ d ∈ ds, d < 2 ^ w
  writes : ∀ e ∈ es, e < 2 ^ v
  value : number (2 ^ w) ds = number (2 ^ v) es

namespace Recut

variable {w v i j : ℕ} {ds ds' es es' : List ℕ}

theorem symm (h : Recut w v ds es) : Recut v w es ds := ⟨h.length.symm, h.writes, h.reads, h.value.symm⟩

theorem number_take (h : Recut w v ds es) (hij : v * j ≤ w * i) :
    number (2 ^ v) (es.take j) =
      number (2 ^ w) (ds.take i) / 2 ^ (v * (es.length - j) - w * (ds.length - i)) := by
  have hlength := h.length
  have hle : w * (ds.length - i) ≤ v * (es.length - j) := by
    rw [Nat.mul_sub, Nat.mul_sub, mul_comm w, mul_comm v, hlength]
    exact Nat.sub_le_sub_left hij _
  rw [Radix.number_take (by positivity) h.writes, Radix.number_take (by positivity) h.reads, h.value,
    ← pow_mul, ← pow_mul, Nat.div_div_eq_div_mul, ← pow_add, Nat.add_sub_cancel' hle]

theorem number_drop (h : Recut w v ds es) (hij : w * i ≤ v * j) :
    number (2 ^ v) (es.drop j) = number (2 ^ w) (ds.drop i) % 2 ^ (v * (es.length - j)) := by
  have hlength := h.length
  have hle : v * (es.length - j) ≤ w * (ds.length - i) := by
    rw [Nat.mul_sub, Nat.mul_sub, mul_comm w, mul_comm v, hlength]
    exact Nat.sub_le_sub_left hij _
  rw [Radix.number_drop (by positivity) h.writes, Radix.number_drop (by positivity) h.reads, h.value,
    ← pow_mul, ← pow_mul, Nat.mod_mod_of_dvd _ (pow_dvd_pow 2 hle)]

theorem length_eq (hv : 0 < v) (h : Recut w v ds es) (h' : Recut w v ds' es') (hds : ds.length = ds'.length) :
    es.length = es'.length := by
  have hbits := h.length.symm.trans ((congrArg (· * w) hds).trans h'.length)
  exact Nat.eq_of_mul_eq_mul_right hv hbits

theorem take_eq (hv : 0 < v) (h : Recut w v ds es) (h' : Recut w v ds' es') (hds : ds.length = ds'.length)
    (hij : v * j ≤ w * i) (htake : ds.take i = ds'.take i) : es.take j = es'.take j := by
  have hlength := length_eq hv h h' hds
  refine number_injective (Nat.one_lt_two_pow hv.ne') ?_ (fun e he => h.writes e (List.mem_of_mem_take he))
    (fun e he => h'.writes e (List.mem_of_mem_take he)) ?_
  · rw [List.length_take, List.length_take, hlength]
  · rw [h.number_take hij, h'.number_take hij, htake, hlength, hds]

theorem drop_eq (hv : 0 < v) (h : Recut w v ds es) (h' : Recut w v ds' es') (hds : ds.length = ds'.length)
    (hij : w * i ≤ v * j) (hdrop : ds.drop i = ds'.drop i) : es.drop j = es'.drop j := by
  have hlength := length_eq hv h h' hds
  refine number_injective (Nat.one_lt_two_pow hv.ne') ?_ (fun e he => h.writes e (List.mem_of_mem_drop he))
    (fun e he => h'.writes e (List.mem_of_mem_drop he)) ?_
  · rw [List.length_drop, List.length_drop, hlength]
  · rw [h.number_drop hij, h'.number_drop hij, hdrop, hlength]

/-- Where the digits end within a digit of the other width, its high bits are settled. -/
theorem high_bits (h : Recut w v ds es) (h' : Recut w v ds' es') (hv : 0 < v) (hds : ds.length = ds'.length)
    (hlow : v * j ≤ w * i) (hhigh : w * i ≤ v * (j + 1)) (htake : ds.take i = ds'.take i) {e e' : ℕ}
    (he : es[j]? = some e) (he' : es'[j]? = some e') :
    e / 2 ^ (v * (j + 1) - w * i) = e' / 2 ^ (v * (j + 1) - w * i) := by
  have hnumber : ∀ {ds es : List ℕ} {e : ℕ}, Recut w v ds es → es[j]? = some e →
      number (2 ^ w) (ds.take i) =
        number (2 ^ v) (es.take j) * 2 ^ (w * i - v * j) + e / 2 ^ (v * (j + 1) - w * i) := by
    intro ds es e h he
    obtain ⟨hj, rfl⟩ := List.getElem?_eq_some_iff.1 he
    have hle : v * (j + 1) ≤ v * es.length := Nat.mul_le_mul_left v hj
    have hnext : v * (j + 1) = v * j + v := Nat.mul_succ v j
    have hbits : w * (ds.length - i) - v * (es.length - (j + 1)) = v * (j + 1) - w * i := by
      rw [Nat.mul_sub, Nat.mul_sub, mul_comm w, h.length, mul_comm es.length]
      omega
    have hwidth : 2 ^ v = 2 ^ (w * i - v * j) * 2 ^ (v * (j + 1) - w * i) := by
      rw [← pow_add]
      congr 1
      omega
    rw [h.symm.number_take hhigh, hbits, List.take_add_one, List.getElem?_eq_getElem hj, Option.toList_some,
      number_snoc]
    generalize number (2 ^ v) (es.take j) = x
    rw [hwidth, ← mul_assoc, Nat.add_comm, Nat.add_mul_div_right _ _ (by positivity), Nat.add_comm]
  have hsame := take_eq hv h h' hds hlow htake
  have heq := (hnumber h he).symm.trans ((congrArg (number (2 ^ w)) htake).trans (hnumber h' he'))
  rw [hsame] at heq
  exact Nat.add_left_cancel heq

theorem unique (hv : 0 < v) (h : Recut w v ds es) (h' : Recut w v ds es') : es = es' := by
  have hdrop := drop_eq (i := 0) (j := 0) hv h h' rfl (by simp) rfl
  rwa [List.drop_zero, List.drop_zero] at hdrop

end Recut

/-! ## With an accumulator -/

/-- A loop has read `ds` and written `es`; the last `bits` bits of the accumulator wait. -/
structure Carried (w v : ℕ) (ds es : List ℕ) (acc bits : ℕ) : Prop where
  length : ds.length * w = es.length * v + bits
  reads : ∀ d ∈ ds, d < 2 ^ w
  writes : ∀ e ∈ es, e < 2 ^ v
  value : number (2 ^ w) ds = number (2 ^ v) es * 2 ^ bits + acc % 2 ^ bits

namespace Carried

variable {w v acc bits d : ℕ} {ds es : List ℕ}

theorem nil (w v : ℕ) : Carried w v [] [] 0 0 := ⟨by simp, by simp, by simp, by simp [number]⟩

theorem push (h : Carried w v ds es acc bits) (hd : d < 2 ^ w) :
    Carried w v (ds ++ [d]) es (acc <<< w ||| d) (bits + w) := by
  refine ⟨?_, ?_, h.writes, ?_⟩
  · rw [List.length_append, List.length_singleton, add_mul, h.length]
    ring
  · intro e he
    rcases List.mem_append.1 he with he | he
    · exact h.reads e he
    · rwa [List.mem_singleton.1 he]
  · have hlow : (acc <<< w ||| d) % 2 ^ (bits + w) = acc % 2 ^ bits * 2 ^ w + d := by
      rw [← Nat.shiftLeft_add_eq_or_of_lt hd, Nat.shiftLeft_eq, add_comm bits, pow_add, Nat.mod_mul,
        mul_comm acc, Nat.mul_add_mod, Nat.mod_eq_of_lt hd, Nat.mul_add_div (by positivity),
        Nat.div_eq_of_lt hd, Nat.add_zero, Nat.mul_comm, Nat.add_comm]
    rw [number_snoc, h.value, hlow]
    ring

theorem emit (h : Carried w v ds es acc (bits + v)) :
    Carried w v ds (es ++ [acc >>> bits % 2 ^ v]) acc bits := by
  refine ⟨?_, h.reads, ?_, ?_⟩
  · rw [h.length, List.length_append, List.length_singleton]
    ring
  · intro e he
    rcases List.mem_append.1 he with he | he
    · exact h.writes e he
    · rw [List.mem_singleton.1 he]
      exact Nat.mod_lt _ (by positivity)
  · rw [h.value, number_snoc, Nat.shiftRight_eq_div_pow, pow_add, Nat.mod_mul]
    ring

theorem mask (h : Carried w v ds es acc bits) : Carried w v ds es (acc &&& (1 <<< bits - 1)) bits := by
  refine ⟨h.length, h.reads, h.writes, ?_⟩
  rw [Nat.one_shiftLeft, Nat.and_two_pow_sub_one_eq_mod, Nat.mod_mod]
  exact h.value

theorem mask_lt (acc bits : ℕ) : acc &&& (1 <<< bits - 1) < 2 ^ bits := by
  rw [Nat.one_shiftLeft, Nat.and_two_pow_sub_one_eq_mod]
  exact Nat.mod_lt _ (by positivity)

/-- Nothing waits when the digits come out even. -/
theorem recut (h : Carried w v ds es acc bits) (hdvd : v ∣ ds.length * w) (hlt : bits < v) : Recut w v ds es := by
  have hbits : bits = 0 := by
    have hwaits : v ∣ bits := (Nat.dvd_add_right (Dvd.intro_left _ rfl)).1 (h.length ▸ hdvd)
    exact Nat.eq_zero_of_dvd_of_lt hwaits hlt
  subst hbits
  refine ⟨h.length, h.reads, h.writes, ?_⟩
  rw [h.value, pow_zero, mul_one, Nat.mod_one, Nat.add_zero]

end Carried

end Radix
