import Mathlib.Data.List.GetD
import StellarSplit.Lib.Call
import StellarSplit.Lib.Crc
import StellarSplit.Lib.Radix
import StellarSplit.Split.Types

/-!
# Addresses in letters

An address is a version byte and a payload with their checksum, cut into digits of five bits and
written in letters. What is accepted is exactly what the encoder writes for an account or a contract,
and a single wrong letter is always seen.
-/

namespace StellarSplit.Split.Strkey

open Exec Radix

/-! ## Letters and checksums -/

def strkeyLen : ℕ := 56

def strkeyRawLen : ℕ := 35

def versionAccount : UInt8 := (6 : UInt8) <<< 3

def versionContract : UInt8 := (2 : UInt8) <<< 3

def base32Value (c : UInt8) : Option UInt8 :=
  if 'A'.toUInt8 ≤ c ∧ c ≤ 'Z'.toUInt8 then some (c - 'A'.toUInt8)
  else if '2'.toUInt8 ≤ c ∧ c ≤ '7'.toUInt8 then some (c - '2'.toUInt8 + 26)
  else none

def crcBit (crc : UInt16) : UInt16 :=
  if crc &&& 0x8000 ≠ 0 then crc <<< (1 : UInt16) ^^^ 0x1021 else crc <<< (1 : UInt16)

def crc16Xmodem (data : List UInt8) : UInt16 :=
  data.foldl (fun crc byte => crcBit^[8] (crc ^^^ byte.toUInt16 <<< (8 : UInt16))) 0

def toLeBytes (x : UInt16) : List UInt8 := [x.toUInt8, (x >>> 8).toUInt8]

def fromLeBytes (low high : UInt8) : UInt16 := low.toUInt16 ||| high.toUInt16 <<< (8 : UInt16)

/-! ## Reading -/

/-- Where the loop over the letters stands: the bytes written, and the bits that wait. -/
structure Decoding where
  raw : List UInt8
  acc : ℕ
  bits : ℕ
deriving DecidableEq, Repr

def Decoding.read (st : Decoding) (v : UInt8) : Decoding :=
  let acc := st.acc <<< 5 ||| v.toNat
  let bits := st.bits + 5
  if 8 ≤ bits then ⟨st.raw ++ [UInt8.ofNat (acc >>> (bits - 8))], acc &&& (1 <<< (bits - 8) - 1), bits - 8⟩
  else ⟨st.raw, acc, bits⟩

def readLetter (st : Decoding) (c : UInt8) : Except ContractError Decoding :=
  match base32Value c with
  | some v => .ok (st.read v)
  | none => .error .invalidRecipientAddress

/-- The loop over the letters: the bytes they spell. -/
def decode (strkey : List UInt8) : Except ContractError (List UInt8) :=
  (strkey.foldlM readLetter ⟨[], 0, 0⟩).map Decoding.raw

/-- The checks on the bytes. -/
def checkRaw (raw : List UInt8) : Except ContractError Unit :=
  if raw.length ≠ strkeyRawLen then .error .invalidRecipientAddress
  else if raw.getD 0 0 ≠ versionAccount ∧ raw.getD 0 0 ≠ versionContract then .error .invalidRecipientAddress
  else if crc16Xmodem (raw.take 33) ≠ fromLeBytes (raw.getD 33 0) (raw.getD 34 0) then
    .error .invalidRecipientAddress
  else if ((raw.take 33).drop 1).all (· = 0) then .error .invalidRecipientAddress
  else .ok ()

def validateStrkey (strkey : List UInt8) : Except ContractError Unit :=
  if strkey.length ≠ strkeyLen then .error .invalidRecipientAddress
  else do
    let raw ← decode strkey
    checkRaw raw

/-! ## Writing -/

def alphabet : List UInt8 := "ABCDEFGHIJKLMNOPQRSTUVWXYZ234567".toList.map Char.toUInt8

def letter (d : ℕ) : UInt8 := alphabet.getD d 0

/-- Where the loop over the bytes stands. -/
structure Encoding where
  out : List UInt8
  acc : ℕ
  bits : ℕ
deriving DecidableEq, Repr

/-- The inner loop: letters are written while there are five bits. -/
def emit (acc : ℕ) : ℕ → List UInt8 → List UInt8 × ℕ
  | bits + 5, out => emit acc bits (out ++ [letter (acc >>> bits &&& 31)])
  | bits, out => (out, bits)

def Encoding.write (st : Encoding) (b : UInt8) : Encoding :=
  let acc := st.acc <<< 8 ||| b.toNat
  let r := emit acc (st.bits + 8) st.out
  ⟨r.1, acc &&& (1 <<< r.2 - 1), r.2⟩

abbrev Payload := { bytes : List UInt8 // bytes.length = 32 }

def strkeyRaw (version : UInt8) (payload : Payload) : List UInt8 :=
  version :: payload.1 ++ toLeBytes (crc16Xmodem (version :: payload.1))

def encodeStrkey (version : UInt8) (payload : Payload) : List UInt8 :=
  ((strkeyRaw version payload).foldl Encoding.write ⟨[], 0, 0⟩).out

/-! ## The checksum -/

theorem high_bit (crc : UInt16) : crc &&& 0x8000 ≠ 0 ↔ crc.toBitVec.msb = true := by
  have hmask : crc &&& 0x8000 = 0 ↔ crc.toBitVec &&& BitVec.twoPow 16 15 = 0#16 := UInt16.toBitVec_inj.symm
  rw [ne_eq, hmask, BitVec.and_twoPow, BitVec.msb_eq_getLsbD_last]
  cases crc.toBitVec.getLsbD 15 <;> decide

theorem toBitVec_crcBit (crc : UInt16) : (crcBit crc).toBitVec = Crc.step 0x1021#16 crc.toBitVec := by
  rw [crcBit, Crc.step, apply_ite UInt16.toBitVec]
  exact if_congr (high_bit crc) rfl rfl

theorem toBitVec_crc16Xmodem (data : List UInt8) :
    (crc16Xmodem data).toBitVec = Crc.checksum 0x1021#16 (data.map UInt8.toBitVec) := by
  have hstep : Function.Semiconj UInt16.toBitVec crcBit (Crc.step 0x1021#16) := toBitVec_crcBit
  rw [crc16Xmodem, Crc.checksum, List.foldl_map]
  refine (List.foldl_hom UInt16.toBitVec fun crc byte => ?_).symm
  rw [(hstep.iterate_right 8).eq]
  rfl

example : crc16Xmodem ("123456789".toList.map Char.toUInt8) = 0x31C3 := by decide +kernel

theorem fromLeBytes_toNat (low high : UInt8) : (fromLeBytes low high).toNat = low.toNat + 256 * high.toNat := by
  have hlow : low.toNat < 2 ^ 8 := low.toNat_lt
  have hhigh : high.toNat < 2 ^ 8 := high.toNat_lt
  have height : (8 : UInt16).toNat % 16 = 8 := rfl
  rw [fromLeBytes, UInt16.toNat_or, UInt16.toNat_shiftLeft, UInt8.toNat_toUInt16, UInt8.toNat_toUInt16, height,
    Nat.mod_eq_of_lt (by rw [Nat.shiftLeft_eq]; omega), Nat.or_comm, ← Nat.shiftLeft_add_eq_or_of_lt hlow,
    Nat.shiftLeft_eq]
  ring

theorem high_toNat (crc : UInt16) : (crc >>> 8).toUInt8.toNat = crc.toNat / 256 := by
  have hcrc : crc.toNat < 65536 := crc.toNat_lt
  have height : (8 : UInt16).toNat % 16 = 8 := rfl
  rw [UInt16.toNat_toUInt8, UInt16.toNat_shiftRight, height, Nat.shiftRight_eq_div_pow]
  omega

theorem eq_fromLeBytes {crc : UInt16} {low high : UInt8} :
    crc = fromLeBytes low high ↔ toLeBytes crc = [low, high] := by
  have hcrc : crc.toNat < 65536 := crc.toNat_lt
  have hlow : low.toNat < 256 := low.toNat_lt
  have hlast : high.toNat < 256 := high.toNat_lt
  rw [toLeBytes, List.cons.injEq, List.cons.injEq, and_iff_left rfl, ← UInt16.toNat_inj, fromLeBytes_toNat,
    ← UInt8.toNat_inj, ← UInt8.toNat_inj, UInt16.toNat_toUInt8, high_toNat]
  omega

/-! ## Letters -/

theorem base32Value_letter : ∀ d < 32, base32Value (letter d) = some (UInt8.ofNat d) := by decide +kernel

theorem letter_of_value {c v : UInt8} (h : base32Value c = some v) : v.toNat < 32 ∧ letter v.toNat = c := by
  have hall : ∀ n < 256, (base32Value (UInt8.ofNat n)).all
      (fun v => decide (v.toNat < 32 ∧ letter v.toNat = UInt8.ofNat n)) = true := by
    decide +kernel
  have hc := hall c.toNat c.toNat_lt
  rw [UInt8.ofNat_toNat, h] at hc
  exact of_decide_eq_true hc

theorem letter_injective {d e : ℕ} (hd : d < 32) (he : e < 32) (h : letter d = letter e) : d = e := by
  have hvalue := base32Value_letter d hd
  rw [h, base32Value_letter e he] at hvalue
  have hnumber := congrArg UInt8.toNat (Option.some.inj hvalue)
  rw [UInt8.toNat_ofNat', UInt8.toNat_ofNat'] at hnumber
  omega

theorem map_letter_injective {ds es : List ℕ} (hds : ∀ d ∈ ds, d < 32) (hes : ∀ e ∈ es, e < 32)
    (h : ds.map letter = es.map letter) : ds = es := by
  induction ds generalizing es with
  | nil => exact (List.map_eq_nil_iff.1 h.symm).symm
  | cons d ds ih =>
      obtain ⟨e, es, rfl, hletter, hrest⟩ := List.map_eq_cons_iff.1 h.symm
      obtain ⟨hd, hds⟩ := List.forall_mem_cons.1 hds
      obtain ⟨he, hes⟩ := List.forall_mem_cons.1 hes
      rw [letter_injective hd he hletter.symm, ih hds hes hrest.symm]

/-! ## The loop over the letters -/

/-- The digits `ds` were read; the accumulator holds no more than the bits that wait, and so never
overflows. -/
structure Reading (ds : List ℕ) (st : Decoding) : Prop where
  carried : Carried 5 8 ds (st.raw.map UInt8.toNat) st.acc st.bits
  bits_lt : st.bits < 8
  acc_lt : st.acc < 2 ^ st.bits

theorem reading_nil : Reading [] ⟨[], 0, 0⟩ := ⟨Carried.nil 5 8, by decide, by decide⟩

theorem Reading.read {ds : List ℕ} {st : Decoding} {v : UInt8} (h : Reading ds st) (hv : v.toNat < 32) :
    Reading (ds ++ [v.toNat]) (st.read v) := by
  have hpush := h.carried.push (d := v.toNat) hv
  unfold Decoding.read
  dsimp only
  split_ifs with hfull
  · obtain ⟨n, hn⟩ := Nat.exists_eq_add_of_le' hfull
    have hlt := h.bits_lt
    rw [hn] at hpush
    rw [hn, Nat.add_sub_cancel]
    refine ⟨?_, show n < 8 by omega, Carried.mask_lt _ n⟩
    have hemit := hpush.emit.mask
    rwa [List.map_append, List.map_singleton, UInt8.toNat_ofNat']
  · refine ⟨hpush, Nat.lt_of_not_le hfull, ?_⟩
    have hacc := h.acc_lt
    dsimp only
    rw [← Nat.shiftLeft_add_eq_or_of_lt hv, Nat.shiftLeft_eq, pow_add]
    omega

theorem Reading.run {ds : List ℕ} {st t : Decoding} {strkey : List UInt8} (h : Reading ds st)
    (hrun : strkey.foldlM readLetter st = .ok t) :
    ∃ es, (∀ e ∈ es, e < 32) ∧ strkey = es.map letter ∧ Reading (ds ++ es) t := by
  induction strkey generalizing ds st with
  | nil =>
      cases hrun
      exact ⟨[], by simp, rfl, by rwa [List.append_nil]⟩
  | cons c strkey ih =>
      rw [List.foldlM_cons] at hrun
      obtain ⟨u, hread, hrest⟩ := except_bind_ok.1 hrun
      unfold readLetter at hread
      cases hc : base32Value c with
      | none =>
          rw [hc] at hread
          cases hread
      | some v =>
          rw [hc] at hread
          cases hread
          obtain ⟨hv, hletter⟩ := letter_of_value hc
          obtain ⟨es, hes, rfl, hreading⟩ := ih (h.read hv) hrest
          refine ⟨v.toNat :: es, List.forall_mem_cons.2 ⟨hv, hes⟩, ?_, ?_⟩
          · rw [List.map_cons, hletter]
          · rwa [List.append_assoc] at hreading

/-- Letters are always read. -/
theorem foldlM_letters {es : List ℕ} (hes : ∀ e ∈ es, e < 32) (st : Decoding) :
    ∃ t, (es.map letter).foldlM readLetter st = .ok t := by
  induction es generalizing st with
  | nil => exact ⟨st, rfl⟩
  | cons e es ih =>
      obtain ⟨he, hes⟩ := List.forall_mem_cons.1 hes
      obtain ⟨t, ht⟩ := ih hes (st.read (UInt8.ofNat e))
      refine ⟨t, ?_⟩
      rw [List.map_cons, List.foldlM_cons, readLetter, base32Value_letter e he]
      exact ht

/-! ## The loop over the bytes -/

/-- The bytes `bs` were read, the letters of `es` written. -/
structure Writing (bs es : List ℕ) (st : Encoding) : Prop where
  carried : Carried 8 5 bs es st.acc st.bits
  bits_lt : st.bits < 5
  acc_lt : st.acc < 2 ^ st.bits
  out : st.out = es.map letter

theorem writing_nil : Writing [] [] ⟨[], 0, 0⟩ := ⟨Carried.nil 8 5, by decide, by decide, rfl⟩

theorem emit_carried {bs : List ℕ} {acc : ℕ} (bits : ℕ) {es : List ℕ} (h : Carried 8 5 bs es acc bits) :
    ∃ fs, (emit acc bits (es.map letter)).1 = fs.map letter ∧
      Carried 8 5 bs fs acc (emit acc bits (es.map letter)).2 ∧ (emit acc bits (es.map letter)).2 < 5 := by
  induction bits using Nat.strongRecOn generalizing es with
  | ind bits ih =>
      rcases Nat.lt_or_ge bits 5 with hlt | hge
      · have hstop : emit acc bits (es.map letter) = (es.map letter, bits) := by
          rw [emit]
          exact fun n hn => absurd hlt (by omega)
        rw [hstop]
        exact ⟨es, rfl, h, hlt⟩
      · obtain ⟨n, rfl⟩ := Nat.exists_eq_add_of_le' hge
        have hdigit : es.map letter ++ [letter (acc >>> n &&& 31)] = (es ++ [acc >>> n % 2 ^ 5]).map letter := by
          rw [List.map_append, List.map_singleton, ← Nat.and_two_pow_sub_one_eq_mod]
        rw [emit, hdigit]
        exact ih n (by omega) h.emit

theorem Writing.write {bs es : List ℕ} {st : Encoding} (h : Writing bs es st) (b : UInt8) :
    ∃ fs, Writing (bs ++ [b.toNat]) fs (st.write b) := by
  obtain ⟨fs, hout, hcarried, hlt⟩ := emit_carried _ (h.carried.push b.toNat_lt)
  rw [← h.out] at hout hcarried hlt
  exact ⟨fs, hcarried.mask, hlt, Carried.mask_lt _ _, hout⟩

theorem Writing.run {bs es : List ℕ} {st : Encoding} (h : Writing bs es st) (raw : List UInt8) :
    ∃ fs, Writing (bs ++ raw.map UInt8.toNat) fs (raw.foldl Encoding.write st) := by
  induction raw generalizing bs es st with
  | nil => exact ⟨es, by rwa [List.map_nil, List.append_nil]⟩
  | cons b raw ih =>
      obtain ⟨fs, hwrite⟩ := h.write b
      obtain ⟨gs, hrun⟩ := ih hwrite
      rw [List.append_assoc] at hrun
      exact ⟨gs, hrun⟩

/-! ## Bytes and the letters that spell them -/

def Spells (raw strkey : List UInt8) : Prop :=
  ∃ ds, strkey = ds.map letter ∧ Recut 5 8 ds (raw.map UInt8.toNat)

theorem toNat_map_injective {xs ys : List UInt8} (h : xs.map UInt8.toNat = ys.map UInt8.toNat) : xs = ys :=
  List.map_injective_iff.2 (fun _ _ => UInt8.toNat_inj.1) h

theorem Spells.raw_unique {raw raw' strkey : List UInt8} (h : Spells raw strkey) (h' : Spells raw' strkey) :
    raw = raw' := by
  obtain ⟨ds, rfl, hcut⟩ := h
  obtain ⟨es, hletters, hcut'⟩ := h'
  obtain rfl := map_letter_injective hcut.reads hcut'.reads hletters
  exact toNat_map_injective (hcut.unique (by decide) hcut')

theorem Spells.unique {raw strkey strkey' : List UInt8} (h : Spells raw strkey) (h' : Spells raw strkey') :
    strkey = strkey' := by
  obtain ⟨ds, rfl, hcut⟩ := h
  obtain ⟨es, rfl, hcut'⟩ := h'
  rw [hcut.symm.unique (by decide) hcut'.symm]

theorem Spells.length_eq {raw strkey : List UInt8} (h : Spells raw strkey) : strkey.length * 5 = raw.length * 8 := by
  obtain ⟨ds, rfl, hcut⟩ := h
  have hbits := hcut.length
  rwa [List.length_map] at hbits ⊢

theorem decode_spells {raw strkey : List UInt8} (hlength : strkey.length = strkeyLen)
    (h : decode strkey = .ok raw) : Spells raw strkey := by
  unfold decode at h
  cases hrun : strkey.foldlM readLetter ⟨[], 0, 0⟩ with
  | error e =>
      rw [hrun] at h
      cases h
  | ok st =>
      rw [hrun] at h
      cases h
      obtain ⟨ds, -, rfl, hreading⟩ := reading_nil.run hrun
      rw [List.length_map] at hlength
      refine ⟨ds, rfl, hreading.carried.recut ?_ hreading.bits_lt⟩
      rw [List.nil_append, hlength]
      decide

theorem Spells.decode {raw strkey : List UInt8} (h : Spells raw strkey) (hlength : strkey.length = strkeyLen) :
    decode strkey = .ok raw := by
  obtain ⟨ds, rfl, hcut⟩ := h
  obtain ⟨st, hrun⟩ := foldlM_letters hcut.reads ⟨[], 0, 0⟩
  have hdecode : Strkey.decode (ds.map letter) = .ok st.raw := by
    rw [Strkey.decode, hrun]
    rfl
  rw [hdecode, (decode_spells hlength hdecode).raw_unique ⟨ds, rfl, hcut⟩]

theorem encode_spells {raw : List UInt8} (hlength : raw.length = strkeyRawLen) :
    Spells raw (raw.foldl Encoding.write ⟨[], 0, 0⟩).out := by
  obtain ⟨ds, hwriting⟩ := writing_nil.run raw
  refine ⟨ds, hwriting.out, (hwriting.carried.recut ?_ hwriting.bits_lt).symm⟩
  rw [List.nil_append, List.length_map, hlength]
  decide

/-! ## What is accepted -/

theorem length_strkeyRaw (version : UInt8) (payload : Payload) :
    (strkeyRaw version payload).length = strkeyRawLen := by
  rw [strkeyRaw, List.length_append, List.length_cons, payload.2]
  rfl

theorem encodeStrkey_spells (version : UInt8) (payload : Payload) :
    Spells (strkeyRaw version payload) (encodeStrkey version payload) :=
  encode_spells (length_strkeyRaw version payload)

theorem length_encodeStrkey (version : UInt8) (payload : Payload) :
    (encodeStrkey version payload).length = strkeyLen := by
  have h := (encodeStrkey_spells version payload).length_eq
  rw [length_strkeyRaw] at h
  exact Nat.eq_of_mul_eq_mul_right (by decide : 0 < 5) h

/-- The bytes of an account or a contract that is not zero, with their checksum. -/
def Genuine (raw : List UInt8) : Prop :=
  ∃ version payload, (version = versionAccount ∨ version = versionContract) ∧ (∃ b ∈ payload.1, b ≠ 0) ∧
    raw = strkeyRaw version payload

/-- The parts of the bytes. -/
theorem exists_parts {raw : List UInt8} (h : raw.length = strkeyRawLen) :
    ∃ (version : UInt8) (payload : Payload) (low high : UInt8), raw = version :: payload.1 ++ [low, high] := by
  cases raw with
  | nil => cases h
  | cons version rest =>
      have hrest : rest.length = 34 := Nat.succ.inj h
      obtain ⟨low, high, hlast⟩ := List.length_eq_two.1 (show (rest.drop 32).length = 2 by
        rw [List.length_drop, hrest])
      refine ⟨version, ⟨rest.take 32, by rw [List.length_take, hrest]; rfl⟩, low, high, ?_⟩
      rw [← hlast, List.cons_append, List.take_append_drop]

theorem checkRaw_parts (version : UInt8) (payload : Payload) (low high : UInt8) :
    checkRaw (version :: payload.1 ++ [low, high]) = .ok () ↔
      (version = versionAccount ∨ version = versionContract) ∧ (∃ b ∈ payload.1, b ≠ 0) ∧
        toLeBytes (crc16Xmodem (version :: payload.1)) = [low, high] := by
  have hlength : (version :: payload.1).length = 33 := by rw [List.length_cons, payload.2]
  have htake : (version :: payload.1 ++ [low, high]).take 33 = version :: payload.1 :=
    List.take_left' hlength
  have hlow : (version :: payload.1 ++ [low, high]).getD 33 0 = low := by
    rw [List.getD_append_right _ _ _ _ hlength.le, hlength]
    rfl
  have hhigh : (version :: payload.1 ++ [low, high]).getD 34 0 = high := by
    rw [List.getD_append_right _ _ _ _ (by omega), hlength]
    rfl
  rw [← eq_fromLeBytes, checkRaw, htake, hlow, hhigh, if_neg (by
    rw [ne_eq, not_not, List.length_append, hlength]
    rfl)]
  change (if version ≠ versionAccount ∧ version ≠ versionContract then _
    else if crc16Xmodem (version :: payload.1) ≠ fromLeBytes low high then _
    else if payload.1.all (· = 0) then _ else _) = _ ↔ _
  by_cases hversion : version = versionAccount ∨ version = versionContract
  · rw [if_neg (by tauto)]
    by_cases hcrc : crc16Xmodem (version :: payload.1) = fromLeBytes low high
    · rw [if_neg (not_not_intro hcrc)]
      by_cases hzero : payload.1.all (· = 0)
      · rw [if_pos hzero]
        refine iff_of_false nofun fun h => ?_
        obtain ⟨b, hb, hne⟩ := h.2.1
        exact hne (of_decide_eq_true (List.all_eq_true.1 hzero b hb))
      · rw [if_neg hzero]
        rw [List.all_eq_true] at hzero
        push Not at hzero
        obtain ⟨b, hb, hne⟩ := hzero
        exact iff_of_true rfl ⟨hversion, ⟨b, hb, fun h => hne (decide_eq_true h)⟩, hcrc⟩
    · rw [if_pos hcrc]
      exact iff_of_false nofun fun h => hcrc h.2.2
  · rw [if_pos (by tauto)]
    exact iff_of_false nofun fun h => hversion h.1

/-- The checks pass for the bytes of an account or a contract, and no others. -/
theorem checkRaw_ok {raw : List UInt8} : checkRaw raw = .ok () ↔ Genuine raw := by
  constructor
  · intro h
    have hlength : raw.length = strkeyRawLen := by
      by_contra hne
      rw [checkRaw, if_pos hne] at h
      cases h
    obtain ⟨version, payload, low, high, rfl⟩ := exists_parts hlength
    obtain ⟨hversion, hzero, hcrc⟩ := (checkRaw_parts version payload low high).1 h
    exact ⟨version, payload, hversion, hzero, by rw [strkeyRaw, hcrc]⟩
  · rintro ⟨version, payload, hversion, hzero, rfl⟩
    exact (checkRaw_parts version payload _ _).2 ⟨hversion, hzero, rfl⟩

theorem validateStrkey_ok {strkey : List UInt8} :
    validateStrkey strkey = .ok () ↔ strkey.length = strkeyLen ∧ ∃ raw, Spells raw strkey ∧ Genuine raw := by
  unfold validateStrkey
  split_ifs with hlength
  · exact iff_of_false nofun fun h => hlength h.1
  · rw [except_bind_ok]
    constructor
    · rintro ⟨raw, hdecode, hcheck⟩
      exact ⟨not_not.1 hlength, raw, decode_spells (not_not.1 hlength) hdecode, checkRaw_ok.1 hcheck⟩
    · rintro ⟨-, raw, hspells, hgenuine⟩
      exact ⟨raw, hspells.decode (not_not.1 hlength), checkRaw_ok.2 hgenuine⟩

theorem readLetter_error {st : Decoding} {c : UInt8} {e : ContractError} (h : readLetter st c = .error e) :
    e = .invalidRecipientAddress := by
  unfold readLetter at h
  split at h
  · cases h
  · cases h
    rfl

theorem foldlM_error {strkey : List UInt8} {st : Decoding} {e : ContractError}
    (h : strkey.foldlM readLetter st = .error e) : e = .invalidRecipientAddress := by
  induction strkey generalizing st with
  | nil => cases h
  | cons c strkey ih =>
      rw [List.foldlM_cons] at h
      cases hread : readLetter st c with
      | error e' =>
          rw [hread] at h
          cases h
          exact readLetter_error hread
      | ok u =>
          rw [hread] at h
          exact ih h

theorem checkRaw_error {raw : List UInt8} {e : ContractError} (h : checkRaw raw = .error e) :
    e = .invalidRecipientAddress := by
  unfold checkRaw at h
  split_ifs at h
  all_goals
    cases h
    rfl

/-- There is one way to be refused. -/
theorem validateStrkey_error {strkey : List UInt8} (h : validateStrkey strkey ≠ .ok ()) :
    validateStrkey strkey = .error .invalidRecipientAddress := by
  cases hrun : validateStrkey strkey with
  | ok u => exact absurd hrun h
  | error e =>
      unfold validateStrkey decode at hrun
      split_ifs at hrun
      · exact hrun.symm
      · cases hletters : strkey.foldlM readLetter ⟨[], 0, 0⟩ with
        | error e' =>
            rw [hletters] at hrun
            cases hrun
            rw [foldlM_error hletters]
        | ok st =>
            rw [hletters] at hrun
            rw [checkRaw_error hrun]

/-! ## A wrong letter -/

theorem toLeBytes_injective {x y : UInt16} (h : toLeBytes x = toLeBytes y) : x = y := by
  have hx : x = fromLeBytes x.toUInt8 (x >>> 8).toUInt8 := eq_fromLeBytes.2 rfl
  rw [hx]
  exact (eq_fromLeBytes.2 (h ▸ rfl)).symm

theorem toBitVec_map_injective {xs ys : List UInt8} (h : xs.map UInt8.toBitVec = ys.map UInt8.toBitVec) : xs = ys :=
  List.map_injective_iff.2 (fun _ _ => UInt8.toBitVec_inj.1) h

theorem Genuine.split {raw : List UInt8} (h : Genuine raw) :
    ∃ data, data.length = 33 ∧ raw = data ++ toLeBytes (crc16Xmodem data) := by
  obtain ⟨version, payload, -, -, rfl⟩ := h
  exact ⟨version :: payload.1, by rw [List.length_cons, payload.2], rfl⟩

/-- A change within two bytes before the checksum. -/
theorem genuine_within {data data' : List UInt8} {j : ℕ} (hdata : data.length = 33) (hdata' : data'.length = 33)
    (hj : j < 32) (htake : data.take j = data'.take j) (hdrop : data.drop (j + 2) = data'.drop (j + 2))
    (hcrc : crc16Xmodem data = crc16Xmodem data') : data = data' := by
  have hsum := congrArg UInt16.toBitVec hcrc
  rw [toBitVec_crc16Xmodem, toBitVec_crc16Xmodem] at hsum
  refine toBitVec_map_injective (Crc.checksum_window (j := j) _ (by decide) (by decide) ?_ ?_ ?_ ?_ hsum)
  · rw [List.length_map, List.length_map, hdata, hdata']
  · rw [List.length_map, hdata]
    omega
  · rw [← List.map_take, ← List.map_take, htake]
  · rw [← List.map_drop, ← List.map_drop, hdrop]

/-- The low bits of a byte show in the high byte of its checksum. -/
theorem low_bits_seen : ∀ n < 16, ((Crc.step 0x1021#16)^[8] (Crc.top 16 (BitVec.ofNat 8 n))) >>> 8 = 0#16 → n = 0 := by
  decide +kernel

theorem high_byte_eq {x y : UInt16} (h : (x >>> 8).toUInt8 = (y >>> 8).toUInt8) :
    (x.toBitVec ^^^ y.toBitVec) >>> 8 = 0#16 := by
  have hnat := congrArg UInt8.toNat h
  rw [high_toNat, high_toNat] at hnat
  have hshift : x.toBitVec >>> 8 = y.toBitVec >>> 8 := by
    refine BitVec.eq_of_toNat_eq ?_
    rw [BitVec.toNat_ushiftRight, BitVec.toNat_ushiftRight, Nat.shiftRight_eq_div_pow, Nat.shiftRight_eq_div_pow]
    exact hnat
  rw [BitVec.ushiftRight_xor_distrib, hshift, BitVec.xor_self]

/-- A change of the low bits before the checksum and of the low byte of the checksum itself. -/
theorem genuine_across {before : List UInt8} {a a' : UInt8} (hhigh : a.toNat / 16 = a'.toNat / 16)
    (hcrc : (crc16Xmodem (before ++ [a]) >>> 8).toUInt8 = (crc16Xmodem (before ++ [a']) >>> 8).toUInt8) : a = a' := by
  have hlast := high_byte_eq hcrc
  rw [toBitVec_crc16Xmodem, toBitVec_crc16Xmodem, List.map_append, List.map_append, List.map_singleton,
    List.map_singleton, Crc.checksum_last] at hlast
  have hsmall : (a ^^^ a').toNat < 16 := by
    have hnone : (a ^^^ a').toNat / 2 ^ 4 = 0 := by
      rw [UInt8.toNat_xor, Nat.xor_div_two_pow]
      exact (congrArg (· ^^^ a'.toNat / 16) hhigh).trans (Nat.xor_self _)
    omega
  have hbyte : a.toBitVec ^^^ a'.toBitVec = BitVec.ofNat 8 (a ^^^ a').toNat := by
    refine BitVec.eq_of_toNat_eq ?_
    rw [BitVec.toNat_ofNat, Nat.mod_eq_of_lt (a ^^^ a').toNat_lt]
    rfl
  rw [hbyte] at hlast
  exact UInt8.xor_eq_zero_iff.1 (UInt8.toNat_inj.1 (low_bits_seen _ hsmall hlast))

theorem Genuine.eq {raw raw' : List UInt8} {j : ℕ} (h : Genuine raw) (h' : Genuine raw')
    (htake : raw.take j = raw'.take j) (hdrop : raw.drop (j + 2) = raw'.drop (j + 2))
    (hhigh : j = 32 → (raw.getD 32 0).toNat / 16 = (raw'.getD 32 0).toNat / 16) : raw = raw' := by
  obtain ⟨data, hdata, rfl⟩ := h.split
  obtain ⟨data', hdata', rfl⟩ := h'.split
  suffices data = data' by rw [this]
  rcases Nat.lt_trichotomy j 32 with hlt | rfl | hgt
  · rw [List.take_append_of_le_length (by omega), List.take_append_of_le_length (by omega)] at htake
    rw [List.drop_append_of_le_length (by omega), List.drop_append_of_le_length (by omega)] at hdrop
    obtain ⟨hafter, hcrc⟩ := List.append_inj' hdrop rfl
    exact genuine_within hdata hdata' hlt htake hafter (toLeBytes_injective hcrc)
  · have hlast : ∀ xs : List UInt8, xs.length = 33 → xs = xs.take 32 ++ [xs.getD 32 0] := by
      intro xs hxs
      rw [List.getD_eq_getElem _ _ (by omega), List.take_append_getElem, List.take_of_length_le hxs.le]
    have hend : ∀ (xs : List UInt8) (crc : UInt16), xs.length = 33 →
        (xs ++ toLeBytes crc).drop (32 + 2) = [(crc >>> 8).toUInt8] := by
      intro xs crc hxs
      rw [List.drop_append, hxs, List.drop_of_length_le (by omega)]
      rfl
    have hbefore : data.take 32 = data'.take 32 := by
      rwa [List.take_append_of_le_length (by omega), List.take_append_of_le_length (by omega)] at htake
    have hcrc : (crc16Xmodem data >>> 8).toUInt8 = (crc16Xmodem data' >>> 8).toUInt8 := by
      rw [hend data _ hdata, hend data' _ hdata'] at hdrop
      exact (List.cons.inj hdrop).1
    have hbyte := hhigh rfl
    rw [List.getD_append _ _ _ _ (by omega), List.getD_append _ _ _ _ (by omega)] at hbyte
    rw [hlast data hdata, hlast data' hdata', hbefore] at hcrc ⊢
    rw [genuine_across hbyte hcrc]
  · have hall := congrArg (List.take 33) htake
    rwa [List.take_take, List.take_take, Nat.min_eq_left hgt, List.take_left' hdata, List.take_left' hdata'] at hall

/-- Bytes of accepted strings are the same if the strings differ in one letter at most. -/
theorem genuine_of_letters {raw raw' strkey strkey' : List UInt8} {i : ℕ} (h : Genuine raw) (h' : Genuine raw')
    (hspells : Spells raw strkey) (hspells' : Spells raw' strkey') (hlength : strkey.length = strkey'.length)
    (htake : strkey.take i = strkey'.take i) (hdrop : strkey.drop (i + 1) = strkey'.drop (i + 1)) : raw = raw' := by
  obtain ⟨ds, rfl, hcut⟩ := hspells
  obtain ⟨es, rfl, hcut'⟩ := hspells'
  have hds : ds.length = es.length := by rwa [List.length_map, List.length_map] at hlength
  have hbefore : ds.take i = es.take i := by
    rw [← List.map_take, ← List.map_take] at htake
    exact map_letter_injective (fun d hd => hcut.reads d (List.mem_of_mem_take hd))
      (fun e he => hcut'.reads e (List.mem_of_mem_take he)) htake
  have hafter : ds.drop (i + 1) = es.drop (i + 1) := by
    rw [← List.map_drop, ← List.map_drop] at hdrop
    exact map_letter_injective (fun d hd => hcut.reads d (List.mem_of_mem_drop hd))
      (fun e he => hcut'.reads e (List.mem_of_mem_drop he)) hdrop
  -- the letter's bits lie in the byte of its first bit and the one after that
  have hfirst : 8 * (5 * i / 8) ≤ 5 * i := Nat.mul_div_le _ _
  have hrest : 5 * i < 8 * (5 * i / 8) + 8 := by omega
  refine h.eq h' (j := 5 * i / 8) ?_ ?_ fun hj => ?_
  · have hbytes := Recut.take_eq (by decide) hcut hcut' hds hfirst hbefore
    rw [← List.map_take, ← List.map_take] at hbytes
    exact toNat_map_injective hbytes
  · have hbytes := Recut.drop_eq (j := 5 * i / 8 + 2) (by decide) hcut hcut' hds (by omega) hafter
    rw [← List.map_drop, ← List.map_drop] at hbytes
    exact toNat_map_injective hbytes
  · have hi : i = 52 := by omega
    subst hi
    have hbyte : ∀ {raw : List UInt8}, Genuine raw →
        (raw.map UInt8.toNat)[32]? = some (raw.getD 32 0).toNat := by
      rintro raw ⟨version, payload, -, -, rfl⟩
      have hlt : 32 < (strkeyRaw version payload).length := by
        rw [length_strkeyRaw]
        decide
      rw [List.getElem?_map, List.getElem?_eq_getElem hlt, List.getD_eq_getElem _ _ hlt]
      rfl
    have hbits := hcut.high_bits (j := 32) hcut' (by decide) hds (by decide) (by decide) hbefore (hbyte h)
      (hbyte h')
    have hwidth : 2 ^ (8 * (32 + 1) - 5 * 52) = 16 := by norm_num
    rwa [hwidth] at hbits

/-- A string of letters is accepted exactly if the encoder writes it for an account or a contract that
is not zero, the letters the encoder writes are decoded to what it read, and a string that differs from
an accepted one in one letter is refused. -/
theorem strkey_law :
    (∀ strkey, validateStrkey strkey = .ok () ↔
      ∃ (version : UInt8) (payload : Payload), (version = versionAccount ∨ version = versionContract) ∧
        (∃ b ∈ payload.1, b ≠ 0) ∧ strkey = encodeStrkey version payload) ∧
    (∀ (version : UInt8) (payload : Payload),
      (encodeStrkey version payload).length = strkeyLen ∧
        decode (encodeStrkey version payload) = .ok (strkeyRaw version payload)) ∧
    ∀ strkey, validateStrkey strkey = .ok () → ∀ i c, strkey.set i c ≠ strkey →
      validateStrkey (strkey.set i c) = .error .invalidRecipientAddress := by
  refine ⟨fun strkey => ?_, fun version payload => ?_, fun strkey hok i c hne => ?_⟩
  · rw [validateStrkey_ok]
    constructor
    · rintro ⟨-, raw, hspells, version, payload, hversion, hzero, rfl⟩
      exact ⟨version, payload, hversion, hzero, hspells.unique (encodeStrkey_spells version payload)⟩
    · rintro ⟨version, payload, hversion, hzero, rfl⟩
      exact ⟨length_encodeStrkey version payload, _, encodeStrkey_spells version payload, version, payload,
        hversion, hzero, rfl⟩
  · exact ⟨length_encodeStrkey version payload,
      (encodeStrkey_spells version payload).decode (length_encodeStrkey version payload)⟩
  · refine validateStrkey_error fun hchanged => hne ?_
    obtain ⟨-, raw, hspells, hgenuine⟩ := validateStrkey_ok.1 hok
    obtain ⟨-, raw', hspells', hgenuine'⟩ := validateStrkey_ok.1 hchanged
    obtain rfl := genuine_of_letters hgenuine' hgenuine hspells' hspells (List.length_set)
      (List.take_set_of_le le_rfl) (List.drop_set_of_lt (Nat.lt_succ_self i))
    exact hspells'.unique hspells

def samplePayload : Payload := ⟨List.replicate 31 0 ++ [1], by decide⟩

theorem strkey_sample :
    validateStrkey (encodeStrkey versionAccount samplePayload) = .ok () ∧
      validateStrkey ((encodeStrkey versionAccount samplePayload).set 20 'B'.toUInt8) =
        .error .invalidRecipientAddress := by
  have hok : validateStrkey (encodeStrkey versionAccount samplePayload) = .ok () :=
    (strkey_law.1 _).2 ⟨versionAccount, samplePayload, .inl rfl, ⟨1, by decide, by decide⟩, rfl⟩
  exact ⟨hok, strkey_law.2.2 _ hok 20 _ (by decide +kernel)⟩

end StellarSplit.Split.Strkey
