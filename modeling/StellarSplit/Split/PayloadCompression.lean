import StellarSplit.Lib.Call
import StellarSplit.Lib.RunLength

/-!
# Payload compression

A payload is packed into a buffer of the caller: an encoding byte, and then either the
bytes themselves or pairs of a run length and a byte. Runs are used where they are
accepted and shorter, or where nothing else is accepted.
-/

namespace StellarSplit.Split.PayloadCompression

open Exec RunLength

/-! ## The code -/

def encodingRaw : UInt8 := 0

def encodingRle : UInt8 := 1

def acceptRaw : UInt8 := 0b01

def acceptRle : UInt8 := 0b10

inductive CompressionError where
  | bufferTooSmall
  | invalidPayload
  | noAcceptableEncoding
deriving DecidableEq, Repr

/-- A call with the output buffer. -/
abbrev BufferM (α : Type) := Call (List UInt8) CompressionError α

/-- The length of the run at the front of `x :: rest`, at most 255. -/
def runLength (x : UInt8) (rest : List UInt8) : ℕ := extend 255 x 1 rest

def rleSize : List UInt8 → ℕ
  | [] => 0
  | x :: rest => 2 + rleSize (rest.drop (runLength x rest - 1))
termination_by input => input.length
decreasing_by
  rw [List.length_drop, List.length_cons]
  omega

def negotiate (accepted : UInt8) (input : List UInt8) : Except CompressionError UInt8 :=
  if accepted &&& acceptRle ≠ 0 ∧ rleSize input < input.length then .ok encodingRle
  else if accepted &&& acceptRaw ≠ 0 then .ok encodingRaw
  else if accepted &&& acceptRle ≠ 0 then .ok encodingRle
  else .error .noAcceptableEncoding

/-- `out[w..w + bytes.len()].copy_from_slice(bytes)` -/
def copyInto (w : ℕ) (bytes out : List UInt8) : List UInt8 :=
  out.take w ++ bytes ++ out.drop (w + bytes.length)

/-- The loop that writes the runs from `w` on. -/
def writeRuns : List UInt8 → ℕ → BufferM ℕ
  | [], w => pure w
  | x :: rest, w => do
      let run := runLength x rest
      modify fun out => (out.set w (UInt8.ofNat run)).set (w + 1) x
      writeRuns (rest.drop (run - 1)) (w + 2)
termination_by input => input.length
decreasing_by
  rw [List.length_drop, List.length_cons]
  omega

/-- What `compress` does once the encoding byte is written. -/
def writeBody (encoding : UInt8) (input : List UInt8) : BufferM ℕ := do
  let out ← get
  if encoding = encodingRaw then do
    require (1 + input.length ≤ out.length) .bufferTooSmall
    modify (copyInto 1 input)
    pure (1 + input.length)
  else do
    require (1 + rleSize input ≤ out.length) .bufferTooSmall
    writeRuns input 1

def compress (accepted : UInt8) (input : List UInt8) : BufferM ℕ := do
  let encoding ← ofResult (negotiate accepted input)
  let out ← get
  require (out ≠ []) .bufferTooSmall
  modify fun out => out.set 0 encoding
  writeBody encoding input

/-- The loop over the pairs of a run length and a byte. -/
def readPairs : List UInt8 → ℕ → BufferM ℕ
  | run :: value :: rest, w => do
      require (run ≠ 0) .invalidPayload
      let out ← get
      require (w + run.toNat ≤ out.length) .bufferTooSmall
      modify (copyInto w (List.replicate run.toNat value))
      readPairs rest (w + run.toNat)
  | _, w => pure w

def decompress : List UInt8 → BufferM ℕ
  | [] => throw .invalidPayload
  | encoding :: body =>
      if encoding = encodingRaw then do
        let out ← get
        require (body.length ≤ out.length) .bufferTooSmall
        modify (copyInto 0 body)
        pure body.length
      else if encoding = encodingRle then do
        require (body.length % 2 = 0) .invalidPayload
        readPairs body 0
      else throw .invalidPayload

/-! ## What the loops write -/

variable {accepted : UInt8} {input out room : List UInt8} {w : ℕ}

/-- The pairs for some runs. -/
def pairs (rs : List (ℕ × UInt8)) : List UInt8 := rs.flatMap fun r => [UInt8.ofNat r.1, r.2]

@[simp] theorem pairs_cons (r : ℕ × UInt8) (rs : List (ℕ × UInt8)) :
    pairs (r :: rs) = UInt8.ofNat r.1 :: r.2 :: pairs rs := rfl

theorem length_pairs (rs : List (ℕ × UInt8)) : (pairs rs).length = 2 * rs.length := by
  induction rs with
  | nil => rfl
  | cons r rs ih =>
      rw [pairs_cons, List.length_cons, List.length_cons, ih, List.length_cons]
      omega

/-- Counting the runs and cutting the input into them agree. -/
theorem rleSize_eq (input : List UInt8) : rleSize input = (pairs (runs 255 input)).length := by
  induction input using drop_induction with
  | nil => rw [rleSize, runs_nil]; rfl
  | cons x rest ih =>
      rw [rleSize, ih, runs_cons, pairs_cons, List.length_cons, List.length_cons, runLength]
      omega

theorem length_copyInto {bytes : List UInt8} (hw : w + bytes.length ≤ out.length) :
    (copyInto w bytes out).length = out.length := by
  unfold copyInto
  rw [List.length_append, List.length_append, List.length_take, List.length_drop]
  omega

/-- Bytes written after others. -/
theorem copyInto_append {v : ℕ} (bytes more : List UInt8) (hv : v = w + bytes.length) (hw : w ≤ out.length) :
    copyInto v more (copyInto w bytes out) = copyInto w (bytes ++ more) out := by
  subst hv
  have hlength : (out.take w ++ bytes).length = w + bytes.length := by
    rw [List.length_append, List.length_take, min_eq_left hw]
  unfold copyInto
  rw [List.take_left' hlength, List.drop_append, hlength, Nat.add_sub_cancel_left, List.drop_drop,
    List.drop_of_length_le (by omega), List.nil_append, List.length_append, Nat.add_assoc]
  simp only [List.append_assoc]

theorem set_eq_copyInto {a : UInt8} (hw : w < out.length) : out.set w a = copyInto w [a] out := by
  rw [List.set_eq_take_append_cons_drop, if_pos hw, copyInto, List.append_assoc]
  rfl

/-- Writing the two bytes of a pair. -/
theorem set_pair {a b : UInt8} (hw : w + 2 ≤ out.length) :
    (out.set w a).set (w + 1) b = copyInto w [a, b] out := by
  have hfirst : out.set w a = copyInto w [a] out := set_eq_copyInto (by omega)
  have hlength : (copyInto w [a] out).length = out.length := length_copyInto (by simp; omega)
  rw [hfirst, set_eq_copyInto (by omega)]
  exact copyInto_append [a] [b] rfl (by omega)

/-- The pairs are written where they fit. -/
theorem writeRuns_run (hw : w + rleSize input ≤ out.length) :
    writeRuns input w out = .ok (w + rleSize input, copyInto w (pairs (runs 255 input)) out) := by
  induction input using drop_induction generalizing w out with
  | nil =>
      rw [writeRuns, rleSize, runs_nil]
      simp [copyInto, pairs]
  | cons x rest ih =>
      rw [rleSize] at hw ⊢
      rw [writeRuns, runs_cons, pairs_cons]
      have hpair : (out.set w (UInt8.ofNat (runLength x rest))).set (w + 1) x =
          copyInto w [UInt8.ofNat (runLength x rest), x] out := set_pair (by omega)
      have hlength : (copyInto w [UInt8.ofNat (runLength x rest), x] out).length = out.length :=
        length_copyInto (by simp; omega)
      refine bind_ok.2 ⟨(), _, modify_ok.2 hpair, ?_⟩
      rw [ih _ (by omega), copyInto_append _ _ (by rfl) (by omega), Nat.add_assoc]
      rfl

theorem readPairs_run {rs : List (ℕ × UInt8)} (hrs : ∀ r ∈ rs, 1 ≤ r.1 ∧ r.1 ≤ 255)
    (hw : w + (expand rs).length ≤ room.length) :
    readPairs (pairs rs) w room = .ok (w + (expand rs).length, copyInto w (expand rs) room) := by
  induction rs generalizing w room with
  | nil =>
      simp [readPairs, pairs, expand, copyInto]
  | cons r rs ih =>
      obtain ⟨hr, hrest⟩ := List.forall_mem_cons.1 hrs
      have hlength : (List.replicate r.1 r.2).length = r.1 := List.length_replicate
      have hcons : expand (r :: rs) = List.replicate r.1 r.2 ++ expand rs := rfl
      have hnat : (UInt8.ofNat r.1).toNat = r.1 := UInt8.toNat_ofNat_of_lt' (hr.2.trans_lt (by decide))
      have hne : UInt8.ofNat r.1 ≠ 0 := by
        intro hzero
        rw [hzero] at hnat
        simp at hnat
        omega
      rw [hcons, List.length_append, hlength] at hw ⊢
      rw [pairs_cons, readPairs]
      refine bind_ok.2 ⟨(), room, require_ok.2 ⟨hne, rfl⟩, ?_⟩
      rw [get_bind, hnat]
      refine bind_ok.2 ⟨(), room, require_ok.2 ⟨by omega, rfl⟩, ?_⟩
      refine bind_ok.2 ⟨(), _, modify_ok.2 rfl, ?_⟩
      have hsame : (copyInto w (List.replicate r.1 r.2) room).length = room.length :=
        length_copyInto (by omega)
      rw [ih hrest (by omega), copyInto_append _ _ (by rw [hlength]) (by omega), Nat.add_assoc]

/-! ## Packing and unpacking -/

/-- The bytes after the encoding byte. -/
def bodyOf (encoding : UInt8) (input : List UInt8) : List UInt8 :=
  if encoding = encodingRaw then input else pairs (runs 255 input)

theorem writeBody_run (encoding : UInt8) :
    writeBody encoding input out =
      if 1 + (bodyOf encoding input).length ≤ out.length then
        .ok (1 + (bodyOf encoding input).length, copyInto 1 (bodyOf encoding input) out)
      else .error .bufferTooSmall := by
  unfold writeBody
  rw [bind_run (get_ok.2 ⟨rfl, rfl⟩)]
  by_cases hraw : encoding = encodingRaw
  · rw [if_pos hraw, bodyOf, if_pos hraw]
    split_ifs with hfits
    · rw [bind_run (require_run hfits _ _)]
      exact bind_ok.2 ⟨(), _, modify_ok.2 rfl, pure_ok.2 ⟨rfl, rfl⟩⟩
    · exact bind_trap (require_trap hfits _ _)
  · rw [if_neg hraw, bodyOf, if_neg hraw, ← rleSize_eq]
    split_ifs with hfits
    · rw [bind_run (require_run hfits _ _), writeRuns_run hfits]
    · exact bind_trap (require_trap hfits _ _)

theorem compress_run {encoding : UInt8} (h : negotiate accepted input = .ok encoding) :
    compress accepted input out =
      if 1 + (bodyOf encoding input).length ≤ out.length then
        .ok (1 + (bodyOf encoding input).length, copyInto 0 (encoding :: bodyOf encoding input) out)
      else .error .bufferTooSmall := by
  unfold compress
  have hchosen : (ofResult (negotiate accepted input) : BufferM UInt8) out = .ok (encoding, out) := by
    rw [h]
    rfl
  rw [bind_run hchosen, bind_run (get_ok.2 ⟨rfl, rfl⟩)]
  by_cases hempty : out = []
  · subst hempty
    rw [bind_trap (require_trap (by simp) _ _), if_neg (by simp)]
  · have hpos : 0 < out.length := List.length_pos_iff.2 hempty
    have hset : out.set 0 encoding = copyInto 0 [encoding] out := set_eq_copyInto hpos
    have hlength : (copyInto 0 [encoding] out).length = out.length := length_copyInto (by simpa using Nat.succ_le_of_lt hpos)
    rw [bind_run (require_run hempty _ _), bind_run (a := ()) (modify_ok.2 rfl), hset, writeBody_run, hlength,
      copyInto_append [encoding] _ (by rfl) (Nat.zero_le _)]
    rfl

theorem decompress_run {encoding : UInt8} (h : encoding = encodingRaw ∨ encoding = encodingRle)
    (hroom : input.length ≤ room.length) :
    decompress (encoding :: bodyOf encoding input) room = .ok (input.length, copyInto 0 input room) := by
  rw [decompress]
  rcases h with rfl | rfl
  · rw [if_pos rfl, bodyOf, if_pos rfl, bind_run (get_ok.2 ⟨rfl, rfl⟩), bind_run (require_run hroom _ _)]
    exact bind_ok.2 ⟨(), _, modify_ok.2 rfl, pure_ok.2 ⟨rfl, rfl⟩⟩
  · have heven : (pairs (runs 255 input)).length % 2 = 0 := by rw [length_pairs]; omega
    rw [if_neg (by decide), if_pos rfl, bodyOf, if_neg (by decide), bind_run (require_run heven _ _),
      readPairs_run (length_runs_bounds (by norm_num) input) (by rwa [expand_runs, Nat.zero_add]),
      expand_runs, Nat.zero_add]

/-! ## The round trip -/

/-- Packing takes `n` bytes: it goes through exactly where there is room for them, touches nothing
behind them, and what it writes unpacks to the payload. -/
structure RoundTrips (accepted : UInt8) (input : List UInt8) (n : ℕ) : Prop where
  packs : ∀ out, n ≤ out.length → ∃ packed, compress accepted input out = .ok (n, packed) ∧
    packed.length = out.length ∧ packed.drop n = out.drop n ∧
    ∀ room, input.length ≤ room.length → ∃ restored,
      decompress (packed.take n) room = .ok (input.length, restored) ∧ restored.take input.length = input
  lacksRoom : ∀ out, compress accepted input out = .error .bufferTooSmall ↔ out.length < n
  size : accepted &&& acceptRaw ≠ 0 → accepted &&& acceptRle ≠ 0 → n = 1 + min (rleSize input) input.length

theorem negotiate_accepts (input : List UInt8)
    (h : accepted &&& acceptRaw ≠ 0 ∨ accepted &&& acceptRle ≠ 0) :
    ∃ encoding, negotiate accepted input = .ok encoding ∧ (encoding = encodingRaw ∨ encoding = encodingRle) := by
  unfold negotiate
  split_ifs with hshorter hraw hrle
  · exact ⟨_, rfl, .inr rfl⟩
  · exact ⟨_, rfl, .inl rfl⟩
  · exact ⟨_, rfl, .inr rfl⟩
  · exact absurd h (not_or.2 ⟨hraw, hrle⟩)

/-- With both encodings to choose from the shorter one is taken. -/
theorem length_bodyOf_negotiated {encoding : UInt8} (hraw : accepted &&& acceptRaw ≠ 0)
    (hrle : accepted &&& acceptRle ≠ 0) (h : negotiate accepted input = .ok encoding) :
    (bodyOf encoding input).length = min (rleSize input) input.length := by
  unfold negotiate at h
  split_ifs at h with hshorter
  · obtain rfl := Except.ok.inj h
    rw [bodyOf, if_neg (by decide), ← rleSize_eq, min_eq_left hshorter.2.le]
  · obtain rfl := Except.ok.inj h
    have hlonger : input.length ≤ rleSize input := not_lt.1 fun hlt => hshorter ⟨hrle, hlt⟩
    rw [bodyOf, if_pos rfl, min_eq_right hlonger]

theorem compress_round_trips (input : List UInt8)
    (h : accepted &&& acceptRaw ≠ 0 ∨ accepted &&& acceptRle ≠ 0) : ∃ n, RoundTrips accepted input n := by
  obtain ⟨encoding, hchosen, hencoding⟩ := negotiate_accepts input h
  refine ⟨1 + (bodyOf encoding input).length, fun out hroom => ?_, fun out => ?_, fun hraw hrle => ?_⟩
  · have hlength : (encoding :: bodyOf encoding input).length = 1 + (bodyOf encoding input).length := by
      rw [List.length_cons, Nat.add_comm]
    refine ⟨copyInto 0 (encoding :: bodyOf encoding input) out, ?_, ?_, ?_, fun room hspace => ?_⟩
    · rw [compress_run hchosen, if_pos hroom]
    · exact length_copyInto (by rwa [Nat.zero_add, hlength])
    · unfold copyInto
      rw [List.take_zero, List.nil_append, List.drop_left' hlength, Nat.zero_add, hlength]
    · have hpacked : (copyInto 0 (encoding :: bodyOf encoding input) out).take
          (1 + (bodyOf encoding input).length) = encoding :: bodyOf encoding input := by
        unfold copyInto
        rw [List.take_zero, List.nil_append, List.take_left' hlength]
      refine ⟨copyInto 0 input room, ?_, ?_⟩
      · rw [hpacked, decompress_run hencoding hspace]
      · unfold copyInto
        rw [List.take_zero, List.nil_append, List.take_left]
  · rw [compress_run hchosen]
    split_ifs with hroom
    · exact ⟨nofun, fun hlt => absurd hroom (not_le.2 hlt)⟩
    · exact ⟨fun _ => not_le.1 hroom, fun _ => rfl⟩
  · rw [length_bodyOf_negotiated hraw hrle hchosen]

theorem compress_round_trips_sample : ∃ n, RoundTrips (acceptRaw ||| acceptRle) [7, 7, 7, 7, 9] n :=
  compress_round_trips [7, 7, 7, 7, 9] (.inl (by decide))

end StellarSplit.Split.PayloadCompression
