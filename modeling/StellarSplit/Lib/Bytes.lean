import StellarSplit.Lib.Machine

/-!
# Big-endian bytes

The bytes of a word, the most significant first, and the word read back from
them. A signed word is written as its two's complement.
-/

namespace Machine

/-- The last `n` bytes of a number. -/
def bytesBE : ℕ → ℕ → List UInt8
  | 0, _ => []
  | n + 1, x => bytesBE n (x / 256) ++ [UInt8.ofNat x]

def ofBytesBE (bytes : List UInt8) : ℕ := bytes.foldl (fun x b => x * 256 + b.toNat) 0

@[simp] theorem length_bytesBE (n x : ℕ) : (bytesBE n x).length = n := by
  induction n generalizing x with
  | zero => rfl
  | succ n ih => simp [bytesBE, ih]

theorem ofBytesBE_bytesBE (n x : ℕ) : ofBytesBE (bytesBE n x) = x % 256 ^ n := by
  induction n generalizing x with
  | zero => simp [bytesBE, ofBytesBE, Nat.mod_one]
  | succ n ih =>
      have hlast : ofBytesBE (bytesBE (n + 1) x) = ofBytesBE (bytesBE n (x / 256)) * 256 + x % 256 := by
        simp [bytesBE, ofBytesBE, List.foldl_append]
      rw [hlast, ih, pow_succ', Nat.mod_mul]
      ring

/-! ## Words as subtypes -/

/-- A signed word of 128 bits. -/
abbrev I128 := { a : ℤ // InI128 a }

/-- An unsigned word of 64 bits. -/
abbrev U64 := { n : ℕ // n ≤ u64Max }

/-- A digest, or another word of 32 bytes. -/
abbrev Bytes32 := { bytes : List UInt8 // bytes.length = 32 }

theorem inI128_asI128 {n : ℕ} (h : n < 2 ^ 128) : InI128 (asI128 n) := by
  unfold InI128 asI128 i128Min i128Max
  split <;> omega

theorem asI128_asU128 {a : ℤ} (h : InI128 a) : asI128 (asU128 a) = a := by
  obtain ⟨hmin, hmax⟩ := h
  unfold i128Min at hmin
  unfold i128Max at hmax
  unfold asI128 asU128
  split <;> omega

def I128.toBytes (a : I128) : List UInt8 := bytesBE 16 (asU128 a.1)

def I128.ofBytes (bytes : List UInt8) : I128 :=
  ⟨asI128 (ofBytesBE bytes % 2 ^ 128), inI128_asI128 (Nat.mod_lt _ (by norm_num))⟩

def U64.toBytes (n : U64) : List UInt8 := bytesBE 8 n.1

def U64.ofBytes (bytes : List UInt8) : U64 :=
  ⟨ofBytesBE bytes % 2 ^ 64, Nat.le_of_lt_succ (Nat.mod_lt _ (by norm_num))⟩

@[simp] theorem I128.length_toBytes (a : I128) : (toBytes a).length = 16 := length_bytesBE _ _

@[simp] theorem U64.length_toBytes (n : U64) : (toBytes n).length = 8 := length_bytesBE _ _

@[simp] theorem I128.ofBytes_toBytes (a : I128) : ofBytes (toBytes a) = a := by
  apply Subtype.ext
  have hlt : asU128 a.1 < 2 ^ 128 := by
    unfold asU128
    omega
  have hpow : (256 : ℕ) ^ 16 = 2 ^ 128 := by norm_num
  unfold ofBytes toBytes
  dsimp only
  rw [ofBytesBE_bytesBE, hpow, Nat.mod_mod, Nat.mod_eq_of_lt hlt, asI128_asU128 a.2]

@[simp] theorem U64.ofBytes_toBytes (n : U64) : ofBytes (toBytes n) = n := by
  apply Subtype.ext
  have hlt : n.1 < 2 ^ 64 := Nat.lt_succ_of_le n.2
  have hpow : (256 : ℕ) ^ 8 = 2 ^ 64 := by norm_num
  unfold ofBytes toBytes
  dsimp only
  rw [ofBytesBE_bytesBE, hpow, Nat.mod_mod, Nat.mod_eq_of_lt hlt]

end Machine
