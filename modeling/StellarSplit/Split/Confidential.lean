import StellarSplit.Lib.Bytes
import StellarSplit.Lib.Commitment
import StellarSplit.Lib.HashChain
import StellarSplit.Split.Lock
import StellarSplit.Split.Payment
import Mathlib.Algebra.Field.ZMod

/-!
# Confidential payments

Payments are recorded as commitments to their amounts, with a proof that the payer can open them.
The contract keeps the sum of the commitments of an invoice, so that its creator can show the
total without the amounts, and a chain of digests over everything that was recorded.
-/

namespace StellarSplit.Split.Confidential

open Commitment Exec Function Machine

/-! ## The code -/

/-- A point of the curve as it is stored. -/
abbrev Point := { bytes : List UInt8 // bytes.length = 96 }

/-- What the host computes: points of the group and their bytes, digests, scalars and the bytes of an address.
`g` and `h` are the generators pinned when the contract is initialised. -/
structure Crypto (F G : Type) [Field F] [AddCommGroup G] [Module F G] where
  g : G
  h : G
  decode : Point → Option G
  encode : G → Point
  decode_encode : ∀ p, decode (encode p) = some p
  encode_decode : ∀ bytes p, decode bytes = some p → encode p = bytes
  sha256 : List UInt8 → Bytes32
  scalar : Bytes32 → F
  xdr : Address → List UInt8
  xdr_injective : Function.Injective xdr

def maxConfidentialPayers : ℕ := 100

def maxConfidentialAuditEntries : ℕ := 500

def maxEncryptedAmountLen : ℕ := 512

def maxAuditPage : ℕ := 50

/-- Domain separator of the challenge. -/
def pokDomain : List UInt8 := "StellarSplit-ConfTrack-PoK-v1".toUTF8.toList

structure ConfidentialProof where
  nonceCommitment : Point
  responseValue : Bytes32
  responseBlinding : Bytes32
deriving DecidableEq

structure ConfidentialRecord where
  invoiceId : ℕ
  payer : Address
  commitment : Point
  proof : ConfidentialProof
  encryptedAmount : List UInt8
  ciphertextHash : Bytes32
  recordedAt : ℕ
  revision : ℕ
deriving DecidableEq

inductive ConfidentialAuditAction where
  | recorded | replaced | totalVerified
deriving DecidableEq, Repr

/-- `action as u32`. -/
def ConfidentialAuditAction.disc : ConfidentialAuditAction → ℕ
  | recorded => 0
  | replaced => 1
  | totalVerified => 2

structure ConfidentialAuditEntry where
  seq : ℕ
  action : ConfidentialAuditAction
  actor : Address
  subject : Bytes32
  timestamp : U64
  prevHash : Bytes32
  entryHash : Bytes32
deriving DecidableEq

structure ConfidentialSummary where
  invoiceId : ℕ
  paymentCount : ℕ
  aggregateCommitment : Option Point
  verifiedTotal : Option ℤ
  auditLength : ℕ
  auditHead : Bytes32
deriving DecidableEq

/-- The storage of the confidential payments. -/
structure TrackStore where
  record : ℕ → Address → Option ConfidentialRecord := fun _ _ => none
  payers : ℕ → Option (List Address) := fun _ => none
  aggregate : ℕ → Option Point := fun _ => none
  verifiedTotal : ℕ → Option ℤ := fun _ => none
  auditEntry : ℕ → ℕ → Option ConfidentialAuditEntry := fun _ _ => none
  auditHead : ℕ → Option (ℕ × Bytes32) := fun _ => none

/-- The invoices as they are at the time of the call. -/
structure TrackEnv extends Env where
  invoice : ℕ → Option Invoice
  now_le : now ≤ u64Max

def TrackEnv.timestamp (env : TrackEnv) : U64 := ⟨env.now, env.now_le⟩

abbrev TrackM (α : Type) := Call TrackStore SplitFault α

def zeroHash : Bytes32 := ⟨List.replicate 32 0, List.length_replicate⟩

/-- The guard reads the settings of the contract only. -/
def requireNotPaused (env : Env) : TrackM Unit := do
  require (env.config.schemaCurrent = true) (.panic "MigrationRequired")
  require (isPaused env = false ∧ circuitBreakerBlocks env none = false)
    (.panic "contract is paused")

theorem requireNotPaused_bind {α : Type} {env : Env} {s : TrackStore} {r : α × TrackStore} {k : Unit → TrackM α} :
    (requireNotPaused env >>= k) s = .ok r ↔ Running env ∧ k () s = .ok r := by
  simp only [requireNotPaused, Running, bind_assoc, require_bind, and_assoc]

namespace TrackStore

def loadPayers (s : TrackStore) (id : ℕ) : List Address := (s.payers id).getD []

def loadAuditHead (s : TrackStore) (id : ℕ) : ℕ × Bytes32 := (s.auditHead id).getD (0, zeroHash)

end TrackStore

section Code

variable {F G : Type} [Field F] [AddCommGroup G] [Module F G] (C : Crypto F G)

def parsePoint (bytes : Point) : Except SplitFault G :=
  match C.decode bytes with
  | some p => .ok p
  | none => .error (.panic "invalid commitment point")

def digestPoint (point : Point) : Bytes32 := C.sha256 point.1

/-- The challenge, bound to the commitment, the nonce, the invoice and the payer. -/
def challenge (commitment nonce : Point) (id : ℕ) (payer : Address) : F :=
  C.scalar (C.sha256 (pokDomain ++ commitment.1 ++ nonce.1 ++ bytesBE 8 id ++ C.xdr payer))

def verifyOpeningProof (commitment : Point) (proof : ConfidentialProof) (id : ℕ) (payer : Address) :
    Except SplitFault Bool := do
  let c ← parsePoint C commitment
  let t ← parsePoint C proof.nonceCommitment
  let e := challenge C commitment proof.nonceCommitment id payer
  let lhs := C.scalar proof.responseValue • C.g + C.scalar proof.responseBlinding • C.h
  pure (C.encode lhs = C.encode (t + e • c))

/-- `v·G + r·H` for an amount that is not negative. -/
def commitTo (value : ℤ) (blinding : Bytes32) : Except SplitFault Point :=
  if 0 ≤ value then .ok (C.encode (commit C.g C.h (value.toNat : F) (C.scalar blinding)))
  else .error (.panic "amount must not be negative")

/-- The sum of two stored points. -/
def addPoints (a b : Point) : Except SplitFault Point := do
  let p ← parsePoint C a
  let q ← parsePoint C b
  pure (C.encode (p + q))

def negPoint (a : Point) : Except SplitFault Point := do
  let p ← parsePoint C a
  pure (C.encode (-p))

/-- The aggregate with one more commitment. -/
def withCommitment (aggregate : Option Point) (commitment : Point) : Except SplitFault Point :=
  match aggregate with
  | some bytes => addPoints C bytes commitment
  | none => .ok commitment

/-- The aggregate without the commitment of a record. -/
def withoutRecord (aggregate : Point) (previous : Option ConfidentialRecord) : Except SplitFault Point :=
  match previous with
  | some prev => do
      let old ← negPoint C prev.commitment
      addPoints C aggregate old
  | none => .ok aggregate

def nextAggregate (aggregate : Option Point) (previous : Option ConfidentialRecord) (commitment : Point) :
    Except SplitFault Point := do
  let next ← withCommitment C aggregate commitment
  withoutRecord C next previous

def auditEntryHash (prevHash : Bytes32) (seq : ℕ) (action : ConfidentialAuditAction) (actor : Address)
    (subject : Bytes32) (timestamp : U64) : Bytes32 :=
  C.sha256 (prevHash.1 ++ bytesBE 4 seq ++ bytesBE 4 action.disc ++ C.xdr actor ++ subject.1 ++ timestamp.toBytes)

def appendAudit (env : TrackEnv) (id : ℕ) (action : ConfidentialAuditAction) (actor : Address) (subject : Bytes32) :
    TrackM Unit := do
  let s ← get
  let len := (s.loadAuditHead id).1
  let prevHash := (s.loadAuditHead id).2
  require (len < maxConfidentialAuditEntries) (.panic "confidential audit trail is full")
  let entryHash := auditEntryHash C prevHash len action actor subject env.timestamp
  let entry : ConfidentialAuditEntry :=
    { seq := len
      action, actor, subject
      timestamp := env.timestamp
      prevHash, entryHash }
  set { s with
    auditEntry := update s.auditEntry id (update (s.auditEntry id) len (some entry))
    auditHead := update s.auditHead id (some (len + 1, entryHash)) }

def enlist (id : ℕ) (payer : Address) : TrackM Unit := do
  let s ← get
  require ((s.loadPayers id).length < maxConfidentialPayers) (.panic "too many confidential payers")
  set { s with payers := update s.payers id (some (s.loadPayers id ++ [payer])) }

def recordConfidentialPayment (env : TrackEnv) (payer : Address) (id : ℕ) (commitment : Point)
    (proof : ConfidentialProof) (encryptedAmount : List UInt8) : TrackM ConfidentialRecord := do
  requireNotPaused env.toEnv
  requireAuth env.toLedger payer
  let invoice ← orPanic (env.invoice id) "invoice not found"
  require (invoice.status = .pending) (.panic "invoice is not pending")
  require (env.now ≤ invoice.deadline) (.panic "invoice deadline has passed")
  require (listed payer invoice.allowedPayers) (.panic "payer not allowed")
  require (encryptedAmount ≠ []) (.panic "encrypted amount must not be empty")
  require (encryptedAmount.length ≤ maxEncryptedAmountLen) (.panic "encrypted amount too large")
  let verifies ← ofResult (verifyOpeningProof C commitment proof id payer)
  require (verifies = true) (.panic "invalid confidential payment proof")
  let s ← get
  let previous := s.record id payer
  let aggregate ← ofResult (nextAggregate C (s.aggregate id) previous commitment)
  onlyIf (previous.isNone = true) (enlist id payer)
  require (previous.all fun p => p.revision + 1 ≤ u32Max) .overflow
  let record : ConfidentialRecord :=
    { invoiceId := id
      payer, commitment, proof, encryptedAmount
      ciphertextHash := C.sha256 encryptedAmount
      recordedAt := env.now
      revision := (previous.map fun p => p.revision + 1).getD 1 }
  modify fun s =>
    { s with
      aggregate := update s.aggregate id (some aggregate)
      verifiedTotal := update s.verifiedTotal id none
      record := update s.record id (update (s.record id) payer (some record)) }
  let action := if previous.isSome then .replaced else .recorded
  appendAudit C env id action payer (digestPoint C commitment)
  pure record

def verifyConfidentialTotal (env : TrackEnv) (caller : Address) (id : ℕ) (total : ℤ) (blinding : Bytes32) :
    TrackM Bool := do
  requireNotPaused env.toEnv
  requireAuth env.toLedger caller
  let invoice ← orPanic (env.invoice id) "invoice not found"
  require (invoice.creator = caller ∨ caller ∈ invoice.coCreators)
    (.panic "NotAuthorized: only creator or co-creator may verify")
  require (0 < total) (.panic "total must be positive")
  let s ← get
  let aggregate ← orPanic (s.aggregate id) "no confidential payments recorded"
  let commitment ← ofResult (commitTo C total blinding)
  if commitment ≠ aggregate then pure false
  else do
    modify fun s => { s with verifiedTotal := update s.verifiedTotal id (some total) }
    appendAudit C env id .totalVerified caller (digestPoint C aggregate)
    pure true

def verifyConfidentialRecord (s : TrackStore) (id : ℕ) (payer : Address) : Except SplitFault Bool :=
  match s.record id payer with
  | none => .error (.panic "no confidential record")
  | some record => do
      let verifies ← verifyOpeningProof C record.commitment record.proof id payer
      pure (verifies && decide (C.sha256 record.encryptedAmount = record.ciphertextHash))

def verifyConfidentialOpening (s : TrackStore) (id : ℕ) (payer : Address) (value : ℤ) (blinding : Bytes32) :
    Except SplitFault Bool :=
  match s.record id payer with
  | none => .error (.panic "no confidential record")
  | some record => do
      let commitment ← commitTo C value blinding
      pure (commitment = record.commitment)

def getConfidentialSummary (s : TrackStore) (id : ℕ) : ConfidentialSummary :=
  { invoiceId := id
    paymentCount := (s.loadPayers id).length
    aggregateCommitment := s.aggregate id
    verifiedTotal := s.verifiedTotal id
    auditLength := (s.loadAuditHead id).1
    auditHead := (s.loadAuditHead id).2 }

def getConfidentialAuditTrail (s : TrackStore) (id start limit : ℕ) : List ConfidentialAuditEntry :=
  let stop := min (min (start + min limit maxAuditPage) u32Max) (s.loadAuditHead id).1
  (List.range' start (stop - start)).filterMap (s.auditEntry id)

/-- The loop of the chain check from the entry `seq` on. -/
def checkChain (entries : ℕ → Option ConfidentialAuditEntry) : ℕ → ℕ → Bytes32 → Option Bytes32
  | 0, _, prevHash => some prevHash
  | left + 1, seq, prevHash =>
      match entries seq with
      | none => none
      | some entry =>
          if entry.seq ≠ seq ∨ entry.prevHash ≠ prevHash then none
          else
            let expected := auditEntryHash C prevHash seq entry.action entry.actor entry.subject entry.timestamp
            if expected ≠ entry.entryHash then none else checkChain entries left (seq + 1) expected

def verifyConfidentialAuditChain (s : TrackStore) (id : ℕ) : Bool :=
  checkChain C (s.auditEntry id) (s.loadAuditHead id).1 0 zeroHash = some (s.loadAuditHead id).2

/-! ## Proofs and points -/

variable {C} {s t : TrackStore} {env : TrackEnv} {id : ℕ} {payer : Address} {commitment : Point}
  {proof : ConfidentialProof} {r : ConfidentialRecord} {shown : Option (ℤ × Bytes32)}

theorem encode_injective : Function.Injective C.encode := by
  intro p q h
  have hdecode := congrArg C.decode h
  rwa [C.decode_encode, C.decode_encode, Option.some.injEq] at hdecode

theorem parsePoint_ok {bytes : Point} {p : G} : parsePoint C bytes = .ok p ↔ C.decode bytes = some p := by
  unfold parsePoint
  cases C.decode bytes <;> simp

/-- A proof that verifies: the responses answer the challenge. -/
theorem verifyOpeningProof_ok :
    verifyOpeningProof C commitment proof id payer = .ok true ↔
      ∃ c t, C.decode commitment = some c ∧ C.decode proof.nonceCommitment = some t ∧
        Accepts C.g C.h c t (challenge C commitment proof.nonceCommitment id payer) (C.scalar proof.responseValue)
          (C.scalar proof.responseBlinding) := by
  simp only [verifyOpeningProof, except_bind_ok, parsePoint_ok]
  constructor
  · rintro ⟨c, hc, t, ht, h⟩
    have hsame := of_decide_eq_true (Except.ok.inj h)
    exact ⟨c, t, hc, ht, encode_injective hsame⟩
  · rintro ⟨c, t, hc, ht, haccepts⟩
    exact ⟨c, hc, t, ht, congrArg Except.ok (decide_eq_true (congrArg C.encode haccepts))⟩

/-- The responses of a payer who knows an opening are accepted. -/
theorem verifies_commit {v r a b : F} {x y : Bytes32}
    (hx : C.scalar x = a + challenge C (C.encode (commit C.g C.h v r)) (C.encode (commit C.g C.h a b)) id payer * v)
    (hy : C.scalar y = b + challenge C (C.encode (commit C.g C.h v r)) (C.encode (commit C.g C.h a b)) id payer * r) :
    verifyOpeningProof C (C.encode (commit C.g C.h v r)) ⟨C.encode (commit C.g C.h a b), x, y⟩ id payer = .ok true := by
  apply verifyOpeningProof_ok.2
  refine ⟨_, _, C.decode_encode _, C.decode_encode _, ?_⟩
  rw [hx, hy]
  exact accepts_commit v r a b _

/-- The point of stored bytes. -/
def pointOf (C : Crypto F G) (bytes : Point) : G := (C.decode bytes).getD 0

theorem pointOf_eq {bytes : Point} {p : G} (h : C.decode bytes = some p) : pointOf C bytes = p := by
  rw [pointOf, h, Option.getD_some]

theorem addPoints_ok {a b c : Point} (h : addPoints C a b = .ok c) : C.decode c = some (pointOf C a + pointOf C b) := by
  simp only [addPoints, except_bind_ok, parsePoint_ok] at h
  obtain ⟨p, hp, q, hq, h⟩ := h
  obtain rfl := Except.ok.inj h
  rw [C.decode_encode, pointOf, pointOf, hp, hq]
  rfl

theorem negPoint_ok {a c : Point} (h : negPoint C a = .ok c) : C.decode c = some (-pointOf C a) := by
  simp only [negPoint, except_bind_ok, parsePoint_ok] at h
  obtain ⟨p, hp, h⟩ := h
  obtain rfl := Except.ok.inj h
  rw [C.decode_encode, pointOf, hp]
  rfl

theorem nextAggregate_ok {aggregate : Option Point} {previous : Option ConfidentialRecord} {next : Point} {p : G}
    (hp : C.decode commitment = some p) (h : nextAggregate C aggregate previous commitment = .ok next) :
    C.decode next = some ((aggregate.map (pointOf C)).getD 0 + p -
      (previous.map fun prev => pointOf C prev.commitment).getD 0) := by
  obtain ⟨sum, hsum, h⟩ := except_bind_ok.1 h
  have hwith : C.decode sum = some ((aggregate.map (pointOf C)).getD 0 + p) := by
    cases aggregate with
    | none =>
        obtain rfl := Except.ok.inj hsum
        rw [hp, Option.map_none, Option.getD_none, zero_add]
    | some bytes =>
        rw [addPoints_ok hsum, pointOf_eq hp]
        rfl
  cases previous with
  | none =>
      obtain rfl := Except.ok.inj h
      rw [hwith, Option.map_none, Option.getD_none, sub_zero]
  | some prev =>
      obtain ⟨old, hold, h⟩ := except_bind_ok.1 h
      rw [addPoints_ok h, pointOf_eq hwith, pointOf_eq (negPoint_ok hold), ← sub_eq_add_neg]
      rfl

/-! ## What a call does -/

/-- The store with a record of a payer, and the aggregate that goes with it. -/
def enter (s : TrackStore) (id : ℕ) (payer : Address) (record : ConfidentialRecord) (aggregate : Point) : TrackStore :=
  { s with
    payers := if (s.record id payer).isNone then update s.payers id (some (s.loadPayers id ++ [payer])) else s.payers
    aggregate := update s.aggregate id (some aggregate)
    verifiedTotal := update s.verifiedTotal id none
    record := update s.record id (update (s.record id) payer (some record)) }

/-- The store with one more audit entry. -/
def note (C : Crypto F G) (s : TrackStore) (id : ℕ) (action : ConfidentialAuditAction) (actor : Address) (subject : Bytes32)
    (timestamp : U64) : TrackStore :=
  let len := (s.loadAuditHead id).1
  let prevHash := (s.loadAuditHead id).2
  let entryHash := auditEntryHash C prevHash len action actor subject timestamp
  { s with
    auditEntry := update s.auditEntry id (update (s.auditEntry id) len
      (some ⟨len, action, actor, subject, timestamp, prevHash, entryHash⟩))
    auditHead := update s.auditHead id (some (len + 1, entryHash)) }

theorem appendAudit_ok {action : ConfidentialAuditAction} {actor : Address} {subject : Bytes32} {v : Unit} :
    appendAudit C env id action actor subject s = .ok (v, t) ↔
      (s.loadAuditHead id).1 < maxConfidentialAuditEntries ∧ note C s id action actor subject env.timestamp = t := by
  rw [appendAudit, get_bind, require_bind, set_ok]
  rfl

/-- What recording a payment checks, and what it leaves. -/
theorem record_ok {enc : List UInt8} (h : recordConfidentialPayment C env payer id commitment proof enc s = .ok (r, t)) :
    verifyOpeningProof C commitment proof id payer = .ok true ∧
      r = ⟨id, payer, commitment, proof, enc, C.sha256 enc, env.now,
        ((s.record id payer).map fun p => p.revision + 1).getD 1⟩ ∧
      (s.record id payer = none → (s.loadPayers id).length < maxConfidentialPayers) ∧
      (s.loadAuditHead id).1 < maxConfidentialAuditEntries ∧
      ∃ aggregate, nextAggregate C (s.aggregate id) (s.record id payer) commitment = .ok aggregate ∧
        note C (enter s id payer r aggregate) id (if (s.record id payer).isSome then .replaced else .recorded) payer
          (digestPoint C commitment) env.timestamp = t := by
  simp only [recordConfidentialPayment, requireNotPaused_bind, require_bind, requireAuth_bind,
    orPanic_bind, ofResult_bind, get_bind] at h
  obtain ⟨-, -, invoice, -, -, -, -, -, -, verifies, hverifies, rfl, aggregate, haggregate, h⟩ := h
  obtain ⟨_, u, henlist, h⟩ := bind_ok.1 h
  rw [require_bind] at h
  obtain ⟨-, h⟩ := h
  obtain ⟨_, w, henter, h⟩ := bind_ok.1 h
  obtain rfl := modify_ok.1 henter
  obtain ⟨_, x, haudit, h⟩ := bind_ok.1 h
  obtain ⟨rfl, rfl⟩ := pure_ok.1 h
  obtain ⟨hroom, rfl⟩ := appendAudit_ok.1 haudit
  cases hprevious : s.record id payer with
  | none =>
      rw [hprevious] at henlist haggregate hroom
      rcases onlyIf_ok.1 henlist with ⟨-, henlist⟩ | ⟨hsome, -⟩
      · rw [enlist, get_bind, require_bind, set_ok] at henlist
        obtain ⟨hfew, rfl⟩ := henlist
        refine ⟨hverifies, rfl, fun _ => hfew, hroom, aggregate, haggregate, ?_⟩
        rw [enter, hprevious]
        rfl
      · exact absurd rfl hsome
  | some prev =>
      rw [hprevious] at henlist haggregate hroom
      rcases onlyIf_ok.1 henlist with ⟨hnone, -⟩ | ⟨-, rfl⟩
      · cases hnone
      · refine ⟨hverifies, rfl, fun hnone => absurd hnone (by simp), hroom, aggregate, haggregate, ?_⟩
        rw [enter, hprevious]
        rfl

/-- What showing the total checks, and what it leaves. -/
theorem verifyTotal_ok {caller : Address} {total : ℤ} {blinding : Bytes32} {b : Bool}
    (h : verifyConfidentialTotal C env caller id total blinding s = .ok (b, t)) :
    ∃ aggregate, s.aggregate id = some aggregate ∧ 0 < total ∧ ∃ point, commitTo C total blinding = .ok point ∧
      ((b = false ∧ s = t ∧ point ≠ aggregate) ∨
        (b = true ∧ point = aggregate ∧ (s.loadAuditHead id).1 < maxConfidentialAuditEntries ∧
          note C { s with verifiedTotal := update s.verifiedTotal id (some total) } id .totalVerified caller
            (digestPoint C aggregate) env.timestamp = t)) := by
  simp only [verifyConfidentialTotal, requireNotPaused_bind, require_bind, requireAuth_bind,
    orPanic_bind, ofResult_bind, get_bind] at h
  obtain ⟨-, -, invoice, -, -, hpos, aggregate, haggregate, point, hpoint, h⟩ := h
  refine ⟨aggregate, haggregate, hpos, point, hpoint, ?_⟩
  split_ifs at h with hne
  · obtain ⟨rfl, rfl⟩ := pure_ok.1 h
    exact .inl ⟨rfl, rfl, hne⟩
  · obtain ⟨_, u, hset, h⟩ := bind_ok.1 h
    obtain rfl := modify_ok.1 hset
    obtain ⟨_, w, haudit, h⟩ := bind_ok.1 h
    obtain ⟨rfl, rfl⟩ := pure_ok.1 h
    obtain ⟨hroom, rfl⟩ := appendAudit_ok.1 haudit
    exact .inr ⟨rfl, not_not.1 hne, hroom, rfl⟩

/-! ## Runs -/

/-- What the audit trail says of a call. -/
structure Mark where
  action : ConfidentialAuditAction
  actor : Address
  subject : Bytes32
  timestamp : U64
deriving DecidableEq

/-- Calls that returned. With them goes what they did to each invoice, and the total with its blinding that
was shown for the invoice since its last record. -/
inductive Reaches (C : Crypto F G) : TrackStore → (ℕ → List Mark) → (ℕ → Option (ℤ × Bytes32)) → Prop
  | start : Reaches C {} (fun _ => []) fun _ => none
  | record {s t marks shown env payer id commitment proof enc r} (hs : Reaches C s marks shown)
      (hrun : recordConfidentialPayment C env payer id commitment proof enc s = .ok (r, t)) :
      Reaches C t (update marks id (marks id ++
        [⟨if (s.record id payer).isSome then .replaced else .recorded, payer, digestPoint C commitment, env.timestamp⟩]))
        (update shown id none)
  | total {s t marks shown env caller id total blinding} (hs : Reaches C s marks shown)
      (hrun : verifyConfidentialTotal C env caller id total blinding s = .ok (true, t)) :
      Reaches C t (update marks id (marks id ++
        [⟨.totalVerified, caller, ((s.aggregate id).map (digestPoint C)).getD zeroHash, env.timestamp⟩]))
        (update shown id (some (total, blinding)))
  | refused {s t marks shown env caller id total blinding} (hs : Reaches C s marks shown)
      (hrun : verifyConfidentialTotal C env caller id total blinding s = .ok (false, t)) : Reaches C t marks shown

/-! ## What is recorded -/

/-- A record that a payer of the invoice put there. -/
structure Proven (C : Crypto F G) (id : ℕ) (payer : Address) (r : ConfidentialRecord) : Prop where
  invoice : r.invoiceId = id
  owner : r.payer = payer
  verifies : verifyOpeningProof C r.commitment r.proof id payer = .ok true
  digest : C.sha256 r.encryptedAmount = r.ciphertextHash
  revised : 1 ≤ r.revision

/-- The point that a payer is committed to. -/
def owed (C : Crypto F G) (s : TrackStore) (id : ℕ) (payer : Address) : G :=
  ((s.record id payer).map fun r => pointOf C r.commitment).getD 0

/-- The records of an invoice. -/
structure Tracked (C : Crypto F G) (s : TrackStore) (id : ℕ) (shown : Option (ℤ × Bytes32)) : Prop where
  nodup : (s.loadPayers id).Nodup
  few : (s.loadPayers id).length ≤ maxConfidentialPayers
  mem : ∀ p, p ∈ s.loadPayers id ↔ (s.record id p).isSome
  proven : ∀ p r, s.record id p = some r → Proven C id p r
  empty : s.aggregate id = none → s.loadPayers id = []
  sum : ∀ b, s.aggregate id = some b → C.decode b = some ((s.loadPayers id).map (owed C s id)).sum
  total : s.verifiedTotal id = shown.map Prod.fst
  opened : ∀ v blinding, shown = some (v, blinding) → 0 < v ∧ ∃ b, s.aggregate id = some b ∧ commitTo C v blinding = .ok b

theorem sum_map_update {ps : List Address} (hnodup : ps.Nodup) {f : Address → G} {p : Address} (hp : p ∈ ps) (x : G) :
    (ps.map (update f p x)).sum = (ps.map f).sum + x - f p := by
  induction ps with
  | nil => cases hp
  | cons q ps ih =>
      obtain ⟨hq, hps⟩ := List.nodup_cons.1 hnodup
      rw [List.map_cons, List.sum_cons, List.map_cons, List.sum_cons]
      rcases List.mem_cons.1 hp with rfl | hp
      · have hrest : ps.map (update f p x) = ps.map f :=
          List.map_congr_left fun r hr => update_of_ne (fun hrp : r = p => hq (hrp ▸ hr)) _ _
        rw [update_self, hrest]
        abel
      · rw [update_of_ne (fun hqp : q = p => hq (hqp ▸ hp)), ih hps hp]
        abel

/-- The points owed after a record is entered. -/
theorem owed_enter {r : ConfidentialRecord} {aggregate : Point} :
    owed C (enter s id payer r aggregate) id = update (owed C s id) payer (pointOf C r.commitment) := by
  funext p
  by_cases hp : p = payer
  · subst hp
    simp [owed, enter]
  · simp [owed, enter, hp]

theorem loadPayers_enter {r : ConfidentialRecord} {aggregate : Point} :
    (enter s id payer r aggregate).loadPayers id =
      if (s.record id payer).isNone then s.loadPayers id ++ [payer] else s.loadPayers id := by
  unfold enter TrackStore.loadPayers
  dsimp only
  split_ifs
  · rw [update_self, Option.getD_some]
  · rfl

theorem record_enter {r : ConfidentialRecord} {aggregate : Point} :
    (enter s id payer r aggregate).record id = update (s.record id) payer (some r) := by
  unfold enter
  exact update_self ..

/-- A payer is listed with the first record. -/
theorem Tracked.payers_enter (h : Tracked C s id shown) (payer : Address) (r : ConfidentialRecord) (aggregate : Point) :
    (s.record id payer = none ∧ payer ∉ s.loadPayers id ∧
      (enter s id payer r aggregate).loadPayers id = s.loadPayers id ++ [payer]) ∨
    ∃ prev, s.record id payer = some prev ∧ payer ∈ s.loadPayers id ∧
      (enter s id payer r aggregate).loadPayers id = s.loadPayers id := by
  rw [loadPayers_enter, h.mem]
  cases s.record id payer with
  | none => exact .inl ⟨rfl, Bool.false_ne_true, rfl⟩
  | some prev => exact .inr ⟨prev, rfl, rfl, rfl⟩

/-- The sum of what is owed is the aggregate after a record is entered, too. -/
theorem Tracked.sum_enter (h : Tracked C s id shown) {aggregate : Point} {c : G} (hc : C.decode r.commitment = some c)
    (haggregate : nextAggregate C (s.aggregate id) (s.record id payer) r.commitment = .ok aggregate) :
    C.decode aggregate = some (((enter s id payer r aggregate).loadPayers id).map
      (owed C (enter s id payer r aggregate) id)).sum := by
  have hold : ((s.aggregate id).map (pointOf C)).getD 0 = ((s.loadPayers id).map (owed C s id)).sum := by
    cases hagg : s.aggregate id with
    | none => rw [h.empty hagg]; rfl
    | some b => exact pointOf_eq (h.sum b hagg)
  rw [nextAggregate_ok hc haggregate, hold, owed_enter, pointOf_eq hc]
  rcases h.payers_enter payer r aggregate with ⟨hprevious, hnew, hpayers⟩ | ⟨prev, hprevious, hmem, hpayers⟩
  · have hrest : (s.loadPayers id).map (update (owed C s id) payer c) = (s.loadPayers id).map (owed C s id) :=
      List.map_congr_left fun p hp => update_of_ne (fun hsame : p = payer => hnew (hsame ▸ hp)) _ _
    rw [hpayers, hprevious, List.map_append, List.sum_append, hrest, List.map_singleton, update_self,
      List.sum_singleton, Option.map_none, Option.getD_none, sub_zero]
  · have howed : owed C s id payer = pointOf C prev.commitment := by rw [owed, hprevious]; rfl
    rw [hpayers, hprevious, sum_map_update h.nodup hmem, howed, Option.map_some, Option.getD_some]

/-- Entering a record keeps the records of its invoice. -/
theorem Tracked.entered (h : Tracked C s id shown) {aggregate : Point} (hproven : Proven C id payer r)
    (haggregate : nextAggregate C (s.aggregate id) (s.record id payer) r.commitment = .ok aggregate)
    (hroom : s.record id payer = none → (s.loadPayers id).length < maxConfidentialPayers) :
    Tracked C (enter s id payer r aggregate) id none := by
  obtain ⟨c, nonce, hc, -, -⟩ := verifyOpeningProof_ok.1 hproven.verifies
  have hagg : (enter s id payer r aggregate).aggregate id = some aggregate := update_self ..
  have hother : ∀ p, p ≠ payer → (enter s id payer r aggregate).record id p = s.record id p := by
    intro p hp
    rw [record_enter, update_of_ne hp]
  have hself : (enter s id payer r aggregate).record id payer = some r := by
    rw [record_enter, update_self]
  constructor
  case nodup =>
    rcases h.payers_enter payer r aggregate with ⟨-, hnew, hpayers⟩ | ⟨prev, -, -, hpayers⟩
    · rw [hpayers, List.nodup_append]
      refine ⟨h.nodup, List.nodup_singleton _, fun p hp q hq hsame => ?_⟩
      rw [List.mem_singleton.1 hq] at hsame
      exact hnew (hsame ▸ hp)
    · rw [hpayers]
      exact h.nodup
  case few =>
    rcases h.payers_enter payer r aggregate with ⟨hprevious, -, hpayers⟩ | ⟨prev, -, -, hpayers⟩
    · rw [hpayers, List.length_append]
      exact hroom hprevious
    · rw [hpayers]
      exact h.few
  case mem =>
    intro p
    by_cases hp : p = payer
    · subst hp
      rw [hself]
      refine iff_of_true ?_ rfl
      rcases h.payers_enter p r aggregate with ⟨-, -, hpayers⟩ | ⟨prev, -, hmem, hpayers⟩
      · exact hpayers ▸ List.mem_append_right _ List.mem_cons_self
      · exact hpayers ▸ hmem
    · rw [hother p hp, ← h.mem]
      rcases h.payers_enter payer r aggregate with ⟨-, -, hpayers⟩ | ⟨prev, -, -, hpayers⟩
      · rw [hpayers, List.mem_append, List.mem_singleton, or_iff_left hp]
      · rw [hpayers]
  case proven =>
    intro p r' hr'
    by_cases hp : p = payer
    · subst hp
      rw [hself] at hr'
      obtain rfl := Option.some.inj hr'
      exact hproven
    · rw [hother p hp] at hr'
      exact h.proven p r' hr'
  case empty =>
    intro hnone
    rw [hagg] at hnone
    cases hnone
  case sum =>
    intro b hb
    rw [hagg] at hb
    obtain rfl := Option.some.inj hb
    exact h.sum_enter hc haggregate
  case total => exact update_self ..
  case opened =>
    intro v blinding hnone
    cases hnone

theorem Tracked.noted (h : Tracked C s id shown) (i : ℕ) (action : ConfidentialAuditAction) (actor : Address) (subject : Bytes32)
    (timestamp : U64) : Tracked C (note C s i action actor subject timestamp) id shown :=
  ⟨h.nodup, h.few, h.mem, h.proven, h.empty, h.sum, h.total, h.opened⟩

theorem Tracked.enter_ne (h : Tracked C s id shown) {i : ℕ} (hi : id ≠ i) (payer : Address) (r : ConfidentialRecord) (aggregate : Point) :
    Tracked C (enter s i payer r aggregate) id shown := by
  have hrecord : (enter s i payer r aggregate).record id = s.record id := update_of_ne hi ..
  have hagg : (enter s i payer r aggregate).aggregate id = s.aggregate id := update_of_ne hi ..
  have htotal : (enter s i payer r aggregate).verifiedTotal id = s.verifiedTotal id := update_of_ne hi ..
  have hpayers : (enter s i payer r aggregate).loadPayers id = s.loadPayers id := by
    unfold enter TrackStore.loadPayers
    dsimp only
    split_ifs
    · rw [update_of_ne hi]
    · rfl
  have howed : owed C (enter s i payer r aggregate) id = owed C s id := by
    funext p
    rw [owed, owed, hrecord]
  constructor
  case nodup => exact hpayers ▸ h.nodup
  case few => exact hpayers ▸ h.few
  case mem => exact fun p => by rw [hpayers, hrecord]; exact h.mem p
  case proven => exact fun p r' hr' => h.proven p r' (hrecord ▸ hr')
  case empty => exact fun hnone => hpayers ▸ h.empty (hagg ▸ hnone)
  case sum => exact fun b hb => by rw [hpayers, howed]; exact h.sum b (hagg ▸ hb)
  case total => exact htotal.trans h.total
  case opened => exact fun v blinding hv => by rw [hagg]; exact h.opened v blinding hv

/-! ## A recorded payment -/

/-- A group of three elements, each of which is its first byte. -/
def sampleEncode (p : ZMod 3) : Point := ⟨UInt8.ofNat p.val :: List.replicate 95 0, by simp⟩

def sampleScalar (x : ZMod 3) : Bytes32 := ⟨bytesBE 32 x.val, length_bytesBE _ _⟩

def sampleCrypto : Crypto (ZMod 3) (ZMod 3) where
  g := 1
  h := 2
  decode bytes := [0, 1, 2].find? fun p => sampleEncode p = bytes
  encode := sampleEncode
  decode_encode := by decide
  encode_decode bytes p h := by
    have hsame := List.find?_some h
    exact of_decide_eq_true hsame
  sha256 bytes := ⟨bytesBE 32 (bytes.map UInt8.toNat).sum, length_bytesBE _ _⟩
  scalar bytes := (ofBytesBE bytes.1 : ZMod 3)
  xdr a := List.replicate a 0
  xdr_injective a b h := by simpa using congrArg List.length h

def sampleTrackEnv : TrackEnv := { sampleEnv 10 0 with invoice := fun _ => some sampleInvoice, now_le := by decide }

theorem sample_scalar : ∀ x : ZMod 3, sampleCrypto.scalar (sampleScalar x) = x := by
  decide

/-- A commitment to 1, and one to 0 for the nonce. -/
def sampleCommitment : Point := sampleEncode (commit (1 : ZMod 3) (2 : ZMod 3) (1 : ZMod 3) (0 : ZMod 3))

def sampleNonce : Point := sampleEncode (commit (1 : ZMod 3) (2 : ZMod 3) (0 : ZMod 3) (2 : ZMod 3))

def sampleProof : ConfidentialProof :=
  let e := challenge sampleCrypto sampleCommitment sampleNonce 1 5
  ⟨sampleNonce, sampleScalar (0 + e * 1), sampleScalar (2 + e * 0)⟩

def sampleRecord : ConfidentialRecord :=
  ⟨1, 5, sampleCommitment, sampleProof, [7], sampleCrypto.sha256 [7], 10, 1⟩

/-- The store after payer 5 recorded a payment on invoice 1. -/
def sampleTracked : TrackStore :=
  note sampleCrypto (enter {} 1 5 sampleRecord sampleCommitment) 1 .recorded 5 (digestPoint sampleCrypto sampleCommitment)
    sampleTrackEnv.timestamp

theorem sample_record :
    recordConfidentialPayment sampleCrypto sampleTrackEnv 5 1 sampleCommitment sampleProof [7] {} =
      .ok (sampleRecord, sampleTracked) := by
  have hverifies : verifyOpeningProof sampleCrypto sampleCommitment sampleProof 1 5 = .ok true :=
    verifies_commit (sample_scalar _) (sample_scalar _)
  simp only [recordConfidentialPayment, requireNotPaused_bind, require_bind, requireAuth_bind,
    orPanic_bind, ofResult_bind, get_bind]
  exact ⟨⟨rfl, rfl, rfl⟩, ⟨rfl, by decide⟩, sampleInvoice, rfl, rfl, by decide, by decide, by decide, by decide, true,
    hverifies, rfl, sampleCommitment, rfl, bind_ok.2 ⟨(), _, onlyIf_ok.2 (.inl ⟨rfl, rfl⟩), rfl⟩⟩

section Run

variable {marks : ℕ → List Mark} {shownTotals : ℕ → Option (ℤ × Bytes32)}

theorem Reaches.tracked (h : Reaches C s marks shownTotals) (id : ℕ) : Tracked C s id (shownTotals id) := by
  induction h with
  | start =>
      constructor
      case nodup => exact List.nodup_nil
      case few => exact Nat.zero_le _
      case mem => exact fun p => iff_of_false List.not_mem_nil Bool.false_ne_true
      case proven => exact fun p r hr => by cases hr
      case empty => exact fun _ => rfl
      case sum => exact fun b hb => by cases hb
      case total => rfl
      case opened => exact fun v blinding hv => by cases hv
  | @record s t marks shown env payer i commitment proof enc r hs hrun ih =>
      obtain ⟨hverifies, rfl, hroom, -, aggregate, haggregate, rfl⟩ := record_ok hrun
      apply Tracked.noted
      by_cases hi : id = i
      · subst hi
        rw [update_self]
        refine ih.entered ⟨rfl, rfl, hverifies, rfl, ?_⟩ haggregate hroom
        cases s.record id payer with
        | none => exact le_rfl
        | some prev => exact Nat.le_add_left 1 _
      · rw [update_of_ne hi]
        exact ih.enter_ne hi _ _ _
  | @total s t marks shown env caller i v blinding hs hrun ih =>
      obtain ⟨aggregate, haggregate, hpos, point, hpoint, ⟨hfalse, -⟩ | ⟨-, rfl, -, rfl⟩⟩ := verifyTotal_ok hrun
      · cases hfalse
      · apply Tracked.noted
        by_cases hi : id = i
        · subst hi
          rw [update_self]
          refine ⟨ih.nodup, ih.few, ih.mem, ih.proven, ih.empty, ih.sum, update_self .., ?_⟩
          rintro _ _ ⟨⟩
          exact ⟨hpos, point, haggregate, hpoint⟩
        · rw [update_of_ne hi]
          exact ⟨ih.nodup, ih.few, ih.mem, ih.proven, ih.empty, ih.sum, (update_of_ne hi ..).trans ih.total, ih.opened⟩
  | @refused s t marks shown env caller i v blinding hs hrun ih =>
      obtain ⟨aggregate, haggregate, hpos, point, hpoint, ⟨-, rfl, -⟩ | ⟨htrue, -⟩⟩ := verifyTotal_ok hrun
      · exact ih
      · cases htrue

/-- In every run the payers of an invoice are those with a record, each once. The aggregate is the sum of their
commitments, each record verifies again, and a total is stored exactly as long as it was shown for the records there
are. -/
theorem tracked_law (h : Reaches C s marks shownTotals) (id : ℕ) :
    Tracked C s id (shownTotals id) ∧
      ∀ p, p ∈ s.loadPayers id ↔ verifyConfidentialRecord C s id p = .ok true := by
  have htracked := h.tracked id
  refine ⟨htracked, fun p => ?_⟩
  unfold verifyConfidentialRecord
  rw [htracked.mem]
  cases hrecord : s.record id p with
  | none => exact iff_of_false Bool.false_ne_true (by simp)
  | some r =>
      have hproven := htracked.proven p r hrecord
      refine iff_of_true rfl (except_bind_ok.2 ⟨true, hproven.verifies, ?_⟩)
      rw [Bool.true_and, decide_eq_true hproven.digest]
      rfl

theorem tracked_sample :
    sampleTracked.loadPayers 1 = [5] ∧ verifyConfidentialRecord sampleCrypto sampleTracked 1 5 = .ok true :=
  have htracked := tracked_law (Reaches.start.record sample_record) 1
  ⟨rfl, (htracked.2 5).1 List.mem_cons_self⟩

theorem commitTo_ok {value : ℤ} {blinding : Bytes32} {point : Point} (h : commitTo C value blinding = .ok point) :
    C.encode (commit C.g C.h (value.toNat : F) (C.scalar blinding)) = point := by
  unfold commitTo at h
  split_ifs at h
  exact Except.ok.inj h

/-- The payers of an invoice opened their commitments to `v` and `ρ`. Then the sums of both show the total, and
whoever shows another total knows what the one generator is of the other. -/
theorem total_law (hs : Reaches C s marks shownTotals) {v ρ : Address → F} {caller : Address} {total : ℤ}
    {blinding : Bytes32} {b : Bool}
    (hopen : ∀ p ∈ s.loadPayers id, owed C s id p = commit C.g C.h (v p) (ρ p))
    (hrun : verifyConfidentialTotal C env caller id total blinding s = .ok (b, t)) :
    ((total.toNat : F) = ((s.loadPayers id).map v).sum → C.scalar blinding = ((s.loadPayers id).map ρ).sum → b = true) ∧
      (b = true → (total.toNat : F) = ((s.loadPayers id).map v).sum ∨
        C.g = ((((s.loadPayers id).map ρ).sum - C.scalar blinding) /
          ((total.toNat : F) - ((s.loadPayers id).map v).sum)) • C.h) := by
  obtain ⟨aggregate, haggregate, -, point, hpoint, hcases⟩ := verifyTotal_ok hrun
  have hsum := (hs.tracked id).sum aggregate haggregate
  rw [List.map_congr_left hopen, sum_commit] at hsum
  obtain rfl := commitTo_ok hpoint
  constructor
  · intro hv hρ
    rcases hcases with ⟨-, -, hne⟩ | ⟨rfl, -⟩
    · refine absurd ?_ hne
      rw [hv, hρ]
      exact C.encode_decode _ _ hsum
    · rfl
  · rintro rfl
    rcases hcases with ⟨hfalse, -⟩ | ⟨-, heq, -⟩
    · cases hfalse
    · by_cases hv : (total.toNat : F) = ((s.loadPayers id).map v).sum
      · exact .inl hv
      · rw [← heq, C.decode_encode, Option.some.injEq] at hsum
        exact .inr (binding hsum hv)

/-- Creator 2 of the invoice shows its total. -/
theorem sample_total :
    verifyConfidentialTotal sampleCrypto sampleTrackEnv 2 1 1 (sampleScalar 0) sampleTracked =
      .ok (true, note sampleCrypto { sampleTracked with verifiedTotal := update sampleTracked.verifiedTotal 1 (some 1) } 1
        .totalVerified 2 (digestPoint sampleCrypto sampleCommitment) sampleTrackEnv.timestamp) := by
  simp only [verifyConfidentialTotal, requireNotPaused_bind, require_bind, requireAuth_bind,
    orPanic_bind, ofResult_bind, get_bind]
  refine ⟨⟨rfl, rfl, rfl⟩, ⟨rfl, by decide⟩, sampleInvoice, rfl, by decide, by decide, sampleCommitment, rfl,
    sampleCommitment, by decide, ?_⟩
  rw [if_neg (not_not.2 rfl)]
  exact bind_ok.2 ⟨(), _, rfl, bind_ok.2 ⟨(), _, appendAudit_ok.2 ⟨by decide, rfl⟩, rfl⟩⟩

theorem total_sample :
    ((1 : ℤ).toNat : ZMod 3) = ((sampleTracked.loadPayers 1).map fun _ => (1 : ZMod 3)).sum ∨
      sampleCrypto.g = ((((sampleTracked.loadPayers 1).map fun _ => (0 : ZMod 3)).sum -
        sampleCrypto.scalar (sampleScalar 0)) /
          (((1 : ℤ).toNat : ZMod 3) - ((sampleTracked.loadPayers 1).map fun _ => (1 : ZMod 3)).sum)) • sampleCrypto.h := by
  have hopen : ∀ p ∈ sampleTracked.loadPayers 1,
      owed sampleCrypto sampleTracked 1 p = commit (1 : ZMod 3) (2 : ZMod 3) (1 : ZMod 3) (0 : ZMod 3) := by
    decide
  exact (total_law (Reaches.start.record sample_record) hopen sample_total).2 rfl

/-- A payer who knows an opening can prove it. Two proofs with one nonce that answer different challenges give the
opening away. -/
theorem proof_law (C : Crypto F G) (id : ℕ) (payer : Address) :
    (∀ (v r a b : F) (s u : Bytes32),
      C.scalar s = a + challenge C (C.encode (commit C.g C.h v r)) (C.encode (commit C.g C.h a b)) id payer * v →
      C.scalar u = b + challenge C (C.encode (commit C.g C.h v r)) (C.encode (commit C.g C.h a b)) id payer * r →
      verifyOpeningProof C (C.encode (commit C.g C.h v r)) ⟨C.encode (commit C.g C.h a b), s, u⟩ id payer = .ok true) ∧
    ∀ (c : Point) (p q : ConfidentialProof) (id' : ℕ) (payer' : Address), p.nonceCommitment = q.nonceCommitment →
      verifyOpeningProof C c p id payer = .ok true → verifyOpeningProof C c q id' payer' = .ok true →
      challenge C c p.nonceCommitment id payer ≠ challenge C c q.nonceCommitment id' payer' →
      C.decode c = some (commit C.g C.h
        ((C.scalar p.responseValue - C.scalar q.responseValue) /
          (challenge C c p.nonceCommitment id payer - challenge C c q.nonceCommitment id' payer'))
        ((C.scalar p.responseBlinding - C.scalar q.responseBlinding) /
          (challenge C c p.nonceCommitment id payer - challenge C c q.nonceCommitment id' payer'))) := by
  constructor
  · intro v r a b s u hs hu
    exact verifies_commit hs hu
  · intro c p q id' payer' hnonce hp hq hne
    obtain ⟨point, nonce, hpoint, hn, haccepts⟩ := verifyOpeningProof_ok.1 hp
    obtain ⟨point', nonce', hpoint', hn', haccepts'⟩ := verifyOpeningProof_ok.1 hq
    rw [hpoint, Option.some.injEq] at hpoint'
    rw [← hnonce, hn, Option.some.injEq] at hn'
    subst hpoint' hn'
    rw [hpoint, opening_of_accepts haccepts haccepts' hne]

theorem proof_sample : verifyOpeningProof sampleCrypto sampleCommitment sampleProof 1 5 = .ok true :=
  (proof_law sampleCrypto 1 5).1 1 0 0 2 _ _ (sample_scalar _) (sample_scalar _)

end Run

end Code

end StellarSplit.Split.Confidential
