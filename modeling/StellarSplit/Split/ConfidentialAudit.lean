import StellarSplit.Lib.Numbered
import StellarSplit.Split.Confidential

/-!
# The audit trail of confidential payments

The trail of an invoice says in order which calls changed its confidential payments. Its digests
form a chain that verifies at any time, and a trail that was tampered with verifies only when two
entries collide under the digest.
-/

namespace StellarSplit.Split.Confidential

open Exec Function HashChain Machine

variable {F G : Type} [Field F] [AddCommGroup G] [Module F G] {C : Crypto F G} {s t : TrackStore} {id : ℕ}
  {marks : ℕ → List Mark} {shown : ℕ → Option (ℤ × Bytes32)} {ms : List Mark} {m : Mark} {d : Bytes32} {seq i : ℕ}

/-! ## Trails -/

/-- One more mark under its number. -/
def link (C : Crypto F G) (d : Bytes32) (p : Mark × ℕ) : Bytes32 :=
  auditEntryHash C d p.2 p.1.action p.1.actor p.1.subject p.1.timestamp

def entryOf (C : Crypto F G) (d : Bytes32) (seq : ℕ) (m : Mark) : ConfidentialAuditEntry :=
  ⟨seq, m.action, m.actor, m.subject, m.timestamp, d, link C d (m, seq)⟩

def markOf (e : ConfidentialAuditEntry) : Mark := ⟨e.action, e.actor, e.subject, e.timestamp⟩

theorem eq_entryOf {e : ConfidentialAuditEntry} (hseq : e.seq = seq) (hprev : e.prevHash = d)
    (hdigest : auditEntryHash C d seq e.action e.actor e.subject e.timestamp = e.entryHash) :
    e = entryOf C d seq (markOf e) := by
  subst hseq hprev
  cases e
  exact congrArg _ hdigest.symm

/-- The entries for some marks. -/
def trail (C : Crypto F G) : Bytes32 → ℕ → List Mark → List ConfidentialAuditEntry
  | _, _, [] => []
  | d, seq, m :: ms => entryOf C d seq m :: trail C (link C d (m, seq)) (seq + 1) ms

theorem length_trail (d : Bytes32) (seq : ℕ) (ms : List Mark) : (trail C d seq ms).length = ms.length := by
  induction ms generalizing d seq with
  | nil => rfl
  | cons m ms ih => exact congrArg Nat.succ (ih _ _)

theorem map_markOf_trail (d : Bytes32) (seq : ℕ) (ms : List Mark) : (trail C d seq ms).map markOf = ms := by
  induction ms generalizing d seq with
  | nil => rfl
  | cons m ms ih => exact congrArg (m :: ·) (ih _ _)

theorem trail_snoc (d : Bytes32) (seq : ℕ) (ms : List Mark) (m : Mark) :
    trail C d seq (ms ++ [m]) =
      trail C d seq ms ++ [entryOf C (head (link C) d (ms.zipIdx seq)) (seq + ms.length) m] := by
  induction ms generalizing d seq with
  | nil => rfl
  | cons k ms ih =>
      rw [List.cons_append, trail, ih, trail, List.cons_append, List.length_cons, Nat.add_right_comm, ← Nat.add_assoc]
      rfl

theorem getElem?_trail (d : Bytes32) (seq : ℕ) (ms : List Mark) (i : ℕ) :
    (trail C d seq ms)[i]? = ms[i]?.map fun m => entryOf C (head (link C) d ((ms.zipIdx seq).take i)) (seq + i) m := by
  induction ms generalizing d seq i with
  | nil => rfl
  | cons m ms ih =>
      cases i with
      | zero => rfl
      | succ i =>
          rw [trail, List.getElem?_cons_succ, ih, List.getElem?_cons_succ, Nat.add_right_comm, ← Nat.add_assoc]
          rfl

/-- The entries hold the trail of some marks. -/
def Carries (C : Crypto F G) (entries : ℕ → Option ConfidentialAuditEntry) (d : Bytes32) (seq : ℕ) (ms : List Mark) : Prop :=
  ∀ i < ms.length, entries (seq + i) = (trail C d seq ms)[i]?

theorem carries_cons {entries : ℕ → Option ConfidentialAuditEntry} :
    Carries C entries d seq (m :: ms) ↔
      entries seq = some (entryOf C d seq m) ∧ Carries C entries (link C d (m, seq)) (seq + 1) ms := by
  constructor
  · intro h
    refine ⟨h 0 (Nat.succ_pos _), fun i hi => ?_⟩
    rw [Nat.add_assoc, Nat.add_comm 1]
    exact h (i + 1) (Nat.succ_lt_succ hi)
  · rintro ⟨hfirst, hrest⟩ i hi
    cases i with
    | zero => exact hfirst
    | succ i =>
        have hnext := hrest i (Nat.lt_of_succ_lt_succ hi)
        rwa [Nat.add_assoc, Nat.add_comm 1] at hnext

/-- The chain check finds the trail of some marks, and ends with their digest. -/
theorem checkChain_eq_some {entries : ℕ → Option ConfidentialAuditEntry} {left : ℕ} {last : Bytes32} :
    checkChain C entries left seq d = some last ↔
      ∃ ms : List Mark, ms.length = left ∧ Carries C entries d seq ms ∧ head (link C) d (ms.zipIdx seq) = last := by
  induction left generalizing seq d with
  | zero =>
      rw [checkChain, Option.some.injEq]
      constructor
      · rintro rfl
        exact ⟨[], rfl, fun i hi => absurd hi (Nat.not_lt_zero i), rfl⟩
      · rintro ⟨ms, hlen, -, hhead⟩
        obtain rfl := List.length_eq_zero_iff.1 hlen
        exact hhead
  | succ left ih =>
      rw [checkChain]
      constructor
      · intro h
        cases hentry : entries seq with
        | none =>
            rw [hentry] at h
            cases h
        | some entry =>
            rw [hentry] at h
            dsimp only at h
            split_ifs at h with hplace hdigest
            obtain ⟨hseq, hprev⟩ := not_or.1 hplace
            obtain ⟨ms, hlen, hholds, hhead⟩ := ih.1 h
            refine ⟨markOf entry :: ms, congrArg Nat.succ hlen, carries_cons.2 ⟨?_, hholds⟩, hhead⟩
            rw [hentry, Option.some.injEq]
            exact eq_entryOf (not_not.1 hseq) (not_not.1 hprev) (not_not.1 hdigest)
      · rintro ⟨ms, hlen, hholds, hhead⟩
        cases ms with
        | nil => cases hlen
        | cons m ms =>
            obtain ⟨hfirst, hrest⟩ := carries_cons.1 hholds
            rw [hfirst]
            dsimp only
            rw [if_neg (by simp [entryOf]), if_neg (by simp [entryOf, link])]
            exact ih.2 ⟨ms, Nat.succ.inj hlen, hrest, hhead⟩

/-! ## The trail in storage -/

/-- The storage holds the trail of the marks, and the digest at its end. -/
structure Recorded (C : Crypto F G) (s : TrackStore) (id : ℕ) (ms : List Mark) : Prop where
  length : (s.loadAuditHead id).1 = ms.length
  digest : (s.loadAuditHead id).2 = head (link C) zeroHash ms.zipIdx
  few : ms.length ≤ maxConfidentialAuditEntries
  holds : Numbered.Holds (s.auditEntry id) 0 (trail C zeroHash 0 ms)

theorem Recorded.note (h : Recorded C s id ms) (hroom : (s.loadAuditHead id).1 < maxConfidentialAuditEntries) (m : Mark) :
    Recorded C (note C s id m.action m.actor m.subject m.timestamp) id (ms ++ [m]) := by
  have hhead : (Confidential.note C s id m.action m.actor m.subject m.timestamp).loadAuditHead id =
      (ms.length + 1, link C (head (link C) zeroHash ms.zipIdx) (m, ms.length)) := by
    rw [← h.length, ← h.digest]
    unfold Confidential.note TrackStore.loadAuditHead
    dsimp only
    rw [update_self]
    rfl
  have hentries : (Confidential.note C s id m.action m.actor m.subject m.timestamp).auditEntry id =
      update (s.auditEntry id) ms.length (some (entryOf C (head (link C) zeroHash ms.zipIdx) ms.length m)) := by
    rw [← h.length, ← h.digest]
    exact update_self ..
  constructor
  case length => rw [hhead, List.length_append, List.length_singleton]
  case digest => rw [hhead, List.zipIdx_append, Nat.zero_add, List.zipIdx_singleton, head_snoc]
  case few =>
    rw [List.length_append, List.length_singleton, ← h.length]
    exact hroom
  case holds =>
    have happend := h.holds.append (a := entryOf C (head (link C) zeroHash ms.zipIdx) ms.length m)
    rw [length_trail, Nat.zero_add] at happend
    rw [hentries, trail_snoc, Nat.zero_add]
    exact happend

theorem Recorded.congr (h : Recorded C s id ms) (hentries : t.auditEntry id = s.auditEntry id)
    (hhead : t.auditHead id = s.auditHead id) : Recorded C t id ms := by
  have hload : t.loadAuditHead id = s.loadAuditHead id := congrArg (Option.getD · (0, zeroHash)) hhead
  exact ⟨hload ▸ h.length, hload ▸ h.digest, h.few, hentries ▸ h.holds⟩

/-- A new entry for an invoice leaves the trails of the others. -/
theorem Recorded.note_ne (h : Recorded C s id ms) {i : ℕ} (hi : id ≠ i) (m : Mark) :
    Recorded C (Confidential.note C s i m.action m.actor m.subject m.timestamp) id ms :=
  h.congr (update_of_ne hi ..) (update_of_ne hi ..)

/-- A call that changes nothing else of the trails notes a mark. -/
theorem Recorded.after (u : TrackStore) (m : Mark) {id : ℕ} (h : ∀ i, Recorded C s i (marks i))
    (hentries : u.auditEntry = s.auditEntry) (hhead : u.auditHead = s.auditHead)
    (hroom : (s.loadAuditHead id).1 < maxConfidentialAuditEntries) (i : ℕ) :
    Recorded C (Confidential.note C u id m.action m.actor m.subject m.timestamp) i (update marks id (marks id ++ [m]) i) := by
  have hu : Recorded C u i (marks i) := (h i).congr (congrFun hentries i) (congrFun hhead i)
  by_cases hi : i = id
  · subst hi
    rw [update_self]
    apply hu.note
    rwa [TrackStore.loadAuditHead, hhead]
  · rw [update_of_ne hi]
    exact hu.note_ne hi m

theorem Reaches.recorded (h : Reaches C s marks shown) : ∀ id, Recorded C s id (marks id) := by
  induction h with
  | start => exact fun id => ⟨rfl, rfl, Nat.zero_le _, Numbered.Holds.nil⟩
  | @record s t marks shown env payer i commitment proof enc r hs hrun ih =>
      obtain ⟨-, -, -, hroom, aggregate, -, rfl⟩ := record_ok hrun
      exact Recorded.after (enter s i payer r aggregate) ⟨_, payer, digestPoint C commitment, env.timestamp⟩ ih rfl rfl hroom
  | @total s t marks shown env caller i v blinding hs hrun ih =>
      obtain ⟨aggregate, haggregate, -, point, -, ⟨hfalse, -⟩ | ⟨-, rfl, hroom, rfl⟩⟩ := verifyTotal_ok hrun
      · cases hfalse
      · rw [haggregate]
        exact Recorded.after { s with verifiedTotal := update s.verifiedTotal i (some v) }
          ⟨.totalVerified, caller, digestPoint C point, env.timestamp⟩ ih rfl rfl hroom
  | @refused s t marks shown env caller i v blinding hs hrun ih =>
      obtain ⟨aggregate, -, -, point, -, ⟨-, rfl, -⟩ | ⟨htrue, -⟩⟩ := verifyTotal_ok hrun
      · exact ih
      · cases htrue

theorem Recorded.carries (h : Recorded C s id ms) : Carries C (s.auditEntry id) zeroHash 0 ms := fun i _ => h.holds.at i

theorem Recorded.verifies (h : Recorded C s id ms) : verifyConfidentialAuditChain C s id = true := by
  rw [verifyConfidentialAuditChain, decide_eq_true_eq, checkChain_eq_some]
  exact ⟨ms, h.length.symm, h.carries, h.digest.symm⟩

/-- The page of the trail that is read. -/
theorem Recorded.page (h : Recorded C s id ms) (start limit : ℕ) :
    (getConfidentialAuditTrail s id start limit).map markOf = (ms.drop start).take (min limit maxAuditPage) := by
  have hfew : ms.length ≤ u32Max := h.few.trans (by decide)
  have hstop : min (min (start + min limit maxAuditPage) u32Max) ms.length = min (start + min limit maxAuditPage) ms.length := by
    omega
  unfold getConfidentialAuditTrail
  rw [h.length]
  dsimp only
  rw [hstop]
  rcases Nat.lt_or_ge start ms.length with hlt | hge
  · have hpage := h.holds.page (i := start) (n := min (start + min limit maxAuditPage) ms.length - start)
      (by rw [length_trail]; omega)
    rw [Nat.zero_add] at hpage
    rw [hpage, List.map_take, List.map_drop, map_markOf_trail]
    rcases Nat.le_total (start + min limit maxAuditPage) ms.length with hle | hge
    · rw [Nat.min_eq_left hle, Nat.add_sub_cancel_left]
    · rw [Nat.min_eq_right hge, List.take_of_length_le (by rw [List.length_drop]),
        List.take_of_length_le (by rw [List.length_drop]; omega)]
  · have hnone : min (start + min limit maxAuditPage) ms.length - start = 0 := by omega
    rw [hnone, List.drop_of_length_le hge, List.take_nil]
    rfl

/-- In every run the chain of an invoice verifies, and its trail says which calls changed the confidential payments
of the invoice, in order, who made them and when. -/
theorem audit_law (h : Reaches C s marks shown) (id : ℕ) :
    verifyConfidentialAuditChain C s id = true ∧ (getConfidentialSummary s id).auditLength = (marks id).length ∧
      (marks id).length ≤ maxConfidentialAuditEntries ∧
      ∀ start limit, (getConfidentialAuditTrail s id start limit).map markOf =
        ((marks id).drop start).take (min limit maxAuditPage) := by
  have hrecorded := h.recorded id
  exact ⟨hrecorded.verifies, hrecorded.length, hrecorded.few, hrecorded.page⟩

theorem audit_sample :
    verifyConfidentialAuditChain sampleCrypto sampleTracked 1 = true ∧
      (getConfidentialAuditTrail sampleTracked 1 0 50).map markOf =
        [⟨.recorded, 5, digestPoint sampleCrypto sampleCommitment, sampleTrackEnv.timestamp⟩] :=
  have haudit := audit_law (Reaches.start.record sample_record) 1
  ⟨haudit.1, haudit.2.2.2 0 50⟩

/-! ## Tampering -/

/-- The bytes whose digest an entry carries. -/
def preimage (C : Crypto F G) (e : ConfidentialAuditEntry) : List UInt8 :=
  e.prevHash.1 ++ bytesBE 4 e.seq ++ bytesBE 4 e.action.disc ++ C.xdr e.actor ++ e.subject.1 ++ e.timestamp.toBytes

theorem disc_injective : Function.Injective fun a : ConfidentialAuditAction => bytesBE 4 a.disc := by
  intro a b h
  have hvalue := congrArg ofBytesBE h
  cases a <;> cases b <;> first | rfl | exact absurd hvalue (by decide)

/-- The bytes of an entry tell its number, its marks and the digest before it. -/
theorem preimage_entryOf {d' : Bytes32} {m' : Mark} (h : preimage C (entryOf C d i m) = preimage C (entryOf C d' i m')) :
    (d, m) = (d', m') := by
  obtain ⟨hfront, htime⟩ := List.append_inj' h (by simp [entryOf])
  obtain ⟨hfront, hsubject⟩ := List.append_inj' hfront (by rw [(entryOf C d i m).subject.2, (entryOf C d' i m').subject.2])
  have hlen : ((entryOf C d i m).prevHash.1 ++ bytesBE 4 i ++ bytesBE 4 (entryOf C d i m).action.disc).length =
      ((entryOf C d' i m').prevHash.1 ++ bytesBE 4 i ++ bytesBE 4 (entryOf C d' i m').action.disc).length := by
    simp only [List.length_append, length_bytesBE, d.2, d'.2, entryOf]
  obtain ⟨hfront, hactor⟩ := List.append_inj hfront hlen
  obtain ⟨hfront, haction⟩ := List.append_inj' hfront (by simp)
  obtain ⟨hprev, -⟩ := List.append_inj' hfront (by simp)
  have htime' : m.timestamp = m'.timestamp := by
    have hread := congrArg U64.ofBytes htime
    simpa [entryOf] using hread
  obtain rfl : d = d' := Subtype.ext hprev
  have hsame : m = m' := by
    cases m
    cases m'
    obtain rfl := disc_injective haction
    obtain rfl := C.xdr_injective hactor
    obtain rfl := Subtype.ext hsubject
    obtain rfl := htime'
    rfl
  rw [hsame]

/-- Entries that were changed under an invoice verify only when they are the entries that were written, or when
one of them and the one that was written under its number are different inputs with the same digest. -/
theorem tamper_law (h : Reaches C s marks shown) {id : ℕ} {entries : ℕ → Option ConfidentialAuditEntry}
    (hverify : verifyConfidentialAuditChain C { s with auditEntry := update s.auditEntry id entries } id = true) :
    (∀ i < (getConfidentialSummary s id).auditLength, entries i = s.auditEntry id i) ∨
      ∃ i e e', s.auditEntry id i = some e ∧ entries i = some e' ∧ preimage C e ≠ preimage C e' ∧
        C.sha256 (preimage C e) = C.sha256 (preimage C e') := by
  have hrecorded := h.recorded id
  rw [verifyConfidentialAuditChain, decide_eq_true_eq, checkChain_eq_some] at hverify
  obtain ⟨ms, hlen, hcarries, hhead⟩ := hverify
  have hsame : ({ s with auditEntry := update s.auditEntry id entries } : TrackStore).auditEntry id = entries :=
    update_self ..
  rw [hsame] at hcarries
  have hlen' : ms.length = (marks id).length := hlen.trans hrecorded.length
  have hzip : (marks id).zipIdx.length = ms.zipIdx.length := by
    rw [List.length_zipIdx, List.length_zipIdx, hlen']
  have hdigest : head (link C) zeroHash (marks id).zipIdx = head (link C) zeroHash ms.zipIdx :=
    hrecorded.digest.symm.trans hhead.symm
  rcases eq_or_collides hzip hdigest with heq | ⟨i, p, q, hp, hq, hne, hcollide⟩
  · have hmarks : marks id = ms := by
      rw [← List.zipIdx_map_fst 0 (marks id), heq, List.zipIdx_map_fst]
    refine .inl fun i hi => ?_
    have hi : i < (marks id).length := hrecorded.length ▸ hi
    have hthere := hcarries i (hlen' ▸ hi)
    have hhere := hrecorded.carries i hi
    rw [Nat.zero_add] at hthere hhere
    rw [hthere, hhere, hmarks]
  · obtain ⟨m, n⟩ := p
    obtain ⟨m', n'⟩ := q
    rw [List.getElem?_zipIdx, Option.map_eq_some_iff] at hp hq
    obtain ⟨_, hm, hpair⟩ := hp
    obtain ⟨_, hm', hpair'⟩ := hq
    rw [Nat.zero_add] at hpair hpair'
    obtain ⟨rfl, rfl⟩ := Prod.ext_iff.1 hpair
    obtain ⟨rfl, rfl⟩ := Prod.ext_iff.1 hpair'
    dsimp only at hm hm' hne hcollide
    have hi : i < (marks id).length := (List.getElem?_eq_some_iff.1 hm).1
    have hhere := hrecorded.carries i hi
    have hthere := hcarries i (hlen' ▸ hi)
    rw [getElem?_trail, hm, Nat.zero_add, Option.map_some] at hhere
    rw [getElem?_trail, hm', Nat.zero_add, Option.map_some] at hthere
    refine .inr ⟨i, _, _, hhere, hthere, fun hpreimage => hne ?_, hcollide⟩
    obtain ⟨hprev, hmark⟩ := Prod.ext_iff.1 (preimage_entryOf hpreimage)
    dsimp only at hprev hmark
    rw [hprev, hmark]

/-- Entries that were not changed. -/
theorem tamper_sample :
    (∀ i < (getConfidentialSummary sampleTracked 1).auditLength, sampleTracked.auditEntry 1 i = sampleTracked.auditEntry 1 i) ∨
      ∃ i e e', sampleTracked.auditEntry 1 i = some e ∧ sampleTracked.auditEntry 1 i = some e' ∧
        preimage sampleCrypto e ≠ preimage sampleCrypto e' ∧
        sampleCrypto.sha256 (preimage sampleCrypto e) = sampleCrypto.sha256 (preimage sampleCrypto e') := by
  have hreaches := Reaches.start.record sample_record
  have hverify : verifyConfidentialAuditChain sampleCrypto
      { sampleTracked with auditEntry := update sampleTracked.auditEntry 1 (sampleTracked.auditEntry 1) } 1 = true := by
    rw [update_eq_self]
    exact (hreaches.recorded 1).verifies
  exact tamper_law hreaches hverify

end StellarSplit.Split.Confidential
