import Mathlib.Data.List.Nodup
import StellarSplit.Lib.Registry
import StellarSplit.SkillVerification.Contract

/-!
# Why a skill counts as verified

The index of pending claims, the attestations and the lists of skills agree in every state, and a
positive answer of the contract rests on the latest approval in its history: by an appointed verifier
other than the recipient, not expired, and not revoked since.
-/

namespace StellarSplit.SkillVerification

open Exec Function Machine Registry

/-! ## Runs and their history -/

inductive SkillCall where
  | setUp (admin : Address)
  | setVerifier (admin verifier : Address) (skill : Symbol) (authorized : Bool)
  | submit (recipient : Address) (skill : Symbol) (evidenceHash : ℕ)
  | withdraw (recipient : Address) (claimId : ℕ)
  | approve (verifier : Address) (claimId level validityLedgers : ℕ)
  | reject (verifier : Address) (claimId reasonHash : ℕ)
  | revoke (caller recipient : Address) (skill : Symbol)
deriving DecidableEq

def skillStep (c : Ledger Unit × SkillCall) : SkillM Unit :=
  match c.2 with
  | .setUp admin => initializeContract admin
  | .setVerifier admin verifier skill authorized => setVerifier c.1 admin verifier skill authorized
  | .submit recipient skill evidenceHash => ignore (submitClaim c.1 recipient skill evidenceHash)
  | .withdraw recipient claimId => withdrawClaim c.1 recipient claimId
  | .approve verifier claimId level validityLedgers => approveClaim c.1 verifier claimId level validityLedgers
  | .reject verifier claimId reasonHash => rejectClaim c.1 verifier claimId reasonHash
  | .revoke caller recipient skill => revoke c.1 caller recipient skill

/-- What the calls that returned did about verifiers and attestations. -/
inductive Event where
  | appointed (verifier : Address) (skill : Symbol) (authorized : Bool)
  | approved (recipient : Address) (skill : Symbol) (verifier : Address) (level expiresAtLedger : ℕ)
  | revoked (recipient : Address) (skill : Symbol)
deriving DecidableEq, Repr

/-- The history after the call, the newest event first. An approval concerns the recipient and the skill
of its claim. -/
def recordEvent (c : Ledger Unit × SkillCall) (history : List Event) (s : Store) : List Event :=
  match c.2 with
  | .setVerifier _ verifier skill authorized => .appointed verifier skill authorized :: history
  | .approve verifier claimId level validityLedgers =>
      (s.claims claimId).elim history fun claim =>
        .approved claim.recipient claim.skill verifier level (c.1.sequence + validityLedgers) :: history
  | .revoke _ recipient skill => .revoked recipient skill :: history
  | _ => history

def historyStep (c : Ledger Unit × SkillCall) : Call (Store × List Event) (Fault Error) Unit :=
  beside (fun history s _ => recordEvent c history s) (skillStep c)

abbrev after (calls : List (Ledger Unit × SkillCall)) : Store × List Event := runAll historyStep ({}, []) calls

/-! ## The law -/

/-- What the latest appointment says about the verifier and the skill. -/
def authorised (verifier : Address) (skill : Symbol) : List Event → Bool
  | [] => false
  | .appointed a k authorized :: history =>
      if a = verifier ∧ k = skill then authorized else authorised verifier skill history
  | _ :: history => authorised verifier skill history

/-- The event approves or revokes the skill of the recipient. -/
def Event.Decides (recipient : Address) (skill : Symbol) : Event → Prop
  | .appointed _ _ _ => False
  | .approved r k _ _ _ => r = recipient ∧ k = skill
  | .revoked r k => r = recipient ∧ k = skill

/-- The latest event about the skill of the recipient approved it, at this level or a higher one and
for long enough, and its verifier was appointed at that time. -/
def Justified (history : List Event) (recipient : Address) (skill : Symbol) (minLevel now : ℕ) : Prop :=
  ∃ newer verifier level expiresAtLedger older,
    history = newer ++ .approved recipient skill verifier level expiresAtLedger :: older ∧
    (∀ e ∈ newer, ¬e.Decides recipient skill) ∧ verifier ≠ recipient ∧ authorised verifier skill older = true ∧
    1 ≤ level ∧ level ≤ 5 ∧ minLevel ≤ level ∧ now ≤ expiresAtLedger

def IsPending (s : Store) (recipient : Address) (skill : Symbol) (id : ℕ) : Prop :=
  ∃ claim, s.claims id = some claim ∧ claim.recipient = recipient ∧ claim.skill = skill ∧ claim.status = .pending

/-- The four stores agree, and every positive answer is justified. -/
structure Consistent (s : Store) (history : List Event) : Prop where
  pending : ∀ recipient skill id, s.pendingClaims (recipient, skill) = some id ↔ IsPending s recipient skill id
  single : ∀ recipient skill id id', IsPending s recipient skill id → IsPending s recipient skill id' → id = id'
  skills : ∀ recipient, (s.recipientSkills recipient).Nodup ∧
    ∀ skill, skill ∈ s.recipientSkills recipient ↔ (s.attestations (recipient, skill)).isSome = true
  verified : ∀ env recipient skill, isSkillVerified env s recipient skill = true →
    Justified history recipient skill 1 env.sequence
  meets : ∀ env recipient skill minLevel, meetsRequirement env s recipient skill minLevel = true →
    Justified history recipient skill minLevel env.sequence
  allMeet : ∀ env recipients skill minLevel, allMeetRequirement env s recipients skill minLevel = .ok true →
    ∀ recipient ∈ recipients, Justified history recipient skill minLevel env.sequence

/-! ## The invariant -/

variable {env : Ledger Unit} {s t : Store} {history : List Event} {v : Unit} {id : ℕ} {claim claim' : SkillClaim}
  {att : SkillAttestation} {recipient verifier : Address} {skill : Symbol} {e : Event}
  {c : Ledger Unit × SkillCall}

/-- The attestation comes from the latest approval of the pair, and it is revoked when a revocation
follows. -/
def Attested (history : List Event) (recipient : Address) (skill : Symbol) (att : SkillAttestation) : Prop :=
  ∃ newer older,
    history = newer ++ .approved recipient skill att.verifier att.level att.expiresAtLedger :: older ∧
    (att.revoked = false → ∀ e ∈ newer, ¬e.Decides recipient skill) ∧ att.verifier ≠ recipient ∧
    authorised att.verifier skill older = true ∧ 1 ≤ att.level ∧ att.level ≤ 5

/-- An event about something else does not touch an attestation. -/
theorem Attested.cons (h : Attested history recipient skill att) (he : ¬e.Decides recipient skill) :
    Attested (e :: history) recipient skill att := by
  obtain ⟨newer, older, rfl, hnewer, hrest⟩ := h
  refine ⟨e :: newer, older, rfl, fun hvalid e' he' => ?_, hrest⟩
  rcases List.mem_cons.1 he' with rfl | he'
  · exact he
  · exact hnewer hvalid e' he'

theorem Attested.revoke (h : Attested history recipient skill att) (e : Event) :
    Attested (e :: history) recipient skill { att with revoked := true } := by
  obtain ⟨newer, older, rfl, -, hrest⟩ := h
  exact ⟨e :: newer, older, rfl, nofun, hrest⟩

theorem Attested.one_le (h : Attested history recipient skill att) : 1 ≤ att.level := by
  obtain ⟨newer, older, -, -, -, -, hone, -⟩ := h
  exact hone

theorem Attested.justified (h : Attested history recipient skill att) (hvalid : att.revoked = false)
    {minLevel now : ℕ} (hlevel : minLevel ≤ att.level) (hin : now ≤ att.expiresAtLedger) :
    Justified history recipient skill minLevel now := by
  obtain ⟨newer, older, hhistory, hnewer, hself, hauthorised, hone, hfive⟩ := h
  exact ⟨newer, _, _, _, older, hhistory, hnewer hvalid, hself, hauthorised, hone, hfive, hlevel, hin⟩

structure Sound (s : Store) (history : List Event) : Prop where
  fresh : s.admin = none → s.counter = none
  ids : ∀ id claim, s.claims id = some claim → claim.id = id ∧ ∃ n, s.counter = some n ∧ id < n
  verifiers : ∀ verifier skill, s.verifiers (verifier, skill) = authorised verifier skill history
  pending : ∀ recipient skill id, s.pendingClaims (recipient, skill) = some id ↔ IsPending s recipient skill id
  skills : ∀ recipient, (s.recipientSkills recipient).Nodup ∧
    ∀ skill, skill ∈ s.recipientSkills recipient ↔ (s.attestations (recipient, skill)).isSome = true
  attested : ∀ recipient skill att, s.attestations (recipient, skill) = some att →
    Attested history recipient skill att

/-- The index of the pending claims, by pairs. -/
theorem pending_iff : Indexes (fun claim => (claim.recipient, claim.skill)) (fun claim => claim.status = .pending)
      s.claims s.pendingClaims ↔
    ∀ recipient skill id, s.pendingClaims (recipient, skill) = some id ↔ IsPending s recipient skill id := by
  simp only [Indexes, Prod.forall, Prod.mk.injEq, and_assoc, IsPending]

namespace Sound

theorem start : Sound {} [] where
  fresh _ := rfl
  ids _ _ h := nomatch h
  verifiers _ _ := rfl
  pending _ _ _ := ⟨nofun, fun ⟨_, h, _⟩ => nomatch h⟩
  skills _ := ⟨List.nodup_nil, fun _ => by simp⟩
  attested _ _ _ h := nomatch h

theorem setUp (h : Sound s history) (hadmin : s.admin = none) (admin : Address) :
    Sound { s with admin := some admin, counter := some 0 } history := by
  refine ⟨nofun, fun id claim hclaim => ?_, h.verifiers, h.pending, h.skills, h.attested⟩
  obtain ⟨-, n, hn, -⟩ := h.ids id claim hclaim
  rw [h.fresh hadmin] at hn
  cases hn

theorem appoint (h : Sound s history) (authorized : Bool) :
    Sound { s with verifiers := update s.verifiers (verifier, skill) authorized }
      (.appointed verifier skill authorized :: history) := by
  refine ⟨h.fresh, h.ids, fun a k => ?_, h.pending, h.skills, fun r k att hatt => (h.attested r k att hatt).cons nofun⟩
  dsimp only [authorised]
  by_cases hpair : verifier = a ∧ skill = k
  · obtain ⟨rfl, rfl⟩ := hpair
    simp
  · have hne : (a, k) ≠ (verifier, skill) := fun heq => hpair ⟨(congrArg Prod.fst heq).symm, (congrArg Prod.snd heq).symm⟩
    rw [update_of_ne hne, if_neg hpair]
    exact h.verifiers a k

theorem submit (h : Sound s history) (hcounter : s.counter = some claim.id) (hpending : claim.status = .pending)
    (hnone : s.pendingClaims (claim.recipient, claim.skill) = none) :
    Sound { s with
      counter := some (claim.id + 1)
      claims := update s.claims claim.id (some claim)
      pendingClaims := update s.pendingClaims (claim.recipient, claim.skill) (some claim.id) } history := by
  have hlt : ∀ id claim₁, s.claims id = some claim₁ → id < claim.id := by
    intro id claim₁ hclaim₁
    obtain ⟨-, n, hn, hlt⟩ := h.ids id claim₁ hclaim₁
    rwa [← Option.some.inj (hcounter.symm.trans hn)] at hlt
  refine ⟨fun hadmin => ?_, forall_update (fun id claim₁ hclaim₁ => ?_) ⟨rfl, _, rfl, Nat.lt_succ_self _⟩, h.verifiers,
    fun r k id => ?_, h.skills, h.attested⟩
  · cases (h.fresh hadmin).symm.trans hcounter
  · exact ⟨(h.ids id claim₁ hclaim₁).1, _, rfl, (hlt id claim₁ hclaim₁).trans (Nat.lt_succ_self _)⟩
  · have hfresh : s.claims claim.id = none :=
      Option.eq_none_iff_forall_ne_some.2 fun claim₁ hclaim₁ => (hlt _ claim₁ hclaim₁).ne rfl
    exact pending_iff.1 ((pending_iff.2 h.pending).insert hfresh hnone hpending) r k id

/-- A pending claim that is closed leaves the index. -/
theorem close (h : Sound s history) (hrun : closeClaim claim' s = .ok (v, t)) (hclaim : s.claims id = some claim)
    (hpending : claim.status = .pending) (hid : claim'.id = claim.id) (hrecipient : claim'.recipient = claim.recipient)
    (hskill : claim'.skill = claim.skill) (hclosed : claim'.status ≠ .pending) : Sound t history := by
  obtain rfl := modify_ok.1 hrun
  obtain ⟨rfl, n, hn, hlt⟩ := h.ids id claim hclaim
  refine ⟨h.fresh, ?_, h.verifiers, fun r k j => ?_, h.skills, h.attested⟩
  · dsimp only
    rw [hid]
    exact forall_update h.ids ⟨hid, n, hn, hlt⟩
  · have hindex := (pending_iff.2 h.pending).close hclaim hpending hclosed
    rw [← hid, ← hrecipient, ← hskill] at hindex
    exact pending_iff.1 hindex r k j

/-- An approval writes the attestation of the pair and lists the skill the first time. -/
theorem attest (h : Sound s history) (hself : att.verifier ≠ recipient)
    (hverifier : s.verifiers (att.verifier, skill) = true) (hlevel : 1 ≤ att.level) (hmax : att.level ≤ 5) :
    Sound ({ s.listSkill recipient skill with
        attestations := update s.attestations (recipient, skill) (some att) } : Store)
      (.approved recipient skill att.verifier att.level att.expiresAtLedger :: history) := by
  rw [h.verifiers] at hverifier
  have hattested : ∀ r k a, update s.attestations (recipient, skill) (some att) (r, k) = some a →
      Attested (.approved recipient skill att.verifier att.level att.expiresAtLedger :: history) r k a := by
    intro r k a ha
    by_cases hpair : (r, k) = (recipient, skill)
    · obtain ⟨rfl, rfl⟩ := Prod.mk.inj hpair
      rw [update_self] at ha
      obtain rfl := Option.some.inj ha
      exact ⟨[], history, rfl, fun _ => nofun, hself, hverifier, hlevel, hmax⟩
    · rw [update_of_ne hpair] at ha
      refine (h.attested r k a ha).cons ?_
      rintro ⟨rfl, rfl⟩
      exact hpair rfl
  unfold Store.listSkill
  split_ifs with hnone
  · refine ⟨h.fresh, h.ids, h.verifiers, h.pending, fun r => ?_, hattested⟩
    obtain ⟨hnodup, hskills⟩ := h.skills r
    dsimp only
    rcases eq_or_ne r recipient with rfl | hr
    · have hnew : skill ∉ s.recipientSkills r := by
        rw [hskills, hnone]
        simp
      rw [update_self]
      refine ⟨List.nodup_append.2 ⟨hnodup, List.nodup_singleton _, fun a ha b hb hab => hnew ?_⟩, fun k => ?_⟩
      · rwa [← List.mem_singleton.1 hb, ← hab]
      · rw [List.mem_append, List.mem_singleton]
        rcases eq_or_ne k skill with rfl | hk
        · simp
        · have hpair : (r, k) ≠ (r, skill) := fun heq => hk (congrArg Prod.snd heq)
          rw [update_of_ne hpair, ← hskills]
          simp [hk]
    · rw [update_of_ne hr]
      refine ⟨hnodup, fun k => ?_⟩
      have hpair : (r, k) ≠ (recipient, skill) := fun heq => hr (congrArg Prod.fst heq)
      rw [update_of_ne hpair, hskills]
  · refine ⟨h.fresh, h.ids, h.verifiers, h.pending, fun r => ⟨(h.skills r).1, fun k => ?_⟩, hattested⟩
    rw [(h.skills r).2]
    dsimp only
    by_cases hpair : (r, k) = (recipient, skill)
    · rw [hpair, update_self]
      simpa using Option.isSome_iff_ne_none.2 hnone
    · rw [update_of_ne hpair]

theorem revoke (h : Sound s history) (hatt : s.attestations (recipient, skill) = some att) :
    Sound { s with
        attestations := update s.attestations (recipient, skill) (some { att with revoked := true }) }
      (.revoked recipient skill :: history) := by
  refine ⟨h.fresh, h.ids, h.verifiers, h.pending, fun r => ⟨(h.skills r).1, fun k => ?_⟩, fun r k a ha => ?_⟩
  · rw [(h.skills r).2]
    dsimp only
    by_cases hpair : (r, k) = (recipient, skill)
    · rw [hpair, update_self, hatt]
      rfl
    · rw [update_of_ne hpair]
  · dsimp only at ha
    by_cases hpair : (r, k) = (recipient, skill)
    · rw [hpair, update_self] at ha
      obtain ⟨rfl, rfl⟩ := Prod.mk.inj hpair
      obtain rfl := Option.some.inj ha
      exact (h.attested r k att hatt).revoke _
    · rw [update_of_ne hpair] at ha
      refine (h.attested r k a ha).cons ?_
      rintro ⟨rfl, rfl⟩
      exact hpair rfl

theorem consistent (h : Sound s history) : Consistent s history := by
  have hmeets : ∀ env recipient skill minLevel, meetsRequirement env s recipient skill minLevel = true →
      Justified history recipient skill minLevel env.sequence := by
    intro env recipient skill minLevel hmeet
    rw [meetsRequirement, Option.any_eq_true] at hmeet
    obtain ⟨att, hvalid, hlevel⟩ := hmeet
    obtain ⟨hatt, hrevoked, hin⟩ := validAttestation_eq_some.1 hvalid
    exact (h.attested _ _ _ hatt).justified hrevoked (of_decide_eq_true hlevel) hin
  refine ⟨h.pending, fun r k id id' hid hid' => ?_, h.skills, fun env r k hverified => ?_, hmeets,
    fun env rs k minLevel hall r hr => ?_⟩
  · have hfirst := (h.pending r k id).2 hid
    exact Option.some.inj (hfirst.symm.trans ((h.pending r k id').2 hid'))
  · obtain ⟨att, hvalid⟩ := Option.isSome_iff_exists.1 hverified
    obtain ⟨hatt, hrevoked, hin⟩ := validAttestation_eq_some.1 hvalid
    have hattested := h.attested _ _ _ hatt
    exact hattested.justified hrevoked hattested.one_le hin
  · unfold allMeetRequirement at hall
    split_ifs at hall
    exact hmeets env r k minLevel (List.all_eq_true.1 (Except.ok.inj hall) r hr)

end Sound

theorem skillStep_sound (hs : Sound s history) (hrun : skillStep c s = .ok (v, t)) :
    Sound t (recordEvent c history s) := by
  obtain ⟨env, call⟩ := c
  cases call with
  | setUp admin =>
      obtain ⟨hadmin, rfl⟩ := initializeContract_ok hrun
      exact hs.setUp hadmin admin
  | setVerifier admin verifier skill authorized =>
      obtain rfl := setVerifier_ok hrun
      exact hs.appoint authorized
  | submit recipient skill evidenceHash =>
      obtain ⟨n, h⟩ := ignore_ok.1 hrun
      obtain ⟨claim, hcounter, rfl, rfl, hpending, hnone, rfl⟩ := submitClaim_ok h
      exact hs.submit hcounter hpending hnone
  | withdraw recipient id =>
      obtain ⟨claim, hclaim, hpending, hclose⟩ := withdrawClaim_ok hrun
      exact hs.close hclose hclaim hpending rfl rfl rfl nofun
  | approve verifier id level validityLedgers =>
      obtain ⟨hlevel, hmax, claim, hclaim, hpending, hverifier, hself, att, rfl, rfl, hexpires, -, hclose⟩ :=
        approveClaim_ok hrun
      have hhistory : recordEvent (env, .approve att.verifier id att.level validityLedgers) history s =
          .approved claim.recipient claim.skill att.verifier att.level att.expiresAtLedger :: history := by
        simp only [recordEvent, hclaim, Option.elim_some, hexpires]
      rw [hhistory]
      have hclaims : (s.listSkill claim.recipient claim.skill).claims = s.claims := by
        unfold Store.listSkill
        split_ifs <;> rfl
      exact (hs.attest hself.symm hverifier hlevel hmax).close hclose (hclaims ▸ hclaim) hpending rfl rfl rfl nofun
  | reject verifier id reasonHash =>
      obtain ⟨claim, hclaim, hpending, hclose⟩ := rejectClaim_ok hrun
      exact hs.close hclose hclaim hpending rfl rfl rfl nofun
  | revoke caller recipient skill =>
      obtain ⟨att, hatt, rfl⟩ := revoke_ok hrun
      exact hs.revoke hatt

theorem after_sound (calls : List (Ledger Unit × SkillCall)) : Sound (after calls).1 (after calls).2 := by
  refine runAll_invariant (I := fun p : Store × List Event => Sound p.1 p.2) ?_ Sound.start calls
  rintro ⟨s, history⟩ c v ⟨t, history'⟩ hs hrun
  obtain ⟨hcall, rfl⟩ := beside_ok.1 hrun
  exact skillStep_sound hs hcall

/-! ## Closed claims -/

/-- Closing a pending claim leaves the closed ones alone. -/
theorem closeClaim_keeps (hs : Sound s history) {u : Store} (hrun : closeClaim claim' u = .ok (v, t))
    (hu : u.claims = s.claims) {pending : SkillClaim} {j : ℕ} (hj : s.claims j = some pending)
    (hpending : pending.status = .pending) (hid : claim'.id = pending.id) (hclaim : s.claims id = some claim)
    (hclosed : claim.status ≠ .pending) : t.claims id = some claim := by
  obtain rfl := modify_ok.1 hrun
  obtain ⟨rfl, -⟩ := hs.ids j pending hj
  have hne : id ≠ pending.id := by
    rintro rfl
    rw [Option.some.inj (hclaim.symm.trans hj)] at hclosed
    exact hclosed hpending
  dsimp only
  rw [hid, update_of_ne hne, hu, hclaim]

theorem skillStep_keeps (hs : Sound s history) (hrun : skillStep c s = .ok (v, t)) (hclaim : s.claims id = some claim)
    (hclosed : claim.status ≠ .pending) : t.claims id = some claim := by
  obtain ⟨env, call⟩ := c
  cases call with
  | setUp admin =>
      obtain ⟨-, rfl⟩ := initializeContract_ok hrun
      exact hclaim
  | setVerifier admin verifier skill authorized =>
      obtain rfl := setVerifier_ok hrun
      exact hclaim
  | submit recipient skill evidenceHash =>
      obtain ⟨n, h⟩ := ignore_ok.1 hrun
      obtain ⟨new, hcounter, -, -, -, -, rfl⟩ := submitClaim_ok h
      obtain ⟨-, n, hn, hlt⟩ := hs.ids id claim hclaim
      rw [← Option.some.inj (hcounter.symm.trans hn)] at hlt
      exact (update_of_ne hlt.ne _ _).trans hclaim
  | withdraw recipient j =>
      obtain ⟨pending, hj, hpending, hclose⟩ := withdrawClaim_ok hrun
      exact closeClaim_keeps hs hclose rfl hj hpending rfl hclaim hclosed
  | approve verifier j level validityLedgers =>
      obtain ⟨-, -, pending, hj, hpending, -, -, att, -, -, -, -, hclose⟩ := approveClaim_ok hrun
      refine closeClaim_keeps hs hclose ?_ hj hpending rfl hclaim hclosed
      unfold Store.listSkill
      split_ifs <;> rfl
  | reject verifier j reasonHash =>
      obtain ⟨pending, hj, hpending, hclose⟩ := rejectClaim_ok hrun
      exact closeClaim_keeps hs hclose rfl hj hpending rfl hclaim hclosed
  | revoke caller recipient skill =>
      obtain ⟨att, -, rfl⟩ := revoke_ok hrun
      exact hclaim

/-- Whatever the calls, the stores agree and every positive answer is justified by the history, and the
next call leaves the closed claims alone. -/
theorem attestations_justified (calls : List (Ledger Unit × SkillCall)) :
    Consistent (after calls).1 (after calls).2 ∧
      ∀ c t, skillStep c (after calls).1 = .ok ((), t) → ∀ id claim, (after calls).1.claims id = some claim →
        claim.status ≠ .pending → t.claims id = some claim :=
  ⟨(after_sound calls).consistent, fun _ _ hrun _ _ hclaim hclosed =>
    skillStep_keeps (after_sound calls) hrun hclaim hclosed⟩

end StellarSplit.SkillVerification
