import StellarSplit.Lib.Occupancy
import StellarSplit.Lib.Registry
import StellarSplit.Mentorship.Contract

/-!
# Counters of mentors and locks of pairs

The counters of a mentor against the programs: active programs within the capacity, completed ones up
to the bound of the counter, rated ones; and the lock of a pair against its open program.
-/

namespace StellarSplit.Mentorship

open Exec Function Machine Occupancy Registry

/-! ## Runs -/

inductive MentorCall where
  | setUp (admin : Address)
  | register (mentor : Address) (expertise : Symbol) (revenueShareBps maxMentees : ℕ)
  | update (mentor : Address) (revenueShareBps maxMentees : ℕ) (available : Bool)
  | suspend (admin mentor : Address) (suspended : Bool)
  | request (mentee mentor : Address) (durationLedgers : ℕ)
  | accept (mentor : Address) (programId : ℕ)
  | decline (mentor : Address) (programId : ℕ)
  | logSession (mentor : Address) (programId : ℕ)
  | share (mentee : Address) (programId : ℕ) (token : Address) (grossAmount : ℤ)
  | complete (caller : Address) (programId : ℕ)
  | cancel (caller : Address) (programId : ℕ)
  | rate (mentee : Address) (programId rating : ℕ)
deriving DecidableEq

def mentorStep (c : Ledger ℕ × MentorCall) : MentorM Unit :=
  match c.2 with
  | .setUp admin => initializeContract admin
  | .register mentor expertise revenueShareBps maxMentees =>
      registerMentor c.1 mentor expertise revenueShareBps maxMentees
  | .update mentor revenueShareBps maxMentees available =>
      updateMentor c.1 mentor revenueShareBps maxMentees available
  | .suspend admin mentor suspended => setMentorSuspended c.1 admin mentor suspended
  | .request mentee mentor durationLedgers => ignore (requestMentorship c.1 mentee mentor durationLedgers)
  | .accept mentor programId => acceptMentorship c.1 mentor programId
  | .decline mentor programId => declineMentorship c.1 mentor programId
  | .logSession mentor programId => ignore (logSession c.1 mentor programId)
  | .share mentee programId token grossAmount => ignore (shareEarnings c.1 mentee programId token grossAmount)
  | .complete caller programId => completeProgram c.1 caller programId
  | .cancel caller programId => cancelProgram c.1 caller programId
  | .rate mentee programId rating => rateMentor c.1 mentee programId rating

/-! ## The law -/

namespace MentorshipProgram

def isActive (p : MentorshipProgram) : Bool := p.status = .active

def isCompleted (p : MentorshipProgram) : Bool := p.status = .completed

/-- Requested or active. -/
def isOpen (p : MentorshipProgram) : Bool := p.status = .requested ∨ p.status = .active

end MentorshipProgram

/-- How many of the mentor's programs satisfy `p`. -/
def Store.number (s : Store) (p : MentorshipProgram → Bool) (mentor : Address) : ℕ :=
  seats (Finset.range (s.counter.getD 0))
    (fun id => (s.programs id).bind fun program => if p program then some program.mentor else none) mentor

/-- The counters of a profile; `count` is how the counter shows the number of completed programs. -/
structure Counted (count : ℕ → ℕ) (s : Store) (mentor : Address) (profile : MentorProfile) : Prop where
  address : profile.mentor = mentor
  active : profile.activeMentees = s.number MentorshipProgram.isActive mentor
  capacity : profile.activeMentees ≤ profile.maxMentees
  completed : profile.completedPrograms = count (s.number MentorshipProgram.isCompleted mentor)
  rated : profile.ratingCount = s.number MentorshipProgram.rated mentor
  ratingLow : profile.ratingCount ≤ profile.ratingSum
  ratingHigh : profile.ratingSum ≤ 5 * profile.ratingCount

def IsOpen (s : Store) (mentor mentee : Address) (id : ℕ) : Prop :=
  ∃ program, s.programs id = some program ∧ program.mentor = mentor ∧ program.mentee = mentee ∧
    program.isOpen = true

structure Consistent (count : ℕ → ℕ) (s : Store) : Prop where
  profiles : ∀ mentor profile, s.mentors mentor = some profile → Counted count s mentor profile
  pairs : ∀ mentor mentee id, s.openPairs (mentor, mentee) = some id ↔ IsOpen s mentor mentee id
  single : ∀ mentor mentee id id', IsOpen s mentor mentee id → IsOpen s mentor mentee id' → id = id'

/-- A program that is declined, completed or cancelled keeps its status. -/
def KeepsClosed (s t : Store) : Prop :=
  ∀ id program, s.programs id = some program → program.isOpen = false →
    ∃ program', t.programs id = some program' ∧ program'.status = program.status

/-- The counter of completed programs stops at its bound. -/
def saturated (n : ℕ) : ℕ := min n u32Max

theorem satAddU32_saturated (n : ℕ) : satAddU32 (saturated n) 1 = saturated (n + 1) := by
  have hmin : ∀ bound : ℕ, min (min n bound + 1) bound = min (n + 1) bound := by
    intro bound
    omega
  exact hmin u32Max

/-! ## What the calls do -/

variable {env : Ledger ℕ} {s t : Store} {v : Unit} {id n : ℕ} {program program' : MentorshipProgram}
  {profile profile' : MentorProfile} {mentor mentee caller admin : Address} {c : Ledger ℕ × MentorCall}

section Calls

theorem loadMentor_bind {β : Type} {k : MentorProfile → MentorM β} {r : β × Store} :
    (loadMentor mentor >>= k) s = .ok r ↔ ∃ profile, s.mentors mentor = some profile ∧ k profile s = .ok r := by
  simp only [loadMentor, bind_assoc, get_bind, orError_bind]

theorem loadProgram_bind {β : Type} {k : MentorshipProgram → MentorM β} {r : β × Store} :
    (loadProgram id >>= k) s = .ok r ↔ ∃ program, s.programs id = some program ∧ k program s = .ok r := by
  simp only [loadProgram, bind_assoc, get_bind, orError_bind]

theorem saveMentor_bind {β : Type} {k : Unit → MentorM β} {r : β × Store} :
    (saveMentor profile >>= k) s = .ok r ↔
      k () { s with mentors := update s.mentors profile.mentor (some profile) } = .ok r := by
  simp only [saveMentor, bind_ok, modify_ok]
  constructor
  · rintro ⟨_, _, rfl, h⟩
    exact h
  · exact fun h => ⟨(), _, rfl, h⟩

@[simp] theorem saveMentor_ok :
    saveMentor profile s = .ok (v, t) ↔ { s with mentors := update s.mentors profile.mentor (some profile) } = t := by
  simp [saveMentor]

@[simp] theorem saveProgram_ok :
    saveProgram program s = .ok (v, t) ↔ { s with programs := update s.programs program.id (some program) } = t := by
  simp [saveProgram]

theorem validateTerms_bind {β : Type} {share capacity : ℕ} {k : Unit → MentorM β} {r : β × Store} :
    (validateTerms share capacity >>= k) s = .ok r ↔
      share ≤ maxRevenueShareBps ∧ (capacity ≠ 0 ∧ capacity ≤ maxMenteesPerMentor) ∧ k () s = .ok r := by
  simp only [validateTerms, bind_assoc, require_bind]

theorem initializeContract_ok (hrun : initializeContract admin s = .ok (v, t)) :
    s.admin = none ∧ t = { s with admin := some admin, counter := some 0 } := by
  simp only [initializeContract, get_bind, require_bind, set_ok, Option.isNone_iff_eq_none] at hrun
  exact ⟨hrun.1, hrun.2.symm⟩

theorem registerMentor_ok {expertise : Symbol} {share capacity : ℕ}
    (hrun : registerMentor env mentor expertise share capacity s = .ok (v, t)) :
    s.mentors mentor = none ∧ ∃ profile : MentorProfile, profile.mentor = mentor ∧ profile.activeMentees = 0 ∧
      profile.completedPrograms = 0 ∧ profile.ratingSum = 0 ∧ profile.ratingCount = 0 ∧
      t = { s with mentors := update s.mentors mentor (some profile) } := by
  simp only [registerMentor, requireAuth_bind, get_bind, require_bind, validateTerms_bind, saveMentor_ok,
    Option.isNone_iff_eq_none] at hrun
  obtain ⟨-, -, hnone, -, -, rfl⟩ := hrun
  exact ⟨hnone, _, rfl, rfl, rfl, rfl, rfl, rfl⟩

/-- The settings of a profile change within its capacity, and nothing else does. -/
def Settings (profile profile' : MentorProfile) : Prop :=
  ∃ share capacity available suspended, profile.activeMentees ≤ capacity ∧
    profile' = { profile with
      revenueShareBps := share, maxMentees := capacity, available := available, suspended := suspended }

theorem updateMentor_ok {share capacity : ℕ} {available : Bool}
    (hrun : updateMentor env mentor share capacity available s = .ok (v, t)) :
    ∃ profile profile', s.mentors mentor = some profile ∧ Settings profile profile' ∧
      t = { s with mentors := update s.mentors profile.mentor (some profile') } := by
  simp only [updateMentor, requireAuth_bind, loadMentor_bind, validateTerms_bind, require_bind, saveMentor_ok] at hrun
  obtain ⟨-, profile, hprofile, -, -, hcapacity, rfl⟩ := hrun
  exact ⟨profile, _, hprofile, ⟨_, _, _, _, hcapacity, rfl⟩, rfl⟩

theorem setMentorSuspended_ok {suspended : Bool} (hrun : setMentorSuspended env admin mentor suspended s = .ok (v, t)) :
    ∃ profile, s.mentors mentor = some profile ∧
      t = { s with mentors := update s.mentors profile.mentor (some { profile with suspended := suspended }) } := by
  simp only [setMentorSuspended, requireAdmin, bind_assoc, get_bind, orError_bind, require_bind, requireAuth_bind,
    loadMentor_bind, saveMentor_ok] at hrun
  obtain ⟨-, -, -, -, profile, hprofile, rfl⟩ := hrun
  exact ⟨profile, hprofile, rfl⟩

theorem requestMentorship_ok {duration : ℕ} (hrun : requestMentorship env mentee mentor duration s = .ok (n, t)) :
    ∃ program : MentorshipProgram, s.counter = some program.id ∧ program.mentor = mentor ∧ program.mentee = mentee ∧
      program.status = .requested ∧ program.durationLedgers = duration ∧ program.rated = false ∧
      (∃ profile, s.mentors program.mentor = some profile) ∧
      s.openPairs (program.mentor, program.mentee) = none ∧
      ∃ mentorPrograms menteePrograms,
        t = { s with
          counter := some (program.id + 1)
          programs := update s.programs program.id (some program)
          openPairs := update s.openPairs (program.mentor, program.mentee) (some program.id)
          mentorPrograms := mentorPrograms
          menteePrograms := menteePrograms } := by
  simp only [requestMentorship, requireAuth_bind, require_bind, loadMentor_bind, get_bind, orError_bind,
    Option.isNone_iff_eq_none] at hrun
  obtain ⟨-, -, -, profile, hprofile, -, hnone, id, hid, next, hnext, hrun⟩ := hrun
  obtain ⟨_, u, hset, hrun⟩ := bind_ok.1 hrun
  obtain rfl := set_ok.1 hset
  obtain ⟨-, rfl⟩ := pure_ok.1 hrun
  obtain rfl := checkedAddU64_eq hnext
  exact ⟨⟨id, mentor, mentee, .requested, profile.revenueShareBps, duration, env.now, 0, 0, 0, 0, false⟩, hid, rfl, rfl,
    rfl, rfl, rfl, ⟨profile, hprofile⟩, hnone, _, _, rfl⟩

theorem acceptMentorship_ok (hrun : acceptMentorship env mentor id s = .ok (v, t)) :
    ∃ program profile share start endLedger, s.programs id = some program ∧ program.status = .requested ∧
      s.mentors program.mentor = some profile ∧ profile.activeMentees < profile.maxMentees ∧
      t = { s with
        mentors := update s.mentors profile.mentor (some { profile with activeMentees := profile.activeMentees + 1 })
        programs := update s.programs program.id
          (some { program with
            status := .active, revenueShareBps := share, startLedger := start, endLedger := endLedger }) } := by
  simp only [acceptMentorship, requireAuth_bind, loadProgram_bind, require_bind, loadMentor_bind, orError_bind,
    saveMentor_bind, saveProgram_ok] at hrun
  obtain ⟨-, program, hprogram, rfl, hrequested, profile, hprofile, -, hroom, endLedger, -, -, rfl⟩ := hrun
  exact ⟨program, profile, _, _, _, hprogram, hrequested, hprofile, hroom, rfl⟩

theorem declineMentorship_ok (hrun : declineMentorship env mentor id s = .ok (v, t)) :
    ∃ program, s.programs id = some program ∧ program.status = .requested ∧
      t = { s with
        openPairs := update s.openPairs (program.mentor, program.mentee) none
        programs := update s.programs program.id (some { program with status := .declined }) } := by
  simp only [declineMentorship, requireAuth_bind, loadProgram_bind, require_bind] at hrun
  obtain ⟨-, program, hprogram, -, hrequested, hrun⟩ := hrun
  obtain ⟨_, u, hslot, hrun⟩ := bind_ok.1 hrun
  rw [releaseSlot, bind_ok] at hslot
  obtain ⟨_, w, hfree, hlock⟩ := hslot
  rw [onlyIf_ok] at hfree
  obtain rfl : s = w := hfree.elim (fun h => absurd h.1 Bool.false_ne_true) fun h => h.2
  obtain rfl := modify_ok.1 hlock
  obtain rfl := saveProgram_ok.1 hrun
  exact ⟨program, hprogram, hrequested, rfl⟩

theorem logSession_ok (hrun : logSession env mentor id s = .ok (n, t)) :
    ∃ program sessions, s.programs id = some program ∧ program.status = .active ∧
      t = { s with programs := update s.programs program.id (some { program with sessions := sessions }) } := by
  simp only [logSession, requireAuth_bind, loadProgram_bind, require_bind, orError_bind] at hrun
  obtain ⟨-, program, hprogram, -, hactive, sessions, -, hrun⟩ := hrun
  obtain ⟨_, u, hsave, hrun⟩ := bind_ok.1 hrun
  obtain rfl := saveProgram_ok.1 hsave
  obtain ⟨-, rfl⟩ := pure_ok.1 hrun
  exact ⟨program, sessions, hprogram, hactive, rfl⟩

theorem shareEarnings_ok {token : Address} {gross share : ℤ}
    (hrun : shareEarnings env mentee id token gross s = .ok (share, t)) :
    ∃ program total log, s.programs id = some program ∧ program.status = .active ∧
      t = { s with
        programs := update s.programs program.id (some { program with totalShared := total }), log := log } := by
  simp only [shareEarnings, requireAuth_bind, require_bind, loadProgram_bind, orError_bind] at hrun
  obtain ⟨-, -, program, hprogram, -, hactive, -, scaled, -, hrun⟩ := hrun
  obtain ⟨_, u, hpay, hrun⟩ := bind_ok.1 hrun
  obtain ⟨log, rfl⟩ : ∃ log, u = { s with log := log } := by
    rcases onlyIf_ok.1 hpay with ⟨-, htransfer⟩ | ⟨-, rfl⟩
    · rw [get_bind, require_bind, set_ok] at htransfer
      exact ⟨_, htransfer.2.symm⟩
    · exact ⟨s.log, rfl⟩
  rw [orError_bind] at hrun
  obtain ⟨total, -, hrun⟩ := hrun
  obtain ⟨_, u, hsave, hrun⟩ := bind_ok.1 hrun
  obtain rfl := saveProgram_ok.1 hsave
  obtain ⟨-, rfl⟩ := pure_ok.1 hrun
  exact ⟨program, total, log, hprogram, hactive, rfl⟩

/-- A slot that is released goes back to the profile that is stored under its own address. -/
theorem releaseSlot_ok (hrun : releaseSlot program true s = .ok (v, t)) :
    ∃ profile, s.mentors program.mentor = some profile ∧
      t = { s with
        mentors := update s.mentors profile.mentor (some { profile with activeMentees := profile.activeMentees - 1 })
        openPairs := update s.openPairs (program.mentor, program.mentee) none } := by
  rw [releaseSlot, bind_ok] at hrun
  obtain ⟨_, u, hfree, hlock⟩ := hrun
  rw [onlyIf_ok] at hfree
  obtain ⟨-, hfree⟩ := hfree.resolve_right fun h => h.1 rfl
  rw [loadMentor_bind] at hfree
  obtain ⟨profile, hprofile, hsave⟩ := hfree
  obtain rfl := saveMentor_ok.1 hsave
  obtain rfl := modify_ok.1 hlock
  exact ⟨profile, hprofile, rfl⟩

theorem completeProgram_ok (hself : ∀ mentor profile, s.mentors mentor = some profile → profile.mentor = mentor)
    (hrun : completeProgram env caller id s = .ok (v, t)) :
    ∃ program profile, s.programs id = some program ∧ program.status = .active ∧
      s.mentors program.mentor = some profile ∧
      t = { s with
        mentors := update s.mentors profile.mentor
          (some { profile with
            activeMentees := profile.activeMentees - 1
            completedPrograms := satAddU32 profile.completedPrograms 1 })
        openPairs := update s.openPairs (program.mentor, program.mentee) none
        programs := update s.programs program.id (some { program with status := .completed }) } := by
  simp only [completeProgram, requireAuth_bind, loadProgram_bind, require_bind] at hrun
  obtain ⟨-, program, hprogram, hactive, hrun⟩ := hrun
  obtain ⟨_, u, hallowed, hrun⟩ := bind_ok.1 hrun
  obtain rfl : s = u := by
    split_ifs at hallowed
    · exact (require_ok.1 hallowed).2
    · exact (require_ok.1 hallowed).2
  obtain ⟨_, u, hslot, hrun⟩ := bind_ok.1 hrun
  obtain ⟨profile, hprofile, rfl⟩ := releaseSlot_ok hslot
  have hmentor := hself _ _ hprofile
  rw [loadMentor_bind] at hrun
  obtain ⟨profile', hprofile', hrun⟩ := hrun
  dsimp only at hprofile hprofile' hmentor
  rw [← hmentor, update_self] at hprofile'
  obtain rfl := Option.some.inj hprofile'
  rw [saveMentor_bind, saveProgram_ok] at hrun
  refine ⟨program, profile, hprogram, hactive, hprofile, ?_⟩
  rw [← hrun]
  dsimp only
  rw [update_idem]

theorem cancelProgram_ok (hrun : cancelProgram env caller id s = .ok (v, t)) :
    ∃ program, s.programs id = some program ∧
      ((program.status = .requested ∧
        t = { s with
          openPairs := update s.openPairs (program.mentor, program.mentee) none
          programs := update s.programs program.id (some { program with status := .cancelled }) }) ∨
      (program.status = .active ∧ ∃ profile, s.mentors program.mentor = some profile ∧
        t = { s with
          mentors := update s.mentors profile.mentor (some { profile with activeMentees := profile.activeMentees - 1 })
          openPairs := update s.openPairs (program.mentor, program.mentee) none
          programs := update s.programs program.id (some { program with status := .cancelled }) })) := by
  simp only [cancelProgram, requireAuth_bind, loadProgram_bind, require_bind] at hrun
  obtain ⟨-, program, hprogram, -, hstatus, hrun⟩ := hrun
  refine ⟨program, hprogram, ?_⟩
  obtain ⟨_, u, hslot, hrun⟩ := bind_ok.1 hrun
  obtain rfl := saveProgram_ok.1 hrun
  rcases hstatus with hrequested | hactive
  · rw [hrequested, releaseSlot, bind_ok] at hslot
    obtain ⟨_, w, hfree, hlock⟩ := hslot
    rw [onlyIf_ok] at hfree
    obtain rfl : s = w := hfree.elim (fun h => absurd h.1 Bool.false_ne_true) fun h => h.2
    obtain rfl := modify_ok.1 hlock
    exact .inl ⟨hrequested, rfl⟩
  · rw [hactive] at hslot
    obtain ⟨profile, hprofile, rfl⟩ := releaseSlot_ok hslot
    exact .inr ⟨hactive, profile, hprofile, rfl⟩

theorem rateMentor_ok {rating : ℕ} (hrun : rateMentor env mentee id rating s = .ok (v, t)) :
    1 ≤ rating ∧ rating ≤ 5 ∧ ∃ program profile, s.programs id = some program ∧ program.status = .completed ∧
      program.rated = false ∧ s.mentors program.mentor = some profile ∧
      t = { s with
        mentors := update s.mentors profile.mentor
          (some { profile with
            ratingSum := profile.ratingSum + rating, ratingCount := profile.ratingCount + 1 })
        programs := update s.programs program.id (some { program with rated := true }) } := by
  simp only [rateMentor, requireAuth_bind, require_bind, loadProgram_bind, loadMentor_bind, orError_bind,
    saveMentor_bind, saveProgram_ok] at hrun
  obtain ⟨-, ⟨hzero, hfive⟩, program, hprogram, -, hcompleted, hrated, profile, hprofile, ratingSum, hsum, ratingCount,
    hcount, rfl⟩ := hrun
  obtain rfl := checkedAddU32_eq hsum
  obtain rfl := checkedAddU32_eq hcount
  exact ⟨Nat.one_le_iff_ne_zero.2 hzero, hfive, program, profile, hprogram, hcompleted, hrated, hprofile, rfl⟩

end Calls

/-! ## The invariant -/

/-- The counters stand for the programs, every program has a profile, and the locks are on the open
programs. -/
structure Sound (s : Store) : Prop where
  fresh : s.admin = none → s.counter = none
  ids : ∀ id program, s.programs id = some program → program.id = id ∧ ∃ n, s.counter = some n ∧ id < n
  registered : ∀ id program, s.programs id = some program → ∃ profile, s.mentors program.mentor = some profile
  profiles : ∀ mentor profile, s.mentors mentor = some profile → Counted saturated s mentor profile
  pairs : ∀ mentor mentee id, s.openPairs (mentor, mentee) = some id ↔ IsOpen s mentor mentee id

theorem Sound.lt_counter (h : Sound s) (hprogram : s.programs id = some program) : id < s.counter.getD 0 := by
  obtain ⟨-, n, hn, hlt⟩ := h.ids id program hprogram
  rwa [hn, Option.getD_some]

/-- The number of programs depends on the programs and how many there are. -/
theorem number_congr (hprograms : t.programs = s.programs) (hcounter : t.counter = s.counter)
    (p : MentorshipProgram → Bool) (mentor : Address) : t.number p mentor = s.number p mentor := by
  unfold Store.number
  rw [hprograms, hcounter]

theorem Counted.of_number {count : ℕ → ℕ} (h : Counted count s mentor profile)
    (hactive : t.number MentorshipProgram.isActive mentor = s.number MentorshipProgram.isActive mentor)
    (hcompleted : t.number MentorshipProgram.isCompleted mentor = s.number MentorshipProgram.isCompleted mentor)
    (hrated : t.number MentorshipProgram.rated mentor = s.number MentorshipProgram.rated mentor) :
    Counted count t mentor profile := by
  refine ⟨h.address, ?_, h.capacity, ?_, ?_, h.ratingLow, h.ratingHigh⟩
  · rw [hactive, h.active]
  · rw [hcompleted, h.completed]
  · rw [hrated, h.rated]

theorem Counted.congr {count : ℕ → ℕ} (h : Counted count s mentor profile) (hprograms : t.programs = s.programs)
    (hcounter : t.counter = s.counter) : Counted count t mentor profile :=
  h.of_number (number_congr hprograms hcounter _ _) (number_congr hprograms hcounter _ _)
    (number_congr hprograms hcounter _ _)

/-- Rewriting one program counts it anew. -/
theorem number_update (hid : id < s.counter.getD 0) (hprogram : s.programs id = some program)
    (hprograms : t.programs = update s.programs id (some program')) (hcounter : t.counter = s.counter)
    (hmentor : program'.mentor = program.mentor) (p : MentorshipProgram → Bool) (mentor : Address) :
    t.number p mentor + (if p program = true ∧ program.mentor = mentor then 1 else 0) =
      s.number p mentor + if p program' = true ∧ program.mentor = mentor then 1 else 0 := by
  have hheld : ∀ q : MentorshipProgram, ((if p q = true then some q.mentor else none : Option Address) = some mentor) ↔
      p q = true ∧ q.mentor = mentor := by
    intro q
    split_ifs with hq <;> simp [hq]
  have hchange := seats_change
    (f := fun j => (s.programs j).bind fun q => if p q then some q.mentor else none)
    (g := fun j => (t.programs j).bind fun q => if p q then some q.mentor else none)
    (Finset.mem_range.2 hid) (fun j hj => by rw [hprograms, update_of_ne hj]) mentor
  unfold Store.number
  simp only [hprogram, hprograms, update_self, Option.bind_some, hheld] at hchange
  rw [hmentor] at hchange
  rw [hprograms, hcounter]
  exact hchange

/-- A new program counts for its mentor. -/
theorem number_request (hcounter : s.counter = some id) (hprograms : t.programs = update s.programs id (some program'))
    (hnext : t.counter = some (id + 1)) (p : MentorshipProgram → Bool) (mentor : Address) :
    t.number p mentor = s.number p mentor + if p program' = true ∧ program'.mentor = mentor then 1 else 0 := by
  unfold Store.number
  rw [hcounter, hnext, Option.getD_some, Option.getD_some, seats_range_succ, hprograms]
  have hrest : seats (Finset.range id)
      (fun j => (update s.programs id (some program') j).bind fun q => if p q then some q.mentor else none) mentor =
        seats (Finset.range id) (fun j => (s.programs j).bind fun q => if p q then some q.mentor else none) mentor :=
    seats_congr (fun j hj => by rw [update_of_ne (Finset.mem_range.1 hj).ne]) mentor
  rw [hrest, update_self, Option.bind_some]
  congr 1
  split_ifs with hp <;> simp_all

/-- The locks are an index of the open programs, by pairs. -/
theorem pairs_iff : Indexes (fun program => (program.mentor, program.mentee)) (fun program => program.isOpen = true)
      s.programs s.openPairs ↔
    ∀ mentor mentee id, s.openPairs (mentor, mentee) = some id ↔ IsOpen s mentor mentee id := by
  simp only [Indexes, Prod.forall, Prod.mk.injEq, and_assoc, IsOpen]

namespace Sound

theorem start : Sound {} where
  fresh _ := rfl
  ids _ _ h := nomatch h
  registered _ _ h := nomatch h
  profiles _ _ h := nomatch h
  pairs _ _ _ := ⟨nofun, fun ⟨_, h, _⟩ => nomatch h⟩

theorem setUp (h : Sound s) (hadmin : s.admin = none) (admin : Address) :
    Sound { s with admin := some admin, counter := some 0 } := by
  have hempty : ∀ id, s.programs id = none := by
    intro id
    cases hprogram : s.programs id with
    | none => rfl
    | some program =>
        obtain ⟨-, n, hn, -⟩ := h.ids id program hprogram
        cases (h.fresh hadmin).symm.trans hn
  refine ⟨nofun, fun id program hprogram => ?_, h.registered, fun mentor profile hprofile => ?_, h.pairs⟩
  · cases (hempty id).symm.trans hprogram
  · have hnumber : ∀ p, Store.number { s with admin := some admin, counter := some 0 } p mentor =
        s.number p mentor := by
      intro p
      unfold Store.number
      rw [h.fresh hadmin]
      rfl
    exact (h.profiles mentor profile hprofile).of_number (hnumber _) (hnumber _) (hnumber _)

/-- An address without a profile has no programs. -/
theorem number_eq_zero (h : Sound s) (hnone : s.mentors mentor = none) (p : MentorshipProgram → Bool) :
    s.number p mentor = 0 := by
  unfold Store.number seats
  rw [Finset.card_eq_zero, Finset.filter_eq_empty_iff]
  intro id _ hheld
  obtain ⟨program, hprogram, hp⟩ := Option.bind_eq_some_iff.1 hheld
  obtain ⟨profile, hprofile⟩ := h.registered id program hprogram
  split_ifs at hp
  rw [Option.some.inj hp, hnone] at hprofile
  cases hprofile

theorem register (h : Sound s) (hnone : s.mentors mentor = none) (hself : profile.mentor = mentor)
    (hactive : profile.activeMentees = 0) (hcompleted : profile.completedPrograms = 0) (hsum : profile.ratingSum = 0)
    (hcount : profile.ratingCount = 0) : Sound { s with mentors := update s.mentors mentor (some profile) } := by
  refine ⟨h.fresh, h.ids, fun id program hprogram => ?_, fun m profile₁ hprofile => ?_, h.pairs⟩
  · obtain ⟨profile₁, hprofile⟩ := h.registered id program hprogram
    rcases eq_or_ne program.mentor mentor with hm | hm
    · rw [hm, hnone] at hprofile
      cases hprofile
    · exact ⟨profile₁, (update_of_ne hm _ _).trans hprofile⟩
  · rcases update_cases hprofile with ⟨rfl, rfl⟩ | ⟨-, hold⟩
    · have hzero : ∀ p, Store.number { s with mentors := update s.mentors m (some profile₁) } p m = 0 :=
        fun p => (number_congr rfl rfl p m).trans (h.number_eq_zero hnone p)
      refine ⟨hself, ?_, by omega, ?_, ?_, by omega, by omega⟩
      · rw [hzero, hactive]
      · rw [hzero, hcompleted]
        rfl
      · rw [hzero, hcount]
    · exact (h.profiles m profile₁ hold).congr rfl rfl

theorem settings (h : Sound s) (hprofile : s.mentors mentor = some profile) (hsettings : Settings profile profile') :
    Sound { s with mentors := update s.mentors profile.mentor (some profile') } := by
  obtain ⟨share, capacity, available, suspended, hcapacity, rfl⟩ := hsettings
  obtain rfl : profile.mentor = mentor := (h.profiles mentor profile hprofile).address
  refine ⟨h.fresh, h.ids, fun id program hprogram => ?_, fun m profile₁ hprofile₁ => ?_, h.pairs⟩
  · rcases eq_or_ne program.mentor profile.mentor with hm | hm
    · exact ⟨_, (congrArg _ hm).trans (update_self ..)⟩
    · obtain ⟨profile₁, hprofile₁⟩ := h.registered id program hprogram
      exact ⟨profile₁, (update_of_ne hm _ _).trans hprofile₁⟩
  · rcases update_cases hprofile₁ with ⟨rfl, rfl⟩ | ⟨-, hold⟩
    · have hcounted := h.profiles _ profile hprofile
      exact ⟨rfl, hcounted.active, hcapacity, hcounted.completed, hcounted.rated, hcounted.ratingLow,
        hcounted.ratingHigh⟩
    · exact (h.profiles m profile₁ hold).congr rfl rfl

theorem request (h : Sound s) (hcounter : s.counter = some program.id) (hstatus : program.status = .requested)
    (hrated : program.rated = false) (hmentor : ∃ profile, s.mentors program.mentor = some profile)
    (hnone : s.openPairs (program.mentor, program.mentee) = none) {mentorPrograms menteePrograms : Address → List ℕ} :
    Sound { s with
      counter := some (program.id + 1)
      programs := update s.programs program.id (some program)
      openPairs := update s.openPairs (program.mentor, program.mentee) (some program.id)
      mentorPrograms := mentorPrograms
      menteePrograms := menteePrograms } := by
  have hlt : ∀ id program₁, s.programs id = some program₁ → id < program.id := by
    intro id program₁ hprogram₁
    have hbound := h.lt_counter hprogram₁
    rwa [hcounter, Option.getD_some] at hbound
  have hopen : program.isOpen = true := by simp [MentorshipProgram.isOpen, hstatus]
  refine ⟨fun hadmin => ?_, forall_update (fun id program₁ hprogram₁ => ?_) ⟨rfl, _, rfl, Nat.lt_succ_self _⟩,
    forall_update h.registered hmentor, fun m profile hprofile => ?_, fun m e id => ?_⟩
  · cases (h.fresh hadmin).symm.trans hcounter
  · exact ⟨(h.ids id program₁ hprogram₁).1, _, rfl, (hlt id program₁ hprogram₁).trans (Nat.lt_succ_self _)⟩
  · have hnumber : ∀ p : MentorshipProgram → Bool, p program = false →
        Store.number { s with
          counter := some (program.id + 1)
          programs := update s.programs program.id (some program)
          openPairs := update s.openPairs (program.mentor, program.mentee) (some program.id)
          mentorPrograms := mentorPrograms
          menteePrograms := menteePrograms } p m = s.number p m := by
      intro p hp
      rw [number_request hcounter rfl rfl, hp]
      simp
    refine (h.profiles m profile hprofile).of_number (hnumber _ ?_) (hnumber _ ?_) (hnumber _ hrated)
    · simp [MentorshipProgram.isActive, hstatus]
    · simp [MentorshipProgram.isCompleted, hstatus]
  · have hfresh : s.programs program.id = none :=
      Option.eq_none_iff_forall_ne_some.2 fun program₁ hprogram₁ => (hlt _ program₁ hprogram₁).ne rfl
    exact pairs_iff.1 ((pairs_iff.2 h.pairs).insert hfresh hnone hopen) m e id

/-- One program and the profile of its mentor are written anew: the counters follow the status and the
rating of the program, and the lock of the pair goes when the program closes. -/
theorem change (h : Sound s) (hprogram : s.programs id = some program)
    (hprofile : s.mentors program.mentor = some profile)
    (hadmin : t.admin = s.admin) (hcounter : t.counter = s.counter)
    (hmentors : t.mentors = update s.mentors profile.mentor (some profile'))
    (hprograms : t.programs = update s.programs program.id (some program'))
    (hid : program'.id = program.id) (hmentor : program'.mentor = program.mentor)
    (hmentee : program'.mentee = program.mentee) (hself : profile'.mentor = profile.mentor)
    (hactive : profile'.activeMentees + (if program.isActive then 1 else 0) =
      profile.activeMentees + if program'.isActive then 1 else 0)
    (hcapacity : profile'.activeMentees ≤ profile'.maxMentees)
    (hcompleted : profile'.completedPrograms = profile.completedPrograms ∧ program'.isCompleted = program.isCompleted ∨
      profile'.completedPrograms = satAddU32 profile.completedPrograms 1 ∧ program.isCompleted = false ∧
        program'.isCompleted = true)
    (hcount : profile'.ratingCount + (if program.rated then 1 else 0) =
      profile.ratingCount + if program'.rated then 1 else 0)
    (hlow : profile'.ratingCount ≤ profile'.ratingSum) (hhigh : profile'.ratingSum ≤ 5 * profile'.ratingCount)
    (hopen : t.openPairs = s.openPairs ∧ program'.isOpen = program.isOpen ∨
      t.openPairs = update s.openPairs (program.mentor, program.mentee) none ∧ program.isOpen = true ∧
        program'.isOpen = false) : Sound t := by
  obtain rfl : program.id = id := (h.ids id program hprogram).1
  have hm : profile.mentor = program.mentor := (h.profiles _ profile hprofile).address
  rw [hm] at hmentors
  have hnumber := number_update (h.lt_counter hprogram) hprogram hprograms hcounter hmentor
  refine ⟨fun hnone => ?_, ?_, ?_, fun m profile₁ hprofile₁ => ?_, fun m e j => ?_⟩
  · rw [hcounter, h.fresh (hadmin.symm.trans hnone)]
  · rw [hprograms, hcounter]
    exact forall_update h.ids ⟨hid, (h.ids _ program hprogram).2⟩
  · have hkept : ∀ m, (∃ profile₁, s.mentors m = some profile₁) → ∃ profile₁, t.mentors m = some profile₁ := by
      rintro m ⟨profile₁, hprofile₁⟩
      rw [hmentors]
      rcases eq_or_ne m program.mentor with rfl | hne
      · exact ⟨_, update_self ..⟩
      · exact ⟨profile₁, (update_of_ne hne _ _).trans hprofile₁⟩
    rw [hprograms]
    refine forall_update (fun j program₁ hprogram₁ => hkept _ (h.registered j program₁ hprogram₁)) (hkept _ ?_)
    exact ⟨profile, by rw [hmentor, hprofile]⟩
  · rw [hmentors] at hprofile₁
    rcases update_cases hprofile₁ with ⟨rfl, rfl⟩ | ⟨hne, hold⟩
    · have hcounted := h.profiles _ profile hprofile
      have hactives := hnumber MentorshipProgram.isActive program.mentor
      have hcompletes := hnumber MentorshipProgram.isCompleted program.mentor
      have hrates := hnumber MentorshipProgram.rated program.mentor
      simp only [and_true] at hactives hcompletes hrates
      refine ⟨hself.trans hm, ?_, hcapacity, ?_, ?_, hlow, hhigh⟩
      · have hbefore := hcounted.active
        omega
      · rcases hcompleted with ⟨hsame, hstatus⟩ | ⟨hnext, hbefore, hafter⟩
        · rw [hstatus, Nat.add_right_cancel_iff] at hcompletes
          rw [hsame, hcounted.completed, hcompletes]
        · rw [hbefore, hafter, if_neg Bool.false_ne_true, if_pos rfl, add_zero] at hcompletes
          rw [hnext, hcounted.completed, hcompletes, satAddU32_saturated]
      · have hbefore := hcounted.rated
        omega
    · have hsame : ∀ p : MentorshipProgram → Bool, t.number p m = s.number p m := by
        intro p
        have hchange := hnumber p m
        rwa [if_neg fun hp => hne hp.2.symm, if_neg fun hp => hne hp.2.symm] at hchange
      exact (h.profiles m profile₁ hold).of_number (hsame _) (hsame _) (hsame _)
  · have hindex : Indexes (fun program => (program.mentor, program.mentee)) (fun program => program.isOpen = true)
        t.programs t.openPairs := by
      rw [hprograms]
      rcases hopen with ⟨hlocks, hsame⟩ | ⟨hlocks, hwas, hnow⟩
      · rw [hlocks]
        exact (pairs_iff.2 h.pairs).rewrite hprogram (by rw [hmentor, hmentee]) (by rw [hsame])
      · rw [hlocks]
        exact (pairs_iff.2 h.pairs).close hprogram hwas (by rw [hnow]; exact Bool.false_ne_true)
    exact pairs_iff.1 hindex m e j

/-- A mentor with an active program has a slot in use. -/
theorem active_pos (h : Sound s) (hprogram : s.programs id = some program) (hactive : program.status = .active)
    (hprofile : s.mentors program.mentor = some profile) : 1 ≤ profile.activeMentees := by
  rw [(h.profiles _ profile hprofile).active]
  unfold Store.number seats
  refine Finset.card_pos.2 ⟨id, ?_⟩
  simp [h.lt_counter hprogram, hprogram, MentorshipProgram.isActive, hactive]

theorem accept (h : Sound s) (hprogram : s.programs id = some program) (hrequested : program.status = .requested)
    (hprofile : s.mentors program.mentor = some profile) (hroom : profile.activeMentees < profile.maxMentees)
    {share start endLedger : ℕ} :
    Sound { s with
      mentors := update s.mentors profile.mentor (some { profile with activeMentees := profile.activeMentees + 1 })
      programs := update s.programs program.id
        (some { program with
          status := .active, revenueShareBps := share, startLedger := start, endLedger := endLedger }) } := by
  have hcounted := h.profiles _ profile hprofile
  refine h.change hprogram hprofile rfl rfl rfl rfl rfl rfl rfl rfl ?_ hroom (.inl ⟨rfl, ?_⟩) rfl hcounted.ratingLow
    hcounted.ratingHigh (.inl ⟨rfl, ?_⟩)
  · simp [MentorshipProgram.isActive, hrequested]
  · simp [MentorshipProgram.isCompleted, hrequested]
  · simp [MentorshipProgram.isOpen, hrequested]

/-- A requested program that is declined or cancelled frees the lock only. -/
theorem closeRequested (h : Sound s) (hprogram : s.programs id = some program)
    (hrequested : program.status = .requested) {status : ProgramStatus}
    (hstatus : status = .declined ∨ status = .cancelled) :
    Sound { s with
      openPairs := update s.openPairs (program.mentor, program.mentee) none
      programs := update s.programs program.id (some { program with status := status }) } := by
  obtain ⟨profile, hprofile⟩ := h.registered id program hprogram
  have hcounted := h.profiles _ profile hprofile
  have hkept : s.mentors = update s.mentors profile.mentor (some profile) := by
    rw [hcounted.address, ← hprofile, update_eq_self]
  refine h.change hprogram hprofile rfl rfl hkept rfl rfl rfl rfl rfl ?_ hcounted.capacity (.inl ⟨rfl, ?_⟩) rfl
    hcounted.ratingLow hcounted.ratingHigh (.inr ⟨rfl, ?_, ?_⟩)
  · rcases hstatus with rfl | rfl <;> simp [MentorshipProgram.isActive, hrequested]
  · rcases hstatus with rfl | rfl <;> simp [MentorshipProgram.isCompleted, hrequested]
  · simp [MentorshipProgram.isOpen, hrequested]
  · rcases hstatus with rfl | rfl <;> rfl

theorem cancelActive (h : Sound s) (hprogram : s.programs id = some program) (hactive : program.status = .active)
    (hprofile : s.mentors program.mentor = some profile) :
    Sound { s with
      mentors := update s.mentors profile.mentor (some { profile with activeMentees := profile.activeMentees - 1 })
      openPairs := update s.openPairs (program.mentor, program.mentee) none
      programs := update s.programs program.id (some { program with status := .cancelled }) } := by
  have hcounted := h.profiles _ profile hprofile
  have hpos := h.active_pos hprogram hactive hprofile
  refine h.change hprogram hprofile rfl rfl rfl rfl rfl rfl rfl rfl ?_ ((Nat.sub_le _ _).trans hcounted.capacity)
    (.inl ⟨rfl, ?_⟩) rfl hcounted.ratingLow hcounted.ratingHigh (.inr ⟨rfl, ?_, rfl⟩)
  · simp only [MentorshipProgram.isActive, hactive, decide_true, if_true]
    exact Nat.sub_add_cancel hpos
  · simp [MentorshipProgram.isCompleted, hactive]
  · simp [MentorshipProgram.isOpen, hactive]

theorem complete (h : Sound s) (hprogram : s.programs id = some program) (hactive : program.status = .active)
    (hprofile : s.mentors program.mentor = some profile) :
    Sound { s with
      mentors := update s.mentors profile.mentor
        (some { profile with
          activeMentees := profile.activeMentees - 1
          completedPrograms := satAddU32 profile.completedPrograms 1 })
      openPairs := update s.openPairs (program.mentor, program.mentee) none
      programs := update s.programs program.id (some { program with status := .completed }) } := by
  have hcounted := h.profiles _ profile hprofile
  have hpos := h.active_pos hprogram hactive hprofile
  refine h.change hprogram hprofile rfl rfl rfl rfl rfl rfl rfl rfl ?_ ((Nat.sub_le _ _).trans hcounted.capacity)
    (.inr ⟨rfl, ?_, rfl⟩) rfl hcounted.ratingLow hcounted.ratingHigh (.inr ⟨rfl, ?_, rfl⟩)
  · simp only [MentorshipProgram.isActive, hactive, decide_true, if_true]
    exact Nat.sub_add_cancel hpos
  · simp [MentorshipProgram.isCompleted, hactive]
  · simp [MentorshipProgram.isOpen, hactive]

theorem rate (h : Sound s) {rating : ℕ} (hone : 1 ≤ rating) (hfive : rating ≤ 5)
    (hprogram : s.programs id = some program) (hrated : program.rated = false)
    (hprofile : s.mentors program.mentor = some profile) :
    Sound { s with
      mentors := update s.mentors profile.mentor
        (some { profile with ratingSum := profile.ratingSum + rating, ratingCount := profile.ratingCount + 1 })
      programs := update s.programs program.id (some { program with rated := true }) } := by
  have hcounted := h.profiles _ profile hprofile
  refine h.change hprogram hprofile rfl rfl rfl rfl rfl rfl rfl rfl rfl hcounted.capacity (.inl ⟨rfl, rfl⟩) ?_
    (Nat.add_le_add hcounted.ratingLow hone) ?_ (.inl ⟨rfl, rfl⟩)
  · simp [hrated]
  · have hhigh := hcounted.ratingHigh
    dsimp only
    omega

/-- What a session or a payment writes down on a program counts for nothing. -/
theorem write (h : Sound s) (hprogram : s.programs id = some program) (hadmin : t.admin = s.admin)
    (hcounter : t.counter = s.counter) (hmentors : t.mentors = s.mentors)
    (hprograms : t.programs = update s.programs program.id (some program')) (hlocks : t.openPairs = s.openPairs)
    (hid : program'.id = program.id) (hmentor : program'.mentor = program.mentor)
    (hmentee : program'.mentee = program.mentee) (hstatus : program'.status = program.status)
    (hrated : program'.rated = program.rated) : Sound t := by
  obtain ⟨profile, hprofile⟩ := h.registered id program hprogram
  have hcounted := h.profiles _ profile hprofile
  have hkept : t.mentors = update s.mentors profile.mentor (some profile) := by
    rw [hmentors, hcounted.address, ← hprofile, update_eq_self]
  refine h.change hprogram hprofile hadmin hcounter hkept hprograms hid hmentor hmentee rfl ?_ hcounted.capacity
    (.inl ⟨rfl, ?_⟩) ?_ hcounted.ratingLow hcounted.ratingHigh (.inl ⟨hlocks, ?_⟩)
  · rw [MentorshipProgram.isActive, MentorshipProgram.isActive, hstatus]
  · simp only [MentorshipProgram.isCompleted, hstatus]
  · rw [hrated]
  · simp only [MentorshipProgram.isOpen, hstatus]

theorem consistent (h : Sound s) : Consistent saturated s := by
  refine ⟨h.profiles, h.pairs, fun mentor mentee id id' hid hid' => ?_⟩
  have hfirst := (h.pairs mentor mentee id).2 hid
  have hsecond := (h.pairs mentor mentee id').2 hid'
  exact Option.some.inj (hfirst.symm.trans hsecond)

end Sound

theorem mentorStep_sound (h : Sound s) (hrun : mentorStep c s = .ok (v, t)) : Sound t := by
  obtain ⟨env, call⟩ := c
  cases call with
  | setUp admin =>
      obtain ⟨hadmin, rfl⟩ := initializeContract_ok hrun
      exact h.setUp hadmin admin
  | register mentor expertise revenueShareBps maxMentees =>
      obtain ⟨hnone, profile, hself, hactive, hcompleted, hsum, hcount, rfl⟩ := registerMentor_ok hrun
      exact h.register hnone hself hactive hcompleted hsum hcount
  | update mentor revenueShareBps maxMentees available =>
      obtain ⟨profile, profile', hprofile, hsettings, rfl⟩ := updateMentor_ok hrun
      exact h.settings hprofile hsettings
  | suspend admin mentor suspended =>
      obtain ⟨profile, hprofile, rfl⟩ := setMentorSuspended_ok hrun
      exact h.settings hprofile ⟨_, _, _, _, (h.profiles _ profile hprofile).capacity, rfl⟩
  | request mentee mentor durationLedgers =>
      obtain ⟨n, h₁⟩ := ignore_ok.1 hrun
      obtain ⟨program, hcounter, -, -, hstatus, -, hrated, hmentor, hnone, _, _, rfl⟩ := requestMentorship_ok h₁
      exact h.request hcounter hstatus hrated hmentor hnone
  | accept mentor programId =>
      obtain ⟨program, profile, _, _, _, hprogram, hrequested, hprofile, hroom, rfl⟩ := acceptMentorship_ok hrun
      exact h.accept hprogram hrequested hprofile hroom
  | decline mentor programId =>
      obtain ⟨program, hprogram, hrequested, rfl⟩ := declineMentorship_ok hrun
      exact h.closeRequested hprogram hrequested (.inl rfl)
  | logSession mentor programId =>
      obtain ⟨n, h₁⟩ := ignore_ok.1 hrun
      obtain ⟨program, sessions, hprogram, -, rfl⟩ := logSession_ok h₁
      exact h.write hprogram rfl rfl rfl rfl rfl rfl rfl rfl rfl rfl
  | share mentee programId token grossAmount =>
      obtain ⟨amount, h₁⟩ := ignore_ok.1 hrun
      obtain ⟨program, total, log, hprogram, -, rfl⟩ := shareEarnings_ok h₁
      exact h.write hprogram rfl rfl rfl rfl rfl rfl rfl rfl rfl rfl
  | complete caller programId =>
      obtain ⟨program, profile, hprogram, hactive, hprofile, rfl⟩ :=
        completeProgram_ok (fun mentor profile hprofile => (h.profiles mentor profile hprofile).address) hrun
      exact h.complete hprogram hactive hprofile
  | cancel caller programId =>
      obtain ⟨program, hprogram, ⟨hrequested, rfl⟩ | ⟨hactive, profile, hprofile, rfl⟩⟩ := cancelProgram_ok hrun
      · exact h.closeRequested hprogram hrequested (.inr rfl)
      · exact h.cancelActive hprogram hactive hprofile
  | rate mentee programId rating =>
      obtain ⟨hone, hfive, program, profile, hprogram, -, hrated, hprofile, rfl⟩ := rateMentor_ok hrun
      exact h.rate hone hfive hprogram hrated hprofile

theorem reachable_sound (calls : List (Ledger ℕ × MentorCall)) : Sound (runAll mentorStep {} calls) :=
  runAll_invariant (fun _ _ _ _ h hrun => mentorStep_sound h hrun) .start calls

/-! ## Closed programs -/

theorem keepsClosed_of_eq (h : t.programs = s.programs) : KeepsClosed s t := by
  intro id program hprogram _
  exact ⟨program, by rw [h, hprogram], rfl⟩

/-- Only an open program is written with a new status. -/
theorem keepsClosed_update (h : Sound s) (hprogram : s.programs id = some program)
    (hprograms : t.programs = update s.programs program.id (some program'))
    (hstatus : program.isOpen = true ∨ program'.status = program.status) : KeepsClosed s t := by
  obtain rfl : program.id = id := (h.ids id program hprogram).1
  intro j closed hclosed hdone
  rw [hprograms]
  rcases eq_or_ne j program.id with rfl | hj
  · obtain rfl := Option.some.inj (hprogram.symm.trans hclosed)
    rcases hstatus with hopen | hstatus
    · cases hopen.symm.trans hdone
    · exact ⟨program', update_self .., hstatus⟩
  · exact ⟨closed, by rw [update_of_ne hj, hclosed], rfl⟩

theorem mentorStep_keeps (h : Sound s) (hrun : mentorStep c s = .ok (v, t)) : KeepsClosed s t := by
  have hself := fun mentor profile hprofile => (h.profiles mentor profile hprofile).address
  obtain ⟨env, call⟩ := c
  cases call with
  | setUp admin =>
      obtain ⟨-, rfl⟩ := initializeContract_ok hrun
      exact keepsClosed_of_eq rfl
  | register mentor expertise revenueShareBps maxMentees =>
      obtain ⟨-, profile, -, -, -, -, -, rfl⟩ := registerMentor_ok hrun
      exact keepsClosed_of_eq rfl
  | update mentor revenueShareBps maxMentees available =>
      obtain ⟨profile, profile', -, -, rfl⟩ := updateMentor_ok hrun
      exact keepsClosed_of_eq rfl
  | suspend admin mentor suspended =>
      obtain ⟨profile, -, rfl⟩ := setMentorSuspended_ok hrun
      exact keepsClosed_of_eq rfl
  | request mentee mentor durationLedgers =>
      obtain ⟨n, h₁⟩ := ignore_ok.1 hrun
      obtain ⟨program, hcounter, -, -, -, -, -, -, -, _, _, rfl⟩ := requestMentorship_ok h₁
      intro id closed hclosed _
      have hlt := h.lt_counter hclosed
      rw [hcounter, Option.getD_some] at hlt
      exact ⟨closed, (update_of_ne hlt.ne _ _).trans hclosed, rfl⟩
  | accept mentor programId =>
      obtain ⟨program, profile, _, _, _, hprogram, hrequested, -, -, rfl⟩ := acceptMentorship_ok hrun
      exact keepsClosed_update h hprogram rfl (.inl (by simp [MentorshipProgram.isOpen, hrequested]))
  | decline mentor programId =>
      obtain ⟨program, hprogram, hrequested, rfl⟩ := declineMentorship_ok hrun
      exact keepsClosed_update h hprogram rfl (.inl (by simp [MentorshipProgram.isOpen, hrequested]))
  | logSession mentor programId =>
      obtain ⟨n, h₁⟩ := ignore_ok.1 hrun
      obtain ⟨program, sessions, hprogram, -, rfl⟩ := logSession_ok h₁
      exact keepsClosed_update h hprogram rfl (.inr rfl)
  | share mentee programId token grossAmount =>
      obtain ⟨amount, h₁⟩ := ignore_ok.1 hrun
      obtain ⟨program, total, log, hprogram, -, rfl⟩ := shareEarnings_ok h₁
      exact keepsClosed_update h hprogram rfl (.inr rfl)
  | complete caller programId =>
      obtain ⟨program, profile, hprogram, hactive, -, rfl⟩ := completeProgram_ok hself hrun
      exact keepsClosed_update h hprogram rfl (.inl (by simp [MentorshipProgram.isOpen, hactive]))
  | cancel caller programId =>
      obtain ⟨program, hprogram, ⟨hrequested, rfl⟩ | ⟨hactive, profile, -, rfl⟩⟩ := cancelProgram_ok hrun
      · exact keepsClosed_update h hprogram rfl (.inl (by simp [MentorshipProgram.isOpen, hrequested]))
      · exact keepsClosed_update h hprogram rfl (.inl (by simp [MentorshipProgram.isOpen, hactive]))
  | rate mentee programId rating =>
      obtain ⟨-, -, program, profile, hprogram, -, -, -, rfl⟩ := rateMentor_ok hrun
      exact keepsClosed_update h hprogram rfl (.inr rfl)

/-- Whatever the calls, counters and locks stand for the programs, and the next call leaves the status of
a closed program. -/
theorem capacity_law (calls : List (Ledger ℕ × MentorCall)) :
    Consistent saturated (runAll mentorStep {} calls) ∧
      ∀ c t, mentorStep c (runAll mentorStep {} calls) = .ok ((), t) →
        KeepsClosed (runAll mentorStep {} calls) t :=
  ⟨(reachable_sound calls).consistent, fun _ _ hrun => mentorStep_keeps (reachable_sound calls) hrun⟩

/-! ## Past the bound of the counter -/

/-- Everyone signs, at the first ledger. -/
def signed : Ledger ℕ := { now := 0, sequence := 0, auth := fun _ => true, accepts := fun _ _ => true }

/-- Mentee 3 requests a program of mentor 2, who accepts it, and completes it. -/
def round (id : ℕ) : List (Ledger ℕ × MentorCall) :=
  [(signed, .request 3 2 minDurationLedgers), (signed, .accept 2 id), (signed, .complete 3 id)]

def rounds : ℕ → List (Ledger ℕ × MentorCall)
  | 0 => [(signed, .setUp 1), (signed, .register 2 0 0 1)]
  | n + 1 => rounds n ++ round n

/-- After `n` rounds the mentor is free again and the programs so far are completed. -/
structure AfterRounds (n : ℕ) (s : Store) : Prop where
  counter : s.counter = some n
  free : ∃ profile, s.mentors 2 = some profile ∧ profile.mentor = 2 ∧ profile.available = true ∧
    profile.suspended = false ∧ profile.activeMentees = 0 ∧ profile.maxMentees = 1
  unlocked : s.openPairs (2, 3) = none
  completed : ∀ id < n, ∃ program, s.programs id = some program ∧ program.mentor = 2 ∧ program.isCompleted = true

theorem round_request (h : AfterRounds n s) (hn : n < 2 ^ 32) :
    ∃ t, requestMentorship signed 3 2 minDurationLedgers s = .ok (n, t) := by
  obtain ⟨profile, hprofile, -, havailable, hsuspended, -⟩ := h.free
  have hnext : checkedAddU64 n 1 = some (n + 1) := by
    have hbound : 2 ^ 32 ≤ u64Max := by decide
    unfold checkedAddU64
    rw [if_pos]
    omega
  constructor
  simp only [requestMentorship, requireAuth_bind, require_bind, loadMentor_bind, get_bind, orError_bind]
  refine ⟨⟨rfl, by decide⟩, by decide, by decide, profile, hprofile, ⟨havailable, hsuspended⟩, ?_, n, h.counter, n + 1,
    hnext, ?_⟩
  · rw [h.unlocked]
    rfl
  · exact bind_ok.2 ⟨(), _, set_ok.2 rfl, pure_ok.2 ⟨rfl, rfl⟩⟩

theorem round_accept (hprogram : s.programs n = some program) (hmentor : program.mentor = 2)
    (hstatus : program.status = .requested) (hduration : program.durationLedgers = minDurationLedgers)
    (hprofile : s.mentors 2 = some profile) (hsuspended : profile.suspended = false)
    (hactive : profile.activeMentees = 0) (hroom : profile.maxMentees = 1) :
    ∃ t, acceptMentorship signed 2 n s = .ok ((), t) := by
  have hend : checkedAddU32 signed.sequence program.durationLedgers = some minDurationLedgers := by
    rw [hduration]
    decide
  constructor
  simp only [acceptMentorship, requireAuth_bind, loadProgram_bind, require_bind, loadMentor_bind, orError_bind,
    saveMentor_bind, saveProgram_ok]
  refine ⟨⟨rfl, by decide⟩, program, hprogram, hmentor, hstatus, profile, hprofile, hsuspended, ?_, minDurationLedgers,
    hend, ?_, rfl⟩
  · rw [hactive, hroom]
    decide
  · rw [hactive]
    decide

theorem round_complete (hprogram : s.programs n = some program) (hmentor : program.mentor = 2)
    (hmentee : program.mentee = 3) (hstatus : program.status = .active) (hprofile : s.mentors 2 = some profile)
    (hself : profile.mentor = 2) : ∃ t, completeProgram signed 3 n s = .ok ((), t) := by
  have hslot : releaseSlot { program with status := .completed } true s = .ok ((), { s with
      mentors := update s.mentors profile.mentor (some { profile with activeMentees := profile.activeMentees - 1 })
      openPairs := update s.openPairs (program.mentor, program.mentee) none }) := by
    refine bind_ok.2 ⟨(), _, onlyIf_ok.2 (.inl ⟨rfl, loadMentor_bind.2 ⟨profile, ?_, saveMentor_ok.2 rfl⟩⟩),
      modify_ok.2 rfl⟩
    rw [hmentor, hprofile]
  constructor
  simp only [completeProgram, requireAuth_bind, loadProgram_bind, require_bind]
  refine ⟨⟨rfl, by decide⟩, program, hprogram, hstatus, bind_ok.2 ⟨(), s, ?_, bind_ok.2 ⟨(), _, hslot, ?_⟩⟩⟩
  · simp [hmentor, hmentee]
  · refine loadMentor_bind.2 ⟨{ profile with activeMentees := profile.activeMentees - 1 }, ?_,
      saveMentor_bind.2 (saveProgram_ok.2 rfl)⟩
    dsimp only
    rw [hmentor, hself, update_self]

theorem AfterRounds.start : AfterRounds 0 (runAll mentorStep {} (rounds 0)) := by
  refine ⟨rfl, ⟨_, rfl, rfl, rfl, rfl, rfl, rfl⟩, rfl, ?_⟩
  intro id hid
  cases hid

theorem AfterRounds.next (hs : Sound s) (h : AfterRounds n s) (hn : n < 2 ^ 32) :
    AfterRounds (n + 1) (runAll mentorStep s (round n)) := by
  obtain ⟨profile, hprofile, hself, havailable, hsuspended, hactive, hroom⟩ := h.free
  obtain ⟨s₁, hrequest⟩ := round_request h hn
  obtain ⟨program, hcounter, hmentor, hmentee, hstatus, hduration, -, -, -, _, _, hs₁⟩ := requestMentorship_ok hrequest
  obtain rfl : n = program.id := Option.some.inj (h.counter.symm.trans hcounter)
  have hprogram : s₁.programs program.id = some program := by
    rw [hs₁]
    exact update_self ..
  have hprofile₁ : s₁.mentors 2 = some profile := by
    rw [hs₁]
    exact hprofile
  obtain ⟨s₂, haccept⟩ := round_accept hprogram hmentor hstatus hduration hprofile₁ hsuspended hactive hroom
  obtain ⟨_, _, share, start, endLedger, hstored, -, hfree, -, hs₂⟩ := acceptMentorship_ok haccept
  obtain rfl := Option.some.inj (hprogram.symm.trans hstored)
  rw [hmentor] at hfree
  obtain rfl := Option.some.inj (hprofile₁.symm.trans hfree)
  let accepted := { program with
    status := .active, revenueShareBps := share, startLedger := start, endLedger := endLedger }
  have hprogram₂ : s₂.programs program.id = some accepted := by
    rw [hs₂]
    exact update_self ..
  have hprofile₂ : s₂.mentors 2 = some { profile with activeMentees := profile.activeMentees + 1 } := by
    rw [hs₂, ← hself]
    exact update_self ..
  obtain ⟨s₃, hcomplete⟩ := round_complete hprogram₂ hmentor hmentee rfl hprofile₂ hself
  have hstep₁ : mentorStep (signed, .request 3 2 minDurationLedgers) s = .ok ((), s₁) := ignore_ok.2 ⟨_, hrequest⟩
  have hstep₂ : mentorStep (signed, .accept 2 program.id) s₁ = .ok ((), s₂) := haccept
  have hstep₃ : mentorStep (signed, .complete 3 program.id) s₂ = .ok ((), s₃) := hcomplete
  have hsound : Sound s₂ := mentorStep_sound (mentorStep_sound hs hstep₁) hstep₂
  obtain ⟨_, _, hstored₂, -, hfree₂, hs₃⟩ :=
    completeProgram_ok (fun mentor profile hprofile => (hsound.profiles mentor profile hprofile).address) hcomplete
  obtain rfl := Option.some.inj (hprogram₂.symm.trans hstored₂)
  obtain rfl := Option.some.inj (hprofile₂.symm.trans ((congrArg _ hmentor.symm).trans hfree₂))
  rw [round, runAll_cons, commit_ok hstep₁, runAll_cons, commit_ok hstep₂, runAll_cons, commit_ok hstep₃, runAll_nil]
  subst hs₃ hs₂ hs₁
  refine ⟨rfl, ⟨_, (congrArg _ hself.symm).trans (update_self ..), hself, havailable, hsuspended, ?_, hroom⟩, ?_, ?_⟩
  · dsimp only
    rw [hactive]
  · dsimp only
    rw [hmentor, hmentee, update_self]
  · intro id hid
    dsimp only
    rcases eq_or_ne id program.id with rfl | hne
    · exact ⟨_, update_self .., hmentor, rfl⟩
    · rw [update_of_ne hne, update_of_ne hne, update_of_ne hne]
      exact h.completed id (by omega)

theorem after_rounds (hn : n ≤ 2 ^ 32) : AfterRounds n (runAll mentorStep {} (rounds n)) := by
  induction n with
  | zero => exact .start
  | succ n ih =>
      rw [rounds, runAll_append]
      exact (ih (by omega)).next (reachable_sound _) (by omega)

theorem AfterRounds.number_eq (h : AfterRounds n s) : s.number MentorshipProgram.isCompleted 2 = n := by
  unfold Store.number seats
  rw [h.counter, Option.getD_some, Finset.filter_true_of_mem, Finset.card_range]
  intro id hid
  obtain ⟨program, hprogram, hmentor, hcompleted⟩ := h.completed id (Finset.mem_range.1 hid)
  dsimp only
  rw [hprogram, Option.bind_some, if_pos hcompleted, hmentor]

/-- After 2 ^ 32 rounds the mentor has completed one program more than the counter can show. -/
theorem capacity_law_fails : ¬∀ calls, Consistent (fun n => n) (runAll mentorStep {} calls) := by
  intro h
  have hafter := after_rounds (n := 2 ^ 32) le_rfl
  obtain ⟨profile, hprofile, -⟩ := hafter.free
  have hclaimed := ((h _).profiles 2 profile hprofile).completed
  have hactual := ((reachable_sound _).profiles 2 profile hprofile).completed
  rw [hafter.number_eq] at hclaimed hactual
  exact absurd (hclaimed.symm.trans hactual) (by decide)

end StellarSplit.Mentorship
