import Mathlib.Logic.Function.Basic
import StellarSplit.Lib.Runs
import StellarSplit.Host

/-!
# Mentorship programs

Mentors register with a capacity; mentees request programs, which the mentor accepts or declines, which
run for a time, are completed or cancelled, and are rated once. The entry points in the order of their
checks, and for each what it does when it returns.
-/

namespace StellarSplit.Mentorship

open Exec Function Machine

/-! ## Data -/

inductive Error where
  | alreadyInitialized | notInitialized | notAdmin | mentorAlreadyRegistered | mentorNotFound
  | mentorUnavailable | invalidRevenueShare | invalidCapacity | mentorAtCapacity | selfMentorship
  | duplicateProgram | programNotFound | invalidProgramState | unauthorized | invalidDuration
  | invalidAmount | programExpired | programNotMatured | invalidRating | alreadyRated | overflow
deriving DecidableEq, Repr

inductive ProgramStatus where
  | requested | active | completed | cancelled | declined
deriving DecidableEq, Repr

structure MentorProfile where
  mentor : Address
  expertise : Symbol
  revenueShareBps : ℕ
  maxMentees : ℕ
  activeMentees : ℕ
  completedPrograms : ℕ
  ratingSum : ℕ
  ratingCount : ℕ
  available : Bool
  suspended : Bool
  registeredAt : ℕ
deriving DecidableEq, Repr

structure MentorshipProgram where
  id : ℕ
  mentor : Address
  mentee : Address
  status : ProgramStatus
  revenueShareBps : ℕ
  durationLedgers : ℕ
  requestedAt : ℕ
  startLedger : ℕ
  endLedger : ℕ
  sessions : ℕ
  totalShared : ℤ
  rated : Bool
deriving DecidableEq, Repr

/-- The contract's storage, with the log of accepted token movements; each says for which program it was. -/
structure Store where
  admin : Option Address := none
  counter : Option ℕ := none
  mentors : Address → Option MentorProfile := fun _ => none
  programs : ℕ → Option MentorshipProgram := fun _ => none
  mentorPrograms : Address → List ℕ := fun _ => []
  menteePrograms : Address → List ℕ := fun _ => []
  openPairs : Address × Address → Option ℕ := fun _ => none
  log : List (Transfer ℕ) := []

abbrev MentorM (α : Type) := Call Store (Fault Error) α

def maxRevenueShareBps : ℕ := 3000

def maxMenteesPerMentor : ℕ := 50

def minDurationLedgers : ℕ := 17280

def maxDurationLedgers : ℕ := 6307200

def maxRating : ℕ := 5

/-! ## Internal helpers -/

def requireAdmin (env : Ledger ℕ) (admin : Address) : MentorM Unit := do
  let s ← get
  let stored ← orError s.admin .notInitialized
  require (stored = admin) (.error .notAdmin)
  requireAuth env admin

def loadMentor (mentor : Address) : MentorM MentorProfile := do
  let s ← get
  orError (s.mentors mentor) .mentorNotFound

def saveMentor (profile : MentorProfile) : MentorM Unit :=
  modify fun s => { s with mentors := update s.mentors profile.mentor (some profile) }

def loadProgram (id : ℕ) : MentorM MentorshipProgram := do
  let s ← get
  orError (s.programs id) .programNotFound

def saveProgram (program : MentorshipProgram) : MentorM Unit :=
  modify fun s => { s with programs := update s.programs program.id (some program) }

def validateTerms (shareBps maxMentees : ℕ) : MentorM Unit := do
  require (shareBps ≤ maxRevenueShareBps) (.error .invalidRevenueShare)
  require (maxMentees ≠ 0 ∧ maxMentees ≤ maxMenteesPerMentor) (.error .invalidCapacity)

/-- Close a program: free the slot of the mentor when it was active, and clear the lock of the pair. -/
def releaseSlot (program : MentorshipProgram) (wasActive : Bool) : MentorM Unit := do
  onlyIf (wasActive = true) do
    let profile ← loadMentor program.mentor
    saveMentor { profile with activeMentees := profile.activeMentees - 1 }
  modify fun s => { s with openPairs := update s.openPairs (program.mentor, program.mentee) none }

/-! ## Entry points -/

def initializeContract (admin : Address) : MentorM Unit := do
  let s ← get
  require (s.admin.isNone = true) (.error .alreadyInitialized)
  set { s with admin := some admin, counter := some 0 }

def registerMentor (env : Ledger ℕ) (mentor : Address) (expertise : Symbol) (revenueShareBps maxMentees : ℕ) :
    MentorM Unit := do
  requireAuth env mentor
  let s ← get
  require (s.admin.isSome = true) (.error .notInitialized)
  require ((s.mentors mentor).isNone = true) (.error .mentorAlreadyRegistered)
  validateTerms revenueShareBps maxMentees
  saveMentor
    { mentor := mentor, expertise := expertise, revenueShareBps := revenueShareBps, maxMentees := maxMentees,
      activeMentees := 0, completedPrograms := 0, ratingSum := 0, ratingCount := 0, available := true,
      suspended := false, registeredAt := env.now }

def updateMentor (env : Ledger ℕ) (mentor : Address) (revenueShareBps maxMentees : ℕ) (available : Bool) :
    MentorM Unit := do
  requireAuth env mentor
  let profile ← loadMentor mentor
  validateTerms revenueShareBps maxMentees
  require (profile.activeMentees ≤ maxMentees) (.error .invalidCapacity)
  saveMentor
    { profile with revenueShareBps := revenueShareBps, maxMentees := maxMentees, available := available }

def setMentorSuspended (env : Ledger ℕ) (admin mentor : Address) (suspended : Bool) : MentorM Unit := do
  requireAdmin env admin
  let profile ← loadMentor mentor
  saveMentor { profile with suspended := suspended }

def requestMentorship (env : Ledger ℕ) (mentee mentor : Address) (durationLedgers : ℕ) : MentorM ℕ := do
  requireAuth env mentee
  require (mentee ≠ mentor) (.error .selfMentorship)
  require (minDurationLedgers ≤ durationLedgers ∧ durationLedgers ≤ maxDurationLedgers)
    (.error .invalidDuration)
  let profile ← loadMentor mentor
  require (profile.available = true ∧ profile.suspended = false) (.error .mentorUnavailable)
  let s ← get
  require ((s.openPairs (mentor, mentee)).isNone = true) (.error .duplicateProgram)
  let id ← orError s.counter .notInitialized
  let next ← orError (checkedAddU64 id 1) .overflow
  let program : MentorshipProgram :=
    { id := id, mentor := mentor, mentee := mentee, status := .requested,
      revenueShareBps := profile.revenueShareBps, durationLedgers := durationLedgers, requestedAt := env.now,
      startLedger := 0, endLedger := 0, sessions := 0, totalShared := 0, rated := false }
  set { s with
    counter := some next
    programs := update s.programs id (some program)
    openPairs := update s.openPairs (mentor, mentee) (some id)
    mentorPrograms := update s.mentorPrograms mentor (s.mentorPrograms mentor ++ [id])
    menteePrograms := update s.menteePrograms mentee (s.menteePrograms mentee ++ [id]) }
  pure id

def acceptMentorship (env : Ledger ℕ) (mentor : Address) (programId : ℕ) : MentorM Unit := do
  requireAuth env mentor
  let program ← loadProgram programId
  require (program.mentor = mentor) (.error .unauthorized)
  require (program.status = .requested) (.error .invalidProgramState)
  let profile ← loadMentor mentor
  require (profile.suspended = false) (.error .mentorUnavailable)
  require (profile.activeMentees < profile.maxMentees) (.error .mentorAtCapacity)
  let start := env.sequence
  let endLedger ← orError (checkedAddU32 start program.durationLedgers) .overflow
  require (profile.activeMentees + 1 ≤ u32Max) .overflow
  saveMentor { profile with activeMentees := profile.activeMentees + 1 }
  saveProgram
    { program with
      status := .active, revenueShareBps := profile.revenueShareBps, startLedger := start
      endLedger := endLedger }

def declineMentorship (env : Ledger ℕ) (mentor : Address) (programId : ℕ) : MentorM Unit := do
  requireAuth env mentor
  let program ← loadProgram programId
  require (program.mentor = mentor) (.error .unauthorized)
  require (program.status = .requested) (.error .invalidProgramState)
  releaseSlot { program with status := .declined } false
  saveProgram { program with status := .declined }

def logSession (env : Ledger ℕ) (mentor : Address) (programId : ℕ) : MentorM ℕ := do
  requireAuth env mentor
  let program ← loadProgram programId
  require (program.mentor = mentor) (.error .unauthorized)
  require (program.status = .active) (.error .invalidProgramState)
  let sessions ← orError (checkedAddU32 program.sessions 1) .overflow
  saveProgram { program with sessions := sessions }
  pure sessions

def shareTo (program : MentorshipProgram) (mentee token : Address) (share : ℤ) (programId : ℕ) : Transfer ℕ :=
  ⟨token, mentee, program.mentor, share, programId⟩

def shareEarnings (env : Ledger ℕ) (mentee : Address) (programId : ℕ) (token : Address) (grossAmount : ℤ) :
    MentorM ℤ := do
  requireAuth env mentee
  require (0 < grossAmount) (.error .invalidAmount)
  let program ← loadProgram programId
  require (program.mentee = mentee) (.error .unauthorized)
  require (program.status = .active) (.error .invalidProgramState)
  require (env.sequence ≤ program.endLedger) (.error .programExpired)
  let scaled ← orError (checkedMulI128 grossAmount program.revenueShareBps) .overflow
  let share := scaled.tdiv 10000
  onlyIf (0 < share) do
    let s ← get
    require (env.accepts s.log (shareTo program mentee token share programId) = true) .tokenRefused
    set { s with log := shareTo program mentee token share programId :: s.log }
  let totalShared ← orError (checkedAddI128 program.totalShared share) .overflow
  saveProgram { program with totalShared := totalShared }
  pure share

def completeProgram (env : Ledger ℕ) (caller : Address) (programId : ℕ) : MentorM Unit := do
  requireAuth env caller
  let program ← loadProgram programId
  require (program.status = .active) (.error .invalidProgramState)
  (if caller = program.mentor then
    require (program.endLedger ≤ env.sequence) (.error .programNotMatured)
  else require (caller = program.mentee) (.error .unauthorized) : MentorM Unit)
  releaseSlot { program with status := .completed } true
  let profile ← loadMentor program.mentor
  saveMentor { profile with completedPrograms := satAddU32 profile.completedPrograms 1 }
  saveProgram { program with status := .completed }

def cancelProgram (env : Ledger ℕ) (caller : Address) (programId : ℕ) : MentorM Unit := do
  requireAuth env caller
  let program ← loadProgram programId
  require (caller = program.mentor ∨ caller = program.mentee) (.error .unauthorized)
  require (program.status = .requested ∨ program.status = .active) (.error .invalidProgramState)
  releaseSlot { program with status := .cancelled } (program.status = .active)
  saveProgram { program with status := .cancelled }

def rateMentor (env : Ledger ℕ) (mentee : Address) (programId rating : ℕ) : MentorM Unit := do
  requireAuth env mentee
  require (rating ≠ 0 ∧ rating ≤ maxRating) (.error .invalidRating)
  let program ← loadProgram programId
  require (program.mentee = mentee) (.error .unauthorized)
  require (program.status = .completed) (.error .invalidProgramState)
  require (program.rated = false) (.error .alreadyRated)
  let profile ← loadMentor program.mentor
  let ratingSum ← orError (checkedAddU32 profile.ratingSum rating) .overflow
  let ratingCount ← orError (checkedAddU32 profile.ratingCount 1) .overflow
  saveMentor { profile with ratingSum := ratingSum, ratingCount := ratingCount }
  saveProgram { program with rated := true }

end StellarSplit.Mentorship
