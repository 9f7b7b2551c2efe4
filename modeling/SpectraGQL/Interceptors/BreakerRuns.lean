import SpectraGQL.Interaction.Progress
import SpectraGQL.Interaction.Schedule
import SpectraGQL.Interceptors.CircuitBreaker
import Mathlib.Data.List.Infix

/-! # The circuit breaker among its callers

Any number of callers have access to one breaker at once.  A write lock keeps the others from
its value, and the clock moves on by itself.  `breakerAutomaton` says where in its method a
caller is, and `BreakerInv` what the locks and the fields then are: whoever sees the breaker
open will find when it tripped.
-/

namespace SpectraGQL.Interceptors

open Interaction

/-! ## The pool -/

inductive BreakerJob where
  | canExecute
  | recordSuccess
  | recordFailure
  | isOpen
  | intercept
  deriving DecidableEq

/-- What a job returns; only `can_execute` and the invocations return a permission. -/
def BreakerJob.program (config : CircuitBreakerConfig) :
    BreakerJob → BreakerProg (Option CircuitPermission)
  | .canExecute => do
    let permission ← WasmCircuitBreaker.canExecute config
    pure (some permission)
  | .recordSuccess => do
    WasmCircuitBreaker.recordSuccess
    pure none
  | .recordFailure => do
    WasmCircuitBreaker.recordFailure config
    pure none
  | .isOpen => do
    let _ ← WasmCircuitBreaker.isOpen
    pure none
  | .intercept => do
    let permission ← WasmCircuitBreaker.intercept config
    pure (some permission)

variable {ι : Type}

/-- The fields, and who holds the two write locks. -/
structure SharedBreaker (ι : Type) where
  fields : BreakerState
  stateWriter : Option ι
  trippedWriter : Option ι

namespace SharedBreaker

def new : SharedBreaker ι := ⟨⟨.new, 0⟩, none, none⟩

/-- An access waits as long as another caller writes. -/
def Permits (shared : SharedBreaker ι) : BreakerCall → Prop
  | .readState | .lockState => shared.stateWriter = none
  | .readTrippedAt | .lockTrippedAt => shared.trippedWriter = none
  | _ => True

instance (shared : SharedBreaker ι) (call : BreakerCall) : Decidable (shared.Permits call) :=
  match call with
  | .readState | .lockState => inferInstanceAs (Decidable (shared.stateWriter = none))
  | .readTrippedAt | .lockTrippedAt => inferInstanceAs (Decidable (shared.trippedWriter = none))
  | .now | .getState | .setState _ | .unlockState | .setTrippedAt _ | .unlockTrippedAt
  | .storeFailures _ | .fetchAddFailures _ | .invokeGuest => .isTrue trivial

/-- The locks after an access. -/
def relock (shared : SharedBreaker ι) (thread : ι) : BreakerCall → Option ι × Option ι
  | .lockState => (some thread, shared.trippedWriter)
  | .unlockState => (none, shared.trippedWriter)
  | .lockTrippedAt => (shared.stateWriter, some thread)
  | .unlockTrippedAt => (shared.stateWriter, none)
  | _ => (shared.stateWriter, shared.trippedWriter)

def access (guest : GuestRun) (thread : ι) (call : BreakerCall) (shared : SharedBreaker ι) :
    Option (call.Answer × SharedBreaker ι) :=
  if shared.Permits call then
    let result := call.apply guest shared.fields
    let locks := shared.relock thread call
    some (result.1, ⟨result.2, locks.1, locks.2⟩)
  else none

end SharedBreaker

/-- The callers of one breaker; the environment's events are the ticks of the clock. -/
def breakerSystem (config : CircuitBreakerConfig) (jobs : ι → BreakerJob) :
    System breakerSignature ι Nat (SharedBreaker ι) (Option CircuitPermission) where
  program := fun thread => (jobs thread).program config
  meaning := fun thread call before answer after =>
    ∃ guest, before.access guest thread call = some (answer, after)
  environment := fun ticks before after =>
    after = { before with fields.clock := before.fields.clock + ticks }

abbrev BreakerLabel (ι : Type) := Label breakerSignature ι Nat (Option CircuitPermission)

abbrev BreakerConfiguration (ι : Type) :=
  Config breakerSignature ι Nat (SharedBreaker ι) (Option CircuitPermission)

/-! ## Where a caller is -/

/-- How far an invocation has come. -/
inductive Standing where
  | undecided
  | allowed
  | probing
  | recording (probe : Bool)
  | recorded
  deriving DecidableEq

/-- Which locks a caller holds, and what it knows because of them. -/
inductive LockStage where
  | outside
  | sawOpen
  | locked (seen : Option CircuitState)
  | opening
  | tripping
  | settled
  deriving DecidableEq

namespace LockStage

def holdsState : LockStage → Bool
  | .outside | .sawOpen => false
  | .locked _ | .opening | .tripping | .settled => true

def holdsTripped : LockStage → Bool
  | .tripping | .settled => true
  | .outside | .sawOpen | .locked _ | .opening => false

/-- The state that the breaker must be in, as far as a caller knows. -/
def sees : LockStage → Option CircuitState
  | .outside | .sawOpen => none
  | .locked seen => seen
  | .opening | .tripping | .settled => some .opened

/-- The state is open already, and the instant of the trip not yet written. -/
def unsettled : LockStage → Bool
  | .opening | .tripping => true
  | .outside | .sawOpen | .locked _ | .settled => false

theorem holdsState_of_unsettled {stage : LockStage} (isUnsettled : stage.unsettled = true) :
    stage.holdsState = true := by
  cases stage <;> simp_all [unsettled, holdsState]

theorem holdsState_of_sees {stage : LockStage} {state : CircuitState}
    (seen : stage.sees = some state) : stage.holdsState = true := by
  cases stage <;> simp_all [sees, holdsState]

end LockStage

structure CallerPhase where
  standing : Standing
  stage : LockStage
  deriving DecidableEq

namespace CallerPhase

def start : CallerPhase := ⟨.undecided, .outside⟩

def allowed (phase : CallerPhase) : BreakerCall → Prop
  | .readState => phase = ⟨.undecided, .outside⟩
  | .readTrippedAt => phase.stage = .sawOpen
  | .now => phase.stage = .outside ∨ phase.stage = .tripping
  | .lockState => phase.stage = .outside
  | .getState => phase.stage = .locked none
  | .setState .halfOpen => phase = ⟨.undecided, .locked (some .opened)⟩
  | .setState _ => (∃ probe, phase.standing = .recording probe) ∧ ∃ seen, phase.stage = .locked seen
  | .unlockState => ∃ seen, phase.stage = .locked (some seen) ∧
      ∀ probe, phase.standing = .recording probe → seen ≠ .halfOpen
  | .lockTrippedAt => phase.stage = .opening
  | .setTrippedAt _ => phase.stage = .tripping
  | .unlockTrippedAt => phase.stage = .settled
  | .storeFailures _ | .fetchAddFailures _ =>
    phase.stage = .outside ∧ ∀ probe, phase.standing ≠ .recording probe
  | .invokeGuest => phase.stage = .outside

/-- `record_*` begins at the counter, and ends when the lock of the state is given back. -/
def nextStanding (standing : Standing) : Event breakerSignature → Standing
  | ⟨.readState, .closed⟩ => .allowed
  | ⟨.readState, .halfOpen⟩ => .probing
  | ⟨.setState .halfOpen, _⟩ => .probing
  | ⟨.storeFailures _, _⟩ => .recording (standing = .probing)
  | ⟨.fetchAddFailures _, _⟩ => .recording (standing = .probing)
  | ⟨.unlockState, _⟩ =>
    match standing with
    | .recording _ => .recorded
    | .undecided | .allowed | .probing | .recorded => standing
  | _ => standing

def nextStage (stage : LockStage) : Event breakerSignature → LockStage
  | ⟨.readState, .opened⟩ => .sawOpen
  | ⟨.readTrippedAt, _⟩ => .outside
  | ⟨.lockState, _⟩ => .locked none
  | ⟨.getState, state⟩ => .locked (some state)
  | ⟨.setState .opened, _⟩ => .opening
  | ⟨.setState state, _⟩ => .locked (some state)
  | ⟨.unlockState, _⟩ => .outside
  | ⟨.lockTrippedAt, _⟩ => .tripping
  | ⟨.setTrippedAt _, _⟩ => .settled
  | ⟨.unlockTrippedAt, _⟩ => .locked (some .opened)
  | _ => stage

end CallerPhase

def breakerAutomaton : Automaton breakerSignature CallerPhase where
  allowed := CallerPhase.allowed
  possible := fun _ => True
  next := fun phase event =>
    ⟨CallerPhase.nextStanding phase.standing event, CallerPhase.nextStage phase.stage event⟩

/-! ## The methods keep to it -/

section Obeys

open WasmCircuitBreaker

/-- What a permission makes of the caller. -/
def CircuitPermission.standing : CircuitPermission → Standing
  | .allow => .allowed
  | .probe => .probing
  | .denied => .undecided

theorem obeys_canExecute (config : CircuitBreakerConfig) :
    (canExecute config).Obeys breakerAutomaton
      (fun permission phase => phase = ⟨permission.standing, .outside⟩) .start := by
  refine ⟨rfl, fun state _ => ?_⟩
  cases state with
  | closed | halfOpen => rfl
  | opened =>
    refine ⟨rfl, fun trippedAt _ => ?_⟩
    cases trippedAt with
    | none => rfl
    | some instant =>
      refine ⟨.inl rfl, fun now _ => ?_⟩
      change (if config.cooloffDuration ≤ now - instant then _ else _ :
        BreakerProg CircuitPermission).Obeys _ _ _
      split
      · refine ⟨rfl, fun _ _ => ⟨rfl, fun state _ => ?_⟩⟩
        cases state with
        | opened => exact ⟨rfl, fun _ _ => ⟨⟨_, rfl, nofun⟩, fun _ _ => rfl⟩⟩
        | closed | halfOpen => exact ⟨⟨_, rfl, nofun⟩, fun _ _ => rfl⟩
      · rfl

theorem obeys_recordSuccess {standing : Standing}
    (unrecorded : ∀ probe, standing ≠ .recording probe) :
    recordSuccess.Obeys breakerAutomaton (fun _ phase => phase.stage.holdsState = false)
      ⟨standing, .outside⟩ := by
  refine ⟨⟨rfl, unrecorded⟩, fun _ _ => ⟨rfl, fun _ _ => ?_⟩⟩
  cases standing with
  | recording probe => exact absurd rfl (unrecorded probe)
  | undecided | allowed | probing | recorded =>
    exact ⟨⟨⟨_, rfl⟩, _, rfl⟩, fun _ _ => ⟨⟨_, rfl, fun _ _ => nofun⟩, fun _ _ => rfl⟩⟩

theorem obeys_recordFailure (config : CircuitBreakerConfig) {standing : Standing}
    (unrecorded : ∀ probe, standing ≠ .recording probe) :
    (recordFailure config).Obeys breakerAutomaton (fun _ phase => phase.stage.holdsState = false)
      ⟨standing, .outside⟩ := by
  refine ⟨⟨rfl, unrecorded⟩, fun prev _ => ⟨rfl, fun _ _ => ⟨rfl, fun state _ => ?_⟩⟩⟩
  change (if state = .halfOpen ∨ config.consecutiveFailureThreshold ≤ prev + 1 then _ else _ :
    BreakerProg Unit).Obeys _ _ _
  cases standing with
  | recording probe => exact absurd rfl (unrecorded probe)
  | undecided | allowed | probing | recorded =>
    split
    · exact ⟨⟨⟨_, rfl⟩, _, rfl⟩, fun _ _ => ⟨rfl, fun _ _ => ⟨.inr rfl, fun _ _ => ⟨rfl, fun _ _ =>
        ⟨rfl, fun _ _ => ⟨⟨_, rfl, fun _ _ => nofun⟩, fun _ _ => rfl⟩⟩⟩⟩⟩⟩
    · rename_i untouched
      exact ⟨⟨_, rfl, fun _ _ isHalfOpen => untouched (.inl isHalfOpen)⟩, fun _ _ => rfl⟩

theorem obeys_isOpen :
    isOpen.Obeys breakerAutomaton (fun _ phase => phase.stage.holdsState = false) .start := by
  refine ⟨rfl, fun state _ => ?_⟩
  cases state <;> rfl

theorem obeys_intercept (config : CircuitBreakerConfig) :
    (intercept config).Obeys breakerAutomaton (fun _ phase => phase.stage.holdsState = false)
      .start := by
  refine (obeys_canExecute config).bind ?_
  intro permission _ phase
  subst phase
  cases permission with
  | denied => rfl
  | allow | probe =>
    refine ⟨rfl, fun succeeded _ => ?_⟩
    cases succeeded with
    | true => exact (obeys_recordSuccess (by exact nofun)).bind fun _ _ released => released
    | false => exact (obeys_recordFailure config (by exact nofun)).bind fun _ _ released => released

/-- Every job keeps to the automaton, and gives its locks back. -/
theorem obeys_job (config : CircuitBreakerConfig) (job : BreakerJob) :
    (job.program config).Obeys breakerAutomaton (fun _ phase => phase.stage.holdsState = false)
      .start := by
  cases job with
  | canExecute =>
    refine (obeys_canExecute config).bind ?_
    rintro permission _ rfl
    rfl
  | recordSuccess => exact (obeys_recordSuccess (by exact nofun)).bind fun _ _ released => released
  | recordFailure => exact (obeys_recordFailure config (by exact nofun)).bind fun _ _ released => released
  | isOpen => exact obeys_isOpen.bind fun _ _ released => released
  | intercept => exact (obeys_intercept config).bind fun _ _ released => released

end Obeys

/-! ## What the locks protect -/

/-- The phase of every caller. -/
def callerPhases [DecidableEq ι] (history : List (BreakerLabel ι)) (thread : ι) : CallerPhase :=
  breakerAutomaton.phaseOf .start thread history

/-- Who holds a lock is at a stage that does, and what a caller has seen under the lock is
    still so.  An open breaker has tripped, unless a caller is about to say when. -/
structure BreakerInv (shared : SharedBreaker ι) (phases : ι → CallerPhase) : Prop where
  stateWriter : ∀ thread, (phases thread).stage.holdsState = true ↔ shared.stateWriter = some thread
  trippedWriter : ∀ thread,
    (phases thread).stage.holdsTripped = true ↔ shared.trippedWriter = some thread
  seen : ∀ thread state, (phases thread).stage.sees = some state →
    shared.fields.breaker.state = state
  tripped : shared.fields.breaker.state = .opened → shared.fields.breaker.lastTrippedAt = none →
    ∃ thread, (phases thread).stage.unsettled = true
  sawOpen : ∀ thread, (phases thread).stage = .sawOpen →
    shared.fields.breaker.lastTrippedAt ≠ none

namespace BreakerInv

variable {shared after : SharedBreaker ι} {phases : ι → CallerPhase}

theorem initial : BreakerInv (SharedBreaker.new : SharedBreaker ι) fun _ => .start where
  stateWriter := by simp [CallerPhase.start, SharedBreaker.new, LockStage.holdsState]
  trippedWriter := by simp [CallerPhase.start, SharedBreaker.new, LockStage.holdsTripped]
  seen := by simp [CallerPhase.start, LockStage.sees]
  tripped := by simp [SharedBreaker.new, WasmCircuitBreaker.new]
  sawOpen := by simp [CallerPhase.start]

/-- The clock may move on. -/
theorem tick (inv : BreakerInv shared phases) (clock : Nat) :
    BreakerInv { shared with fields.clock := clock } phases :=
  ⟨inv.stateWriter, inv.trippedWriter, inv.seen, inv.tripped, inv.sawOpen⟩

end BreakerInv

/-! ## A caller that no lock keeps waiting -/

/-- An access that no lock forbids. -/
def SharedBreaker.handle (guest : GuestRun) (thread : ι) (call : BreakerCall)
    (shared : SharedBreaker ι) : call.Answer × SharedBreaker ι :=
  ((call.apply guest shared.fields).1, ⟨(call.apply guest shared.fields).2,
    (shared.relock thread call).1, (shared.relock thread call).2⟩)

/-- The locks that are held are the caller's own. -/
structure OwnLocks (thread : ι) (phase : CallerPhase) (shared : SharedBreaker ι) : Prop where
  stateWriter : shared.stateWriter = if phase.stage.holdsState then some thread else none
  trippedWriter : shared.trippedWriter = if phase.stage.holdsTripped then some thread else none

theorem OwnLocks.permits {thread : ι} {phase : CallerPhase} {shared : SharedBreaker ι} {call : BreakerCall}
    (own : OwnLocks thread phase shared) (allowed : phase.allowed call) : shared.Permits call := by
  obtain ⟨stateWriter, trippedWriter⟩ := own
  cases call with
  | readState | readTrippedAt | lockState | lockTrippedAt =>
    simp only [CallerPhase.allowed] at allowed
    simp [SharedBreaker.Permits, stateWriter, trippedWriter, allowed, LockStage.holdsState,
      LockStage.holdsTripped]
  | _ => trivial

theorem OwnLocks.handle {thread : ι} {phase : CallerPhase} {shared : SharedBreaker ι} {call : BreakerCall}
    (guest : GuestRun) (own : OwnLocks thread phase shared) (allowed : phase.allowed call) :
    OwnLocks thread
      (breakerAutomaton.next phase ⟨call, (shared.handle guest thread call).1⟩)
      (shared.handle guest thread call).2 := by
  obtain ⟨stateWriter, trippedWriter⟩ := own
  cases call with
  | setState state =>
    cases state <;> simp only [CallerPhase.allowed] at allowed <;> constructor <;>
      simp only [SharedBreaker.handle, SharedBreaker.relock, breakerAutomaton,
        CallerPhase.nextStage] <;>
      grind [LockStage.holdsState, LockStage.holdsTripped]
  | _ =>
    simp only [CallerPhase.allowed] at allowed
    constructor <;>
      simp only [SharedBreaker.handle, SharedBreaker.relock, breakerAutomaton,
        CallerPhase.nextStage] <;>
      grind [LockStage.holdsState, LockStage.holdsTripped]

namespace BreakerInv

variable {shared after : SharedBreaker ι} {phases : ι → CallerPhase}

/-- The lock of the trip is taken under the lock of the state only. -/
theorem nested {thread : ι} (inv : BreakerInv shared phases) (tripping : shared.trippedWriter = some thread) :
    shared.stateWriter = some thread := by
  rw [← inv.trippedWriter] at tripping
  rw [← inv.stateWriter]
  cases atStage : (phases thread).stage <;>
    simp_all [LockStage.holdsState, LockStage.holdsTripped]

/-- Whoever holds the lock of the state is not kept waiting for the other. -/
theorem own {thread : ι} (inv : BreakerInv shared phases) (held : shared.stateWriter = some thread) :
    OwnLocks thread (phases thread) shared := by
  constructor
  · rw [(inv.stateWriter thread).mpr held, held]
    rfl
  · cases writer : shared.trippedWriter with
    | none =>
      have untaken : (phases thread).stage.holdsTripped ≠ true := by
        rw [Ne, inv.trippedWriter, writer]
        exact nofun
      rw [if_neg untaken]
    | some other =>
      obtain rfl : other = thread := Option.some.inj ((inv.nested writer).symm.trans held)
      rw [if_pos ((inv.trippedWriter other).mpr writer)]

/-! ### Accesses -/

section Access

variable [DecidableEq ι] {thread : ι} {next : CallerPhase}

/-- One caller moves on, and the others are left what they hold and know. -/
theorem move (inv : BreakerInv shared phases)
    (stateWriter : next.stage.holdsState = true ↔ after.stateWriter = some thread)
    (trippedWriter : next.stage.holdsTripped = true ↔ after.trippedWriter = some thread)
    (othersState : ∀ other, other ≠ thread →
      (shared.stateWriter = some other ↔ after.stateWriter = some other))
    (othersTripped : ∀ other, other ≠ thread →
      (shared.trippedWriter = some other ↔ after.trippedWriter = some other))
    (sees : ∀ state, next.stage.sees = some state → after.fields.breaker.state = state)
    (othersSee : ∀ other, other ≠ thread → shared.stateWriter = some other →
      after.fields.breaker.state = shared.fields.breaker.state)
    (tripped : after.fields.breaker.state = .opened → after.fields.breaker.lastTrippedAt = none →
      next.stage.unsettled = true ∨ ∃ other, other ≠ thread ∧ (phases other).stage.unsettled = true)
    (sawOpen : next.stage = .sawOpen → after.fields.breaker.lastTrippedAt ≠ none)
    (stays : shared.fields.breaker.lastTrippedAt ≠ none →
      after.fields.breaker.lastTrippedAt ≠ none) :
    BreakerInv after (Function.update phases thread next) := by
  constructor
  case stateWriter =>
    intro other
    by_cases isThread : other = thread
    · subst isThread
      rw [Function.update_self, stateWriter]
    · rw [Function.update_of_ne isThread, inv.stateWriter, othersState other isThread]
  case trippedWriter =>
    intro other
    by_cases isThread : other = thread
    · subst isThread
      rw [Function.update_self, trippedWriter]
    · rw [Function.update_of_ne isThread, inv.trippedWriter, othersTripped other isThread]
  case seen =>
    intro other state seen
    by_cases isThread : other = thread
    · subst isThread
      rw [Function.update_self] at seen
      exact sees state seen
    · rw [Function.update_of_ne isThread] at seen
      have writes := (inv.stateWriter other).mp (LockStage.holdsState_of_sees seen)
      rw [othersSee other isThread writes]
      exact inv.seen other state seen
  case tripped =>
    intro isOpened untold
    obtain own | ⟨other, different, unsettled⟩ := tripped isOpened untold
    · exact ⟨thread, by rw [Function.update_self, own]⟩
    · exact ⟨other, by rw [Function.update_of_ne different, unsettled]⟩
  case sawOpen =>
    intro other isSawOpen
    by_cases isThread : other = thread
    · subst isThread
      rw [Function.update_self] at isSawOpen
      exact sawOpen isSawOpen
    · rw [Function.update_of_ne isThread] at isSawOpen
      exact stays (inv.sawOpen other isSawOpen)

/-- A move that changes neither the locks nor what they protect. -/
theorem quiet (inv : BreakerInv shared phases) {fields : BreakerState}
    (sameState : fields.breaker.state = shared.fields.breaker.state)
    (sameTripped : fields.breaker.lastTrippedAt = shared.fields.breaker.lastTrippedAt)
    {stage : LockStage} (isStage : (phases thread).stage = stage)
    (sameLock : next.stage.holdsState = stage.holdsState)
    (sameTrippedLock : next.stage.holdsTripped = stage.holdsTripped)
    (stillUnsettled : next.stage.unsettled = stage.unsettled)
    (sees : ∀ state, next.stage.sees = some state → shared.fields.breaker.state = state)
    (sawOpen : next.stage = .sawOpen → shared.fields.breaker.lastTrippedAt ≠ none) :
    BreakerInv { shared with fields := fields } (Function.update phases thread next) := by
  subst isStage
  apply inv.move
  case stateWriter => rw [sameLock, inv.stateWriter]
  case trippedWriter => rw [sameTrippedLock, inv.trippedWriter]
  case othersState => exact fun _ _ => Iff.rfl
  case othersTripped => exact fun _ _ => Iff.rfl
  case sees => exact fun state isSeen => sameState.trans (sees state isSeen)
  case othersSee => exact fun _ _ _ => sameState
  case tripped =>
    intro isOpened untold
    obtain ⟨other, unsettled⟩ := inv.tripped (sameState ▸ isOpened) (sameTripped ▸ untold)
    by_cases isThread : other = thread
    · subst isThread
      exact .inl (stillUnsettled.trans unsettled)
    · exact .inr ⟨other, isThread, unsettled⟩
  case sawOpen => exact fun isSawOpen => sameTripped ▸ sawOpen isSawOpen
  case stays => exact fun isTold => sameTripped ▸ isTold

/-- Whoever holds the lock of the state holds both alone, so nobody else is in the way. -/
theorem moveLocked (inv : BreakerInv shared phases)
    (held : shared.stateWriter = some thread) (locks : OwnLocks thread next after)
    (sees : ∀ state, next.stage.sees = some state → after.fields.breaker.state = state)
    (tripped : after.fields.breaker.state = .opened → after.fields.breaker.lastTrippedAt = none →
      next.stage.unsettled = true)
    (notSawOpen : next.stage ≠ .sawOpen)
    (stays : shared.fields.breaker.lastTrippedAt ≠ none →
      after.fields.breaker.lastTrippedAt ≠ none) :
    BreakerInv after (Function.update phases thread next) := by
  -- nobody else holds the lock, so nobody else has seen the state or is tripping
  have alone : ∀ other, other ≠ thread → shared.stateWriter ≠ some other := by
    intro other different isOther
    exact different (Option.some.inj (isOther.symm.trans held))
  have notOther : ∀ (holds : Bool) (other : ι), other ≠ thread →
      (if holds then some thread else none) ≠ some other := by
    intro holds other different
    cases holds with
    | true => exact fun same => different (Option.some.inj same).symm
    | false => exact nofun
  apply inv.move
  case stateWriter =>
    rw [locks.stateWriter]
    cases next.stage.holdsState <;> simp
  case trippedWriter =>
    rw [locks.trippedWriter]
    cases next.stage.holdsTripped <;> simp
  case othersState =>
    intro other different
    exact iff_of_false (alone other different) (locks.stateWriter ▸ notOther _ other different)
  case othersTripped =>
    intro other different
    exact iff_of_false (fun tripping => alone other different (inv.nested tripping))
      (locks.trippedWriter ▸ notOther _ other different)
  case sees => exact sees
  case othersSee => exact fun other different writes => absurd writes (alone other different)
  case tripped => exact fun isOpened untold => .inl (tripped isOpened untold)
  case sawOpen => exact fun isSawOpen => absurd isSawOpen notSawOpen
  case stays => exact stays

end Access

/-- At such a stage the caller holds the lock of the state. -/
theorem held (inv : BreakerInv shared phases) {thread : ι} {stage : LockStage}
    (isStage : (phases thread).stage = stage) (holds : stage.holdsState = true) :
    shared.stateWriter = some thread :=
  (inv.stateWriter thread).mp (isStage ▸ holds)

/-- Where nobody is about to say when it tripped, an open breaker has said so. -/
theorem told (inv : BreakerInv shared phases) {thread : ι}
    (held : shared.stateWriter = some thread) (quiet : (phases thread).stage.unsettled = false)
    (isOpened : shared.fields.breaker.state = .opened) :
    shared.fields.breaker.lastTrippedAt ≠ none := by
  intro untold
  obtain ⟨other, unsettled⟩ := inv.tripped isOpened untold
  have writes := (inv.stateWriter other).mp (LockStage.holdsState_of_unsettled unsettled)
  obtain rfl : other = thread := Option.some.inj (writes.symm.trans held)
  rw [quiet] at unsettled
  cases unsettled

/-- So has one that nobody writes. -/
theorem told_of_free (inv : BreakerInv shared phases) (free : shared.stateWriter = none)
    (isOpened : shared.fields.breaker.state = .opened) :
    shared.fields.breaker.lastTrippedAt ≠ none := by
  intro untold
  obtain ⟨other, unsettled⟩ := inv.tripped isOpened untold
  have writes := (inv.stateWriter other).mp (LockStage.holdsState_of_unsettled unsettled)
  rw [free] at writes
  cases writes

/-- Every access of a caller that keeps to the automaton keeps the invariant. -/
theorem access [DecidableEq ι] (inv : BreakerInv shared phases) {thread : ι} {call : BreakerCall}
    {answer : call.Answer} {guest : GuestRun} (allowed : (phases thread).allowed call)
    (accessed : shared.access guest thread call = some (answer, after)) :
    BreakerInv after (Function.update phases thread
      (breakerAutomaton.next (phases thread) ⟨call, answer⟩)) := by
  simp only [SharedBreaker.access, Option.ite_none_right_eq_some, Option.some.injEq,
    Prod.mk.injEq] at accessed
  obtain ⟨permits, rfl, rfl⟩ := accessed
  cases call with
  | readState =>
    have free : shared.stateWriter = none := permits
    have outside : (phases thread).stage = .outside := congrArg CallerPhase.stage allowed
    simp only [breakerAutomaton, BreakerCall.apply]
    rw [outside]
    cases state : shared.fields.breaker.state with
    | closed | halfOpen => exact inv.quiet rfl rfl outside rfl rfl rfl nofun nofun
    | opened => exact inv.quiet rfl rfl outside rfl rfl rfl nofun fun _ => inv.told_of_free free state
  | readTrippedAt =>
    have sawOpen : (phases thread).stage = .sawOpen := allowed
    exact inv.quiet rfl rfl sawOpen rfl rfl rfl nofun nofun
  | now | storeFailures _ | fetchAddFailures _ | invokeGuest =>
    exact inv.quiet rfl rfl rfl rfl rfl rfl (inv.seen thread) (inv.sawOpen thread)
  | lockState =>
    have free : shared.stateWriter = none := permits
    have outside : (phases thread).stage = .outside := allowed
    -- the inner lock is only taken under the outer one
    have nobody : ∀ other, shared.trippedWriter ≠ some other := by
      intro other tripping
      rw [inv.nested tripping] at free
      cases free
    apply inv.move
    case stateWriter => exact iff_of_true rfl rfl
    case trippedWriter => exact iff_of_false nofun (nobody thread)
    case othersState =>
      intro other different
      rw [free]
      exact iff_of_false nofun fun same => different (Option.some.inj same).symm
    case othersTripped => exact fun _ _ => Iff.rfl
    case sees => exact nofun
    case othersSee => exact fun _ _ _ => rfl
    case tripped => exact fun isOpened untold => absurd untold (inv.told_of_free free isOpened)
    case sawOpen => exact nofun
    case stays => exact id
  | getState =>
    have locked : (phases thread).stage = .locked none := allowed
    exact inv.quiet rfl rfl locked rfl rfl rfl (fun state seen => Option.some.inj seen) nofun
  | setState state =>
    obtain ⟨seen, locked⟩ : ∃ seen, (phases thread).stage = .locked seen := by
      cases state with
      | halfOpen => exact ⟨_, congrArg CallerPhase.stage allowed⟩
      | closed | opened => exact allowed.2
    have held := inv.held locked rfl
    -- from here on the caller holds the lock, so nobody else is in the way
    have locks := (inv.own held).handle guest allowed
    cases state with
    | opened =>
      exact inv.moveLocked held locks (fun _ isSeen => Option.some.inj isSeen) (fun _ _ => rfl) nofun id
    | closed | halfOpen =>
      exact inv.moveLocked held locks (fun _ isSeen => Option.some.inj isSeen) nofun nofun id
  | unlockState =>
    obtain ⟨seen, locked, -⟩ := id allowed
    have held := inv.held locked rfl
    refine inv.moveLocked held ((inv.own held).handle guest allowed) nofun ?_ nofun id
    intro isOpened untold
    exact absurd untold (inv.told held (by rw [locked]; rfl) isOpened)
  | lockTrippedAt =>
    have opening : (phases thread).stage = .opening := allowed
    have held := inv.held opening rfl
    refine inv.moveLocked held ((inv.own held).handle guest allowed) ?_ (fun _ _ => rfl) nofun id
    intro state isSeen
    exact inv.seen thread state (by rw [opening]; exact isSeen)
  | setTrippedAt _ =>
    have tripping : (phases thread).stage = .tripping := allowed
    have held := inv.held tripping rfl
    refine inv.moveLocked held ((inv.own held).handle guest allowed) ?_ nofun nofun nofun
    intro state isSeen
    exact inv.seen thread state (by rw [tripping]; exact isSeen)
  | unlockTrippedAt =>
    have settled : (phases thread).stage = .settled := allowed
    have held := inv.held settled rfl
    refine inv.moveLocked held ((inv.own held).handle guest allowed) ?_ ?_ nofun id
    · intro state isSeen
      exact inv.seen thread state (by rw [settled]; exact isSeen)
    · intro isOpened untold
      exact absurd untold (inv.told held (by rw [settled]; rfl) isOpened)

end BreakerInv

/-- No access takes back the instant of a trip. -/
theorem SharedBreaker.access_tripped {shared after : SharedBreaker ι} {guest : GuestRun}
    {thread : ι} {call : BreakerCall} {answer : call.Answer}
    (accessed : shared.access guest thread call = some (answer, after))
    (tripped : shared.fields.breaker.lastTrippedAt ≠ none) :
    after.fields.breaker.lastTrippedAt ≠ none := by
  simp only [SharedBreaker.access, Option.ite_none_right_eq_some, Option.some.injEq,
    Prod.mk.injEq] at accessed
  obtain ⟨_, -, rfl⟩ := accessed
  cases call with
  | setTrippedAt instant => exact Option.some_ne_none instant
  | _ => exact tripped

/-! ## Every run -/

section Runs

variable [DecidableEq ι] {config : CircuitBreakerConfig} {jobs : ι → BreakerJob}
  {reached next : BreakerConfiguration ι} {thread : ι} {event : Event breakerSignature}

theorem callerPhases_perform (history : List (BreakerLabel ι)) (thread : ι)
    (event : Event breakerSignature) :
    callerPhases (history ++ [.perform thread event]) =
      Function.update (callerPhases history) thread
        (breakerAutomaton.next (callerPhases history thread) event) :=
  breakerAutomaton.phasesOf_perform .start history thread event

theorem callerPhases_silent (history : List (BreakerLabel ι)) {label : BreakerLabel ι}
    (silent : ∀ thread event, label ≠ .perform thread event) :
    callerPhases (history ++ [label]) = callerPhases history :=
  breakerAutomaton.phasesOf_silent .start history silent

/-- A caller's accesses are those that its phase allows. -/
theorem allowed_of_perform (reaches : (breakerSystem config jobs).Reaches .new reached)
    (step : (breakerSystem config jobs).Step reached (.perform thread event) next) :
    (callerPhases reached.moment.history thread).allowed event.call ∧
      ∃ guest, reached.moment.shared.access guest thread event.call =
        some (event.answer, next.moment.shared) := by
  cases step with
  | perform running effect =>
    exact ⟨(reaches.obeys (obeys_job config (jobs thread)) (fun _ => trivial) running).1, effect⟩

theorem BreakerInv.of_reaches (reaches : (breakerSystem config jobs).Reaches .new reached) :
    BreakerInv reached.moment.shared (callerPhases reached.moment.history) := by
  induction reaches with
  | initial => exact .initial
  | @step before after label earlier step inv =>
    rw [step.history_eq]
    cases label with
    | perform thread event =>
      obtain ⟨allowed, guest, accessed⟩ := allowed_of_perform earlier step
      rw [callerPhases_perform]
      exact inv.access allowed accessed
    | start thread =>
      rw [callerPhases_silent _ nofun]
      cases step with
      | start _ => exact inv
    | finish thread value =>
      rw [callerPhases_silent _ nofun]
      cases step with
      | finish _ => exact inv
    | environment ticks =>
      rw [callerPhases_silent _ nofun]
      cases step with
      | environment effect =>
        subst effect
        exact inv.tick _

/-! ## An open breaker has tripped -/

/-- From when a caller has seen the breaker open on, it has tripped. -/
theorem tripped_of_readState (reaches : (breakerSystem config jobs).Reaches .new reached)
    (read : .perform thread ⟨.readState, .opened⟩ ∈ reached.moment.history) :
    reached.moment.shared.fields.breaker.lastTrippedAt ≠ none := by
  induction reaches with
  | initial => cases read
  | @step before after label earlier step inductionHypothesis =>
    rw [step.history_eq] at read
    rcases List.mem_append.mp read with already | now
    · have tripped := inductionHypothesis already
      cases label with
      | perform other event =>
        obtain ⟨-, guest, accessed⟩ := allowed_of_perform earlier step
        exact SharedBreaker.access_tripped accessed tripped
      | start _ => cases step with | start _ => exact tripped
      | finish _ _ => cases step with | finish _ => exact tripped
      | environment _ =>
        cases step with
        | environment effect =>
          subst effect
          exact tripped
    · rw [← List.mem_singleton.mp now] at step
      obtain ⟨-, guest, accessed⟩ := allowed_of_perform earlier step
      simp only [SharedBreaker.access, Option.ite_none_right_eq_some, Option.some.injEq,
        Prod.mk.injEq] at accessed
      obtain ⟨free, opened, isAfter⟩ := accessed
      rw [← isAfter]
      intro untold
      -- whoever has opened it and not yet said when would hold the lock
      obtain ⟨writer, unsettled⟩ := (BreakerInv.of_reaches earlier).tripped opened untold
      have holds := (BreakerInv.of_reaches earlier).stateWriter writer |>.mp
        (LockStage.holdsState_of_unsettled unsettled)
      rw [free] at holds
      cases holds

/-- Whoever reads when the breaker tripped is told. -/
theorem answer_of_readTrippedAt (reaches : (breakerSystem config jobs).Reaches .new reached)
    {answer : Option Nat}
    (read : .perform thread ⟨.readTrippedAt, answer⟩ ∈ reached.moment.history) : answer ≠ none := by
  obtain ⟨past, future, split⟩ := List.append_of_mem read
  obtain ⟨before, after, earlier, -, step⟩ := reaches.step_at split
  obtain ⟨allowed, guest, accessed⟩ := allowed_of_perform earlier step
  simp only [SharedBreaker.access, Option.ite_none_right_eq_some, Option.some.injEq,
    Prod.mk.injEq] at accessed
  obtain ⟨-, told, -⟩ := accessed
  rw [← told]
  exact (BreakerInv.of_reaches earlier).sawOpen thread allowed

/-! ## Nobody is denied for ever -/

/-- A caller whom nobody keeps from a lock comes to its end, as if it were alone. -/
theorem leads_alone {program : BreakerProg (Option CircuitPermission)} {phase : CallerPhase}
    (guest : GuestRun)
    (obeys : program.Obeys breakerAutomaton (fun _ phase => phase.stage.holdsState = false) phase)
    (own : OwnLocks thread phase reached.moment.shared)
    (running : reached.threads thread = .running program) :
    ∃ later, (breakerSystem config jobs).Leads reached later ∧
      later.threads = Function.update reached.threads thread (.finished
        (program.interp (BreakerCall.apply guest) reached.moment.shared.fields).1) ∧
      later.moment.shared.stateWriter = none ∧ later.moment.shared.trippedWriter = none := by
  obtain ⟨later, phase', leads, threads, -, released, ownLater⟩ :=
    System.leads_alone (breakerSystem config jobs)
      (fun call shared => shared.handle guest thread call) (OwnLocks thread)
      (fun phase call shared own allowed => ⟨guest, if_pos (own.permits allowed)⟩)
      (fun phase call shared own allowed => ⟨trivial, own.handle guest allowed⟩) obeys own running
  have settled : phase'.stage.holdsTripped = false := by
    cases atStage : phase'.stage <;> simp_all [LockStage.holdsState, LockStage.holdsTripped]
  refine ⟨later, leads, ?_, ?_, ?_⟩
  · rw [threads, (Prog.interp_view SharedBreaker.fields (fun _ _ => rfl) (fun _ _ => rfl) program
      reached.moment.shared).1]
  · rw [ownLater.stateWriter, released]
    rfl
  · rw [ownLater.trippedWriter, settled]
    rfl

/-- The locks are given back, whatever the callers that hold none are doing. -/
theorem leads_unlocked (reaches : (breakerSystem config jobs).Reaches .new reached) :
    ∃ later, (breakerSystem config jobs).Leads reached later ∧
      later.moment.shared.stateWriter = none ∧ later.moment.shared.trippedWriter = none ∧
      ∀ thread, reached.threads thread = .idle → later.threads thread = .idle := by
  have inv := BreakerInv.of_reaches reaches
  cases held : reached.moment.shared.stateWriter with
  | none =>
    -- the second lock is taken under the first only
    refine ⟨reached, .refl reached, held, ?_, fun _ idle => idle⟩
    rw [Option.eq_none_iff_forall_ne_some]
    intro thread tripping
    rw [inv.nested tripping] at held
    cases held
  | some writer =>
    have holds := (inv.stateWriter writer).mpr held
    cases state : reached.threads writer with
    | idle =>
      have fresh := Automaton.phaseOf_fresh breakerAutomaton .start (reaches.fresh_of_idle state)
      rw [callerPhases, fresh] at holds
      cases holds
    | finished value =>
      have released := reaches.obeyed (obeys_job config (jobs writer)) (fun _ => trivial) state
      rw [callerPhases, released] at holds
      cases holds
    | running program =>
      -- the others stand still until the writer has left its section
      obtain ⟨later, leads, threads, stateFree, trippedFree⟩ := leads_alone ⟨true, 0⟩
        (reaches.obeys (obeys_job config (jobs writer)) (fun _ => trivial) state)
        (inv.own held) state
      refine ⟨later, leads, stateFree, trippedFree, fun thread idle => ?_⟩
      have other : thread ≠ writer := by
        rintro rfl
        rw [idle] at state
        cases state
      rw [threads, Function.update_of_ne other, idle]

/-- Whatever has happened, a call made late enough is not denied. -/
theorem leads_permitted (reaches : (breakerSystem config jobs).Reaches .new reached)
    (idle : reached.threads thread = .idle) (isCall : jobs thread = .canExecute) :
    ∃ later permission, (breakerSystem config jobs).Leads reached later ∧
      later.threads thread = .finished (some permission) ∧ permission ≠ .denied := by
  obtain ⟨unlocked, toUnlocked, stateFree, trippedFree, stillIdle⟩ := leads_unlocked reaches
  have inv := BreakerInv.of_reaches (toUnlocked.reaches reaches)
  obtain ⟨waited, tick, threads, shared⟩ : ∃ waited,
      (breakerSystem config jobs).Step unlocked (.environment (config.cooloffDuration +
        unlocked.moment.shared.fields.breaker.lastTrippedAt.getD 0)) waited ∧
      waited.threads = unlocked.threads ∧ waited.moment.shared =
        { unlocked.moment.shared with fields.clock := unlocked.moment.shared.fields.clock +
          (config.cooloffDuration +
            unlocked.moment.shared.fields.breaker.lastTrippedAt.getD 0) } :=
    ⟨_, .environment rfl, rfl, rfl⟩
  obtain ⟨started, start, startedThreads, startedShared⟩ : ∃ started,
      (breakerSystem config jobs).Step waited (.start thread) started ∧
      started.threads = Function.update waited.threads thread
        (.running ((jobs thread).program config)) ∧
      started.moment.shared = waited.moment.shared :=
    ⟨_, .start (threads ▸ stillIdle thread idle), rfl, rfl⟩
  have own : OwnLocks thread .start started.moment.shared := by
    rw [startedShared, shared]
    exact ⟨stateFree, trippedFree⟩
  obtain ⟨later, alone, finished, -, -⟩ := leads_alone ⟨true, 0⟩ (obeys_job config (jobs thread)) own
    (by rw [startedThreads, Function.update_self])
  have toLater := ((toUnlocked.trans tick.leads).trans start.leads).trans alone
  rw [isCall, BreakerJob.program, Prog.interp_bind, startedShared, shared] at finished
  refine ⟨later, _, toLater, by rw [finished, Function.update_self]; rfl, ?_⟩
  apply WasmCircuitBreaker.canExecute_permits
  intro opened
  cases tripped : unlocked.moment.shared.fields.breaker.lastTrippedAt with
  | none =>
    -- whoever has opened it and not yet said when would hold the lock
    obtain ⟨writer, unsettled⟩ := inv.tripped opened tripped
    have holds := (inv.stateWriter writer).mp (LockStage.holdsState_of_unsettled unsettled)
    rw [stateFree] at holds
    cases holds
  | some instant =>
    refine ⟨instant, rfl, ?_⟩
    simp only [Option.getD_some]
    omega

/-- A run of invocations one after the other gets the permissions of the reference automaton
    and leaves the breaker as it says.  Among any other callers, whoever sees the breaker open
    finds that it has tripped, then and ever after; so some later call is not denied. -/
theorem circuitBreaker_specification (config : CircuitBreakerConfig) (invocations : List Invocation)
    (inTurn : ReferenceBreaker.InTurn invocations)
    (countable : ReferenceBreaker.Countable config .new invocations) (jobs : ι → BreakerJob)
    {reached : BreakerConfiguration ι}
    (reaches : (breakerSystem config jobs).Reaches .new reached) :
    ((WasmCircuitBreaker.invokeAll config invocations .new).1 =
        (ReferenceBreaker.invokeAll config invocations .new).1 ∧
      (ReferenceBreaker.invokeAll config invocations .new).2.Describes
        (WasmCircuitBreaker.invokeAll config invocations .new).2) ∧
    (∀ thread, .perform thread ⟨.readState, .opened⟩ ∈ reached.moment.history →
      reached.moment.shared.fields.breaker.lastTrippedAt ≠ none) ∧
    (∀ thread answer, .perform thread ⟨.readTrippedAt, answer⟩ ∈ reached.moment.history →
      answer ≠ none) ∧
    ∀ thread, reached.threads thread = .idle → jobs thread = .canExecute →
      ∃ later permission, (breakerSystem config jobs).Leads reached later ∧
        later.threads thread = .finished (some permission) ∧ permission ≠ .denied := by
  have alone := ReferenceBreaker.describes_new.invokeAll
    (fun _ opened => nomatch opened) (fun _ _ => Nat.zero_le _) inTurn countable
  refine ⟨alone, fun thread read => ?_, fun thread answer read => ?_, fun thread idle isCall => ?_⟩
  · exact tripped_of_readState reaches read
  · exact answer_of_readTrippedAt reaches read
  · exact leads_permitted reaches idle isCall

end Runs

/-! ## Concrete runs -/

def breakerScheduler [DecidableEq ι] (config : CircuitBreakerConfig) (jobs : ι → BreakerJob) :
    Scheduler (breakerSystem config jobs) GuestRun where
  answer := fun guest thread call shared => shared.access guest thread call
  event := fun ticks shared =>
    some { shared with fields.clock := shared.fields.clock + ticks }
  answer_sound := fun guest _ _ _ _ answered => ⟨guest, answered⟩
  event_sound := fun _ _ _ happened => (Option.some.inj happened).symm

/-- Two failures trip this breaker for ten ticks. -/
def pairBreaker : CircuitBreakerConfig := ⟨2, 10⟩

/-- Two failures, a call during the cooloff, a failed probe, and a successful one. -/
def pairInvocations : List Invocation :=
  [⟨1, false, 2, by decide⟩, ⟨3, false, 4, by decide⟩, ⟨5, true, 5, by decide⟩,
    ⟨14, false, 15, by decide⟩, ⟨25, true, 26, by decide⟩]

theorem circuitBreaker_specification_pair :
    (WasmCircuitBreaker.invokeAll pairBreaker pairInvocations .new).1 =
      [.allow, .allow, .denied, .probe, .probe] ∧
    ∃ later permission,
      (breakerSystem pairBreaker fun _ : Fin 2 => .canExecute).Leads (System.initial .new) later ∧
        later.threads 0 = .finished (some permission) ∧ permission ≠ .denied := by
  have countable : ReferenceBreaker.Countable pairBreaker .new pairInvocations := by
    have all : ∀ past ∈ pairInvocations.inits,
        (ReferenceBreaker.invokeAll pairBreaker past .new).2.failures < 2 ^ 32 - 1 := by decide
    exact fun past isPrefix => all past ((List.mem_inits past pairInvocations).mpr isPrefix)
  have specification := circuitBreaker_specification pairBreaker pairInvocations
    (by unfold ReferenceBreaker.InTurn; decide) countable (fun _ : Fin 2 => .canExecute) .initial
  exact ⟨specification.1.1.trans (by decide), specification.2.2.2 0 rfl rfl⟩

end SpectraGQL.Interceptors
