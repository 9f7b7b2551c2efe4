import SpectraGQL.Interceptors.Probes

/-! # Outcomes from before a trip

`record_success` closes the breaker and zeroes its counter whoever calls it, and when.  A caller
that was let through before a trip and comes back after it ends the cooloff that has just begun.
`can_execute`, on the other hand, looks at the state again under the lock but not at the instant
of the trip, so a breaker that was probed and has tripped again in between turns half-open at
once.

In the runs in which neither happens the breaker leaves `Open` for `HalfOpen` only, when the
cooloff is over, and it is closed by a probe of its own epoch.
-/

namespace SpectraGQL.Interceptors

open Interaction

variable {ι : Type}

/-! ## The course of an invocation -/

/-- Where in `intercept_*` a caller is, with what it has read on its way. -/
inductive Course where
  | idle
  | sawOpen
  /-- It has read when the breaker tripped. -/
  | knows (instant : Nat)
  /-- It has found the cooloff over. -/
  | overdue (instant : Nat)
  /-- It has taken the lock. -/
  | looking (instant : Nat)
  /-- It has found the breaker open under the lock. -/
  | turning (instant : Nat)
  | turned
  | refused
  | admitted (probe : Bool)
  /-- `invoke_guest` has returned `Ok`. -/
  | succeeded (probe : Bool)
  | erased (probe : Bool)
  | closing (probe : Bool)
  | recorded (probe : Bool)
  /-- `invoke_guest` has failed, and `record_failure` is under way or over. -/
  | failed (probe : Bool)
  deriving DecidableEq

namespace Course

/-- Whether the caller has been let through, and as a probe. -/
def permission : Course → Option Bool
  | .turned => some true
  | .admitted probe | .succeeded probe | .erased probe | .closing probe | .recorded probe
  | .failed probe => some probe
  | .idle | .sawOpen | .knows _ | .overdue _ | .looking _ | .turning _ | .refused => none

/-- The guest has succeeded, and the breaker has not been closed for that yet. -/
def unrecorded : Course → Bool
  | .succeeded _ | .erased _ | .closing _ => true
  | .idle | .sawOpen | .knows _ | .overdue _ | .looking _ | .turning _ | .turned | .refused
  | .admitted _ | .recorded _ | .failed _ => false

/-- The caller has found the cooloff after this trip over. -/
def waited : Course → Option Nat
  | .overdue instant | .looking instant | .turning instant => some instant
  | .idle | .sawOpen | .knows _ | .turned | .refused | .admitted _ | .succeeded _ | .erased _
  | .closing _ | .recorded _ | .failed _ => none

/-- The caller is looking again under the lock. -/
def inspects : Course → Bool
  | .looking _ | .turning _ => true
  | .idle | .sawOpen | .knows _ | .overdue _ | .turned | .refused | .admitted _ | .succeeded _
  | .erased _ | .closing _ | .recorded _ | .failed _ => false

def allowed : Course → BreakerCall → Prop
  | .idle, .readState | .sawOpen, .readTrippedAt | .knows _, .now | .overdue _, .lockState
  | .looking _, .getState | .turning _, .setState .halfOpen | .turned, .unlockState
  | .refused, .unlockState | .admitted _, .invokeGuest | .succeeded _, .storeFailures _
  | .erased _, .lockState | .closing _, .setState .closed | .recorded _, .unlockState
  | .failed _, .fetchAddFailures _ | .failed _, .lockState | .failed _, .getState
  | .failed _, .setState .opened | .failed _, .lockTrippedAt | .failed _, .now
  | .failed _, .setTrippedAt _ | .failed _, .unlockTrippedAt | .failed _, .unlockState => True
  | _, _ => False

/-- Who turns the breaker half-open has found it open. -/
theorem turning_of_allowed {course : Course} (allowed : course.allowed (.setState .halfOpen)) :
    ∃ instant, course = .turning instant := by
  cases course with
  | turning instant => exact ⟨instant, rfl⟩
  | _ => exact allowed.elim

/-- Who closes the breaker records a success. -/
theorem closing_of_allowed {course : Course} (allowed : course.allowed (.setState .closed)) :
    ∃ probe, course = .closing probe := by
  cases course with
  | closing probe => exact ⟨probe, rfl⟩
  | _ => exact allowed.elim

/-- Who zeroes the counter records a success. -/
theorem succeeded_of_allowed {course : Course} {count : UInt32}
    (allowed : course.allowed (.storeFailures count)) : ∃ probe, course = .succeeded probe := by
  cases course with
  | succeeded probe => exact ⟨probe, rfl⟩
  | _ => exact allowed.elim

def next (config : CircuitBreakerConfig) (course : Course) (event : Event breakerSignature) :
    Course :=
  match course, event with
  | .idle, ⟨.readState, .closed⟩ => .admitted false
  | .idle, ⟨.readState, .opened⟩ => .sawOpen
  | .idle, ⟨.readState, .halfOpen⟩ => .admitted true
  | .sawOpen, ⟨.readTrippedAt, some instant⟩ => .knows instant
  | .sawOpen, ⟨.readTrippedAt, none⟩ => .refused
  | .knows instant, ⟨.now, clock⟩ =>
    if config.cooloffDuration ≤ clock - instant then .overdue instant else .refused
  | .overdue instant, ⟨.lockState, _⟩ => .looking instant
  | .looking instant, ⟨.getState, .opened⟩ => .turning instant
  | .looking _, ⟨.getState, _⟩ => .refused
  | .turning _, ⟨.setState .halfOpen, _⟩ => .turned
  | .turned, ⟨.unlockState, _⟩ => .admitted true
  | .admitted probe, ⟨.invokeGuest, true⟩ => .succeeded probe
  | .admitted probe, ⟨.invokeGuest, false⟩ => .failed probe
  | .succeeded probe, ⟨.storeFailures _, _⟩ => .erased probe
  | .erased probe, ⟨.lockState, _⟩ => .closing probe
  | .closing probe, ⟨.setState .closed, _⟩ => .recorded probe
  | _, _ => course

end Course

def courseAutomaton (config : CircuitBreakerConfig) : Automaton breakerSignature Course where
  allowed := Course.allowed
  possible := fun _ => True
  next := Course.next config

section Obeys

open WasmCircuitBreaker

variable (config : CircuitBreakerConfig)

/-- Where a caller is when `can_execute` has returned. -/
def CircuitPermission.Leaves : CircuitPermission → Course → Prop
  | .allow, course => course = .admitted false
  | .probe, course => course = .admitted true
  | .denied, course => course = .refused

theorem canExecute_course :
    (canExecute config).Obeys (courseAutomaton config) CircuitPermission.Leaves .idle := by
  refine ⟨trivial, fun state _ => ?_⟩
  cases state with
  | closed | halfOpen => rfl
  | opened =>
    refine ⟨trivial, fun trippedAt _ => ?_⟩
    cases trippedAt with
    | none => rfl
    | some instant =>
      refine ⟨trivial, fun clock _ => ?_⟩
      simp only [courseAutomaton, Course.next]
      change (if config.cooloffDuration ≤ clock - instant then _ else _ :
        BreakerProg CircuitPermission).Obeys _ _ _
      split
      · refine ⟨trivial, fun _ _ => ⟨trivial, fun state _ => ?_⟩⟩
        cases state with
        | opened => exact ⟨trivial, fun _ _ => ⟨trivial, fun _ _ => rfl⟩⟩
        | closed | halfOpen => exact ⟨trivial, fun _ _ => rfl⟩
      · rfl

theorem recordSuccess_course (probe : Bool) :
    recordSuccess.Obeys (courseAutomaton config) (fun _ course => course = .recorded probe)
      (.succeeded probe) :=
  ⟨trivial, fun _ _ => ⟨trivial, fun _ _ => ⟨trivial, fun _ _ => ⟨trivial, fun _ _ => rfl⟩⟩⟩⟩

theorem recordFailure_course (probe : Bool) :
    (recordFailure config).Obeys (courseAutomaton config) (fun _ course => course = .failed probe)
      (.failed probe) := by
  refine ⟨trivial, fun prev _ => ⟨trivial, fun _ _ => ⟨trivial, fun state _ => ?_⟩⟩⟩
  change (if state = .halfOpen ∨ config.consecutiveFailureThreshold ≤ prev + 1 then _ else _ :
    BreakerProg Unit).Obeys _ _ _
  split
  · exact ⟨trivial, fun _ _ => ⟨trivial, fun _ _ => ⟨trivial, fun _ _ => ⟨trivial, fun _ _ =>
      ⟨trivial, fun _ _ => ⟨trivial, fun _ _ => rfl⟩⟩⟩⟩⟩⟩
  · exact ⟨trivial, fun _ _ => rfl⟩

theorem intercept_course :
    (BreakerJob.intercept.program config).Obeys (courseAutomaton config) (fun _ _ => True)
      .idle := by
  suffices invoked : (intercept config).Obeys (courseAutomaton config) (fun _ _ => True) .idle from
    invoked.bind fun _ _ _ => trivial
  refine (canExecute_course config).bind ?_
  intro permission course leaves
  have recorded (probe : Bool) : (do
      let succeeded ← BreakerProg.invokeGuest
      if succeeded then recordSuccess else recordFailure config
      pure permission).Obeys (courseAutomaton config) (fun _ _ => True) (.admitted probe) := by
    refine ⟨trivial, fun succeeded _ => ?_⟩
    cases succeeded with
    | true => exact (recordSuccess_course config probe).bind fun _ _ _ => trivial
    | false => exact (recordFailure_course config probe).bind fun _ _ _ => trivial
  cases permission with
  | denied => trivial
  | allow =>
    subst leaves
    exact recorded false
  | probe =>
    subst leaves
    exact recorded true

end Obeys

/-! ## Trips -/

/-- The access opens the breaker. -/
def IsTrip (event : Event breakerSignature) : Bool :=
  match event.call with
  | .setState .opened => true
  | _ => false

/-- Where a caller is, and whether the breaker has tripped since it was let through. -/
def watch [DecidableEq ι] (config : CircuitBreakerConfig) (thread : ι)
    (watched : Course × Bool) (label : BreakerLabel ι) : Course × Bool :=
  ((courseAutomaton config).follow thread watched.1 label,
    match label with
    | .perform _ event => watched.2 || (IsTrip event && watched.1.permission.isSome)
    | .start _ | .finish _ _ | .environment _ => watched.2)

/-- Where in its invocation every caller is. -/
def courses [DecidableEq ι] (config : CircuitBreakerConfig) (history : List (BreakerLabel ι))
    (thread : ι) : Course :=
  (courseAutomaton config).phaseOf .idle thread history

/-- The breaker has tripped since the caller was let through. -/
def late [DecidableEq ι] (config : CircuitBreakerConfig) (history : List (BreakerLabel ι))
    (thread : ι) : Bool :=
  (history.foldl (watch config thread) (.idle, false)).2

section Watch

variable [DecidableEq ι] {config : CircuitBreakerConfig} (history : List (BreakerLabel ι))

theorem watch_course (thread : ι) :
    (history.foldl (watch config thread) (.idle, false)).1 = courses config history thread := by
  induction history using List.reverseRecOn with
  | nil => rfl
  | append_singleton earlier label inductionHypothesis =>
    rw [List.foldl_concat, courses, Automaton.phaseOf_append]
    exact congrArg (fun course => (courseAutomaton config).follow thread course label)
      inductionHypothesis

theorem late_perform (actor : ι) (event : Event breakerSignature) :
    late config (history ++ [.perform actor event]) = fun thread =>
      late config history thread ||
        (IsTrip event && (courses config history thread).permission.isSome) := by
  funext thread
  simp only [late, List.foldl_concat, watch, watch_course]

theorem late_silent {label : BreakerLabel ι} (silent : ∀ thread event, label ≠ .perform thread event) :
    late config (history ++ [label]) = late config history := by
  funext thread
  simp only [late, List.foldl_concat, watch]
  cases label with
  | perform thread event => exact absurd rfl (silent thread event)
  | start _ | finish _ _ | environment _ => rfl

theorem courses_perform (thread : ι) (event : Event breakerSignature) :
    courses config (history ++ [.perform thread event]) =
      Function.update (courses config history) thread
        (Course.next config (courses config history thread) event) :=
  (courseAutomaton config).phasesOf_perform .idle history thread event

theorem courses_silent {label : BreakerLabel ι}
    (silent : ∀ thread event, label ≠ .perform thread event) :
    courses config (history ++ [label]) = courses config history :=
  (courseAutomaton config).phasesOf_silent .idle history silent

end Watch

/-- The cooloff after the last trip is over. -/
def CooledOff (config : CircuitBreakerConfig) (state : BreakerState) : Prop :=
  ∃ instant, state.breaker.lastTrippedAt = some instant ∧
    config.cooloffDuration ≤ state.clock - instant

/-- The condition on an access, made when the callers are where `courses` says. -/
def Timely (config : CircuitBreakerConfig) (state : BreakerState) (courses : ι → Course)
    (late : ι → Bool) (thread : ι) : Event breakerSignature → Prop
  | ⟨.invokeGuest, true⟩ => late thread = false
  | ⟨.setState .opened, _⟩ => ∀ other, (courses other).unrecorded = false
  | ⟨.getState, .opened⟩ =>
    match (courses thread).waited with
    | some instant => state.breaker.lastTrippedAt = some instant ∨ CooledOff config state
    | none => True
  | _ => True

instance (config : CircuitBreakerConfig) (state : BreakerState) :
    Decidable (CooledOff config state) :=
  decidable_of_iff (state.breaker.lastTrippedAt.any
    fun instant => config.cooloffDuration ≤ state.clock - instant) (by simp [CooledOff, Option.any_eq_true])

instance [Fintype ι] (config : CircuitBreakerConfig) (state : BreakerState) (courses : ι → Course)
    (late : ι → Bool) (thread : ι) (event : Event breakerSignature) :
    Decidable (Timely config state courses late thread event) :=
  match event with
  | ⟨.invokeGuest, true⟩ => inferInstanceAs (Decidable (late thread = false))
  | ⟨.setState .opened, _⟩ =>
    inferInstanceAs (Decidable (∀ other, (courses other).unrecorded = false))
  | ⟨.getState, .opened⟩ =>
    match waited : (courses thread).waited with
    | some instant => decidable_of_iff
        (state.breaker.lastTrippedAt = some instant ∨ CooledOff config state)
        (by simp only [Timely, waited])
    | none => .isTrue (by simp only [Timely, waited])
  | ⟨.getState, .closed⟩ | ⟨.getState, .halfOpen⟩ | ⟨.invokeGuest, false⟩ | ⟨.setState .closed, _⟩
  | ⟨.setState .halfOpen, _⟩ | ⟨.readState, _⟩ | ⟨.readTrippedAt, _⟩ | ⟨.now, _⟩ | ⟨.lockState, _⟩
  | ⟨.unlockState, _⟩ | ⟨.lockTrippedAt, _⟩ | ⟨.setTrippedAt _, _⟩ | ⟨.unlockTrippedAt, _⟩
  | ⟨.storeFailures _, _⟩ | ⟨.fetchAddFailures _, _⟩ => .isTrue trivial

/-- No guest succeeds for a caller from before a trip, the breaker does not trip while a success
    is still to be recorded, and whoever finds it open under the lock finds the trip it has
    waited for, or another that is as long ago. -/
def TimelyStep [DecidableEq ι] (config : CircuitBreakerConfig) (before : BreakerConfiguration ι)
    (label : BreakerLabel ι) (_after : BreakerConfiguration ι) : Prop :=
  match label with
  | .perform thread event => Timely config before.moment.shared.fields
      (courses config before.moment.history) (late config before.moment.history) thread event
  | .start _ | .finish _ _ | .environment _ => True

/-! ## The invariant -/

/-- Who still has a success to record was let through after the last trip.  Until the next one
    such a caller finds the breaker not open, and closed if it was not let through as a probe.
    Who has waited has waited for the cooloff. -/
structure InEpoch (config : CircuitBreakerConfig) (shared : SharedBreaker ι) (thread : ι)
    (course : Course) (late : Bool) : Prop where
  timely : course.unrecorded = true → late = false
  notOpen : ∀ probe, course.permission = some probe → late = false →
    shared.fields.breaker.state ≠ .opened
  closed : course.permission = some false → late = false → shared.fields.breaker.state = .closed
  waited : ∀ instant, course.waited = some instant →
    config.cooloffDuration ≤ shared.fields.clock - instant
  inspects : course.inspects = true → shared.stateWriter = some thread
  turning : ∀ instant, course = .turning instant → CooledOff config shared.fields

namespace InEpoch

variable {config : CircuitBreakerConfig} {shared after : SharedBreaker ι} {course : Course}
  {isLate : Bool} {thread other : ι} {call : BreakerCall} {answer : call.Answer} {guest : GuestRun}

/-- A caller that has not been let through has no success to record and knows no state. -/
theorem unadmitted (permission : course.permission = none)
    (waited : ∀ instant, course.waited = some instant →
      config.cooloffDuration ≤ shared.fields.clock - instant)
    (inspects : course.inspects = true → shared.stateWriter = some thread)
    (turning : ∀ instant, course = .turning instant → CooledOff config shared.fields) :
    InEpoch config shared thread course isLate := by
  refine ⟨fun unrecorded => ?_, fun probe permitted => ?_, fun permitted => ?_, waited, inspects,
    turning⟩
  · cases course <;> simp_all [Course.permission, Course.unrecorded]
  · simp [permission] at permitted
  · simp [permission] at permitted

/-- Nothing is asked of a caller that has not been let through and waits for nothing. -/
theorem outside (permission : course.permission = none) (waited : course.waited = none) :
    InEpoch config shared thread course isLate := by
  refine unadmitted permission (by simp [waited]) (fun inspects => ?_) fun instant turns => ?_
  · cases course <;> simp_all [Course.waited, Course.inspects]
  · simp [turns, Course.waited] at waited

theorem settled (recorded : course.unrecorded = false) :
    course.unrecorded = true → isLate = false :=
  fun unrecorded => absurd (recorded.symm.trans unrecorded) Bool.false_ne_true

/-- Time does not take back that the cooloff is over. -/
theorem tick (inEpoch : InEpoch config shared thread course isLate) (ticks : Nat) :
    InEpoch config { shared with fields.clock := shared.fields.clock + ticks } thread course
      isLate where
  timely := inEpoch.timely
  notOpen := inEpoch.notOpen
  closed := inEpoch.closed
  waited := fun instant waits => by
    have isOver := inEpoch.waited instant waits
    simp only
    omega
  inspects := inEpoch.inspects
  turning := fun instant turns => by
    obtain ⟨tripped, isTripped, isOver⟩ := inEpoch.turning instant turns
    refine ⟨tripped, isTripped, ?_⟩
    simp only
    omega

/-- A caller that has been let through is in its epoch as long as the state and what it has to
    record stay the same. -/
theorem let_through (permission : course.permission.isSome = true)
    (timely : course.unrecorded = true → isLate = false)
    (notOpen : isLate = false → shared.fields.breaker.state ≠ .opened)
    (closed : course.permission = some false → isLate = false →
      shared.fields.breaker.state = .closed) :
    InEpoch config shared thread course isLate := by
  refine ⟨timely, fun _ _ => notOpen, closed, fun instant waits => ?_, fun inspects => ?_,
    fun instant turns => ?_⟩
  · cases course <;> simp_all [Course.permission, Course.waited]
  · cases course <;> simp_all [Course.permission, Course.inspects]
  · cases course <;> simp_all [Course.permission]

/-- A caller that has been let through goes on, and the state is as before. -/
theorem advance (inEpoch : InEpoch config shared thread course isLate) {further : Course}
    (permission : further.permission = course.permission)
    (isSome : further.permission.isSome = true)
    (timely : further.unrecorded = true → isLate = false)
    (sameState : after.fields.breaker.state = shared.fields.breaker.state) :
    InEpoch config after thread further isLate := by
  refine let_through isSome timely (fun early => ?_) fun isAllowed early => ?_
  · obtain ⟨probe, isProbe⟩ := Option.isSome_iff_exists.mp isSome
    rw [sameState]
    exact inEpoch.notOpen probe (permission ▸ isProbe) early
  · rw [sameState]
    exact inEpoch.closed (permission ▸ isAllowed) early

/-- What another caller does, to a caller that is in its epoch. -/
theorem others {phases : ι → CallerPhase} {courses : ι → Course} {late : ι → Bool}
    (inEpoch : InEpoch config shared other (courses other) (late other))
    (locks : BreakerInv shared phases) (isOther : other ≠ thread)
    (allowed : (phases thread).allowed call)
    (accessed : shared.access guest thread call = some (answer, after))
    (isTimely : Timely config shared.fields courses late thread ⟨call, answer⟩) :
    InEpoch config after other (courses other)
      (late other || (IsTrip ⟨call, answer⟩ && (courses other).permission.isSome)) := by
  simp only [SharedBreaker.access, Option.ite_none_right_eq_some, Option.some.injEq,
    Prod.mk.injEq] at accessed
  obtain ⟨permits, rfl, rfl⟩ := accessed
  -- whoever holds the lock of the state keeps the other from looking
  have busy (holds : (phases thread).stage.holdsState = true) :
      (courses other).inspects ≠ true := by
    intro inspects
    have own := (locks.stateWriter thread).mp holds
    exact isOther (Option.some.inj ((inEpoch.inspects inspects).symm.trans own))
  have notTurning (holds : (phases thread).stage.holdsState = true) (instant : Nat) :
      courses other ≠ .turning instant := by
    intro turns
    exact busy holds (by rw [turns]; rfl)
  obtain ⟨timely, notOpen, closed, waited, inspects, turning⟩ := inEpoch
  cases call with
  | readState | readTrippedAt | now | getState | lockTrippedAt | unlockTrippedAt
  | storeFailures _ | fetchAddFailures _ =>
    simp only [IsTrip, Bool.false_and, Bool.or_false]
    exact ⟨timely, notOpen, closed, waited, inspects, turning⟩
  | invokeGuest =>
    simp only [IsTrip, Bool.false_and, Bool.or_false]
    refine ⟨timely, notOpen, closed, fun instant waits => ?_, inspects, fun instant turns => ?_⟩
    · have isOver := waited instant waits
      simp only [BreakerCall.apply]
      omega
    · obtain ⟨tripped, isTripped, isOver⟩ := turning instant turns
      refine ⟨tripped, isTripped, ?_⟩
      simp only [BreakerCall.apply]
      omega
  | lockState =>
    simp only [IsTrip, Bool.false_and, Bool.or_false]
    refine ⟨timely, notOpen, closed, waited, fun looks => ?_, turning⟩
    rw [show shared.stateWriter = none from permits] at inspects
    cases inspects looks
  | unlockState =>
    obtain ⟨known, stage, -⟩ := allowed
    have holds : (phases thread).stage.holdsState = true := by rw [stage]; rfl
    simp only [IsTrip, Bool.false_and, Bool.or_false]
    exact ⟨timely, notOpen, closed, waited, fun looks => absurd looks (busy holds), turning⟩
  | setTrippedAt instant =>
    have holds : (phases thread).stage.holdsState = true := by
      rw [show (phases thread).stage = .tripping from allowed]
      rfl
    simp only [IsTrip, Bool.false_and, Bool.or_false]
    exact ⟨timely, notOpen, closed, waited, inspects,
      fun tripped turns => absurd turns (notTurning holds tripped)⟩
  | setState state =>
    cases state with
    | closed =>
      simp only [IsTrip, Bool.false_and, Bool.or_false]
      exact ⟨timely, fun _ _ _ => by simp [BreakerCall.apply], fun _ _ => rfl, waited, inspects, turning⟩
    | halfOpen =>
      have stage : (phases thread).stage = .locked (some .opened) :=
        congrArg CallerPhase.stage allowed
      -- it was open, and nobody was in its epoch
      have opened := locks.seen thread .opened (by rw [stage]; rfl)
      simp only [IsTrip, Bool.false_and, Bool.or_false]
      refine ⟨timely, fun _ _ _ => by simp [BreakerCall.apply], fun permission early => ?_, waited, inspects, turning⟩
      exact absurd opened (notOpen _ permission early)
    | opened =>
      simp only [IsTrip, Bool.true_and]
      have recorded : (courses other).unrecorded = false := isTimely other
      refine ⟨fun unrecorded => ?_, fun probe permission early => ?_, fun permission early => ?_,
        waited, inspects, turning⟩
      · rw [recorded] at unrecorded
        cases unrecorded
      · simp [permission] at early
      · simp [permission] at early

/-- What a caller does itself. -/
theorem own {courses : ι → Course} {late : ι → Bool}
    (inEpoch : InEpoch config shared thread (courses thread) (late thread))
    (allowed : (courses thread).allowed call)
    (accessed : shared.access guest thread call = some (answer, after))
    (isTimely : Timely config shared.fields courses late thread ⟨call, answer⟩) :
    InEpoch config after thread (Course.next config (courses thread) ⟨call, answer⟩)
      (late thread || (IsTrip ⟨call, answer⟩ && (courses thread).permission.isSome)) := by
  simp only [SharedBreaker.access, Option.ite_none_right_eq_some, Option.some.injEq,
    Prod.mk.injEq] at accessed
  obtain ⟨permits, rfl, rfl⟩ := accessed
  cases isCourse : courses thread <;> rw [isCourse] at inEpoch allowed
  case idle =>
    cases call <;> simp only [Course.allowed] at allowed
    simp only [IsTrip, Bool.false_and, Bool.or_false, BreakerCall.apply]
    cases state : shared.fields.breaker.state with
    | opened => exact outside rfl rfl
    | closed => exact let_through rfl (settled rfl) (by simp [state]) fun _ _ => state
    | halfOpen => exact let_through rfl (settled rfl) (by simp [state]) (by simp [Course.next, Course.permission])
  case sawOpen =>
    cases call <;> simp only [Course.allowed] at allowed
    simp only [BreakerCall.apply]
    cases shared.fields.breaker.lastTrippedAt <;> exact outside rfl rfl
  case knows instant =>
    cases call <;> simp only [Course.allowed] at allowed
    simp only [Course.next]
    split
    · rename_i isOver
      refine unadmitted rfl (fun tripped waits => ?_) (by simp [Course.inspects]) (by simp)
      obtain rfl : instant = tripped := Option.some.inj waits
      exact isOver
    · exact outside rfl rfl
  case overdue instant =>
    cases call <;> simp only [Course.allowed] at allowed
    exact unadmitted rfl inEpoch.waited (fun _ => rfl) (by simp [Course.next])
  case looking instant =>
    cases call <;> simp only [Course.allowed] at allowed
    simp only [BreakerCall.apply] at isTimely ⊢
    cases state : shared.fields.breaker.state with
    | closed | halfOpen => exact outside rfl rfl
    | opened =>
      rw [state] at isTimely
      refine unadmitted rfl inEpoch.waited inEpoch.inspects fun tripped turns => ?_
      simp only [Timely, isCourse, Course.waited] at isTimely
      obtain same | isOver := isTimely
      · exact ⟨instant, same, inEpoch.waited instant rfl⟩
      · exact isOver
  case turning instant =>
    rcases call with _ | _ | _ | _ | _ | state | _ <;> simp only [Course.allowed] at allowed
    cases state <;> simp only at allowed
    exact let_through rfl (settled rfl) (by simp [BreakerCall.apply])
      (by simp [Course.next, Course.permission])
  case turned =>
    cases call <;> simp only [Course.allowed] at allowed
    simp only [IsTrip, Bool.false_and, Bool.or_false]
    exact inEpoch.advance rfl rfl (settled rfl) rfl
  case refused =>
    cases call <;> simp only [Course.allowed] at allowed
    exact outside rfl rfl
  case admitted probe =>
    cases call <;> simp only [Course.allowed] at allowed
    simp only [IsTrip, Bool.false_and, Bool.or_false, BreakerCall.apply] at isTimely ⊢
    cases succeeds : guest.succeeds with
    | false => exact inEpoch.advance rfl rfl (settled rfl) rfl
    | true =>
      rw [succeeds] at isTimely
      exact inEpoch.advance rfl rfl (fun _ => isTimely) rfl
  case succeeded probe | erased probe =>
    cases call <;> simp only [Course.allowed] at allowed
    simp only [IsTrip, Bool.false_and, Bool.or_false]
    exact inEpoch.advance rfl rfl (fun _ => inEpoch.timely rfl) rfl
  case closing probe =>
    rcases call with _ | _ | _ | _ | _ | state | _ <;> simp only [Course.allowed] at allowed
    cases state <;> simp only at allowed
    exact let_through rfl (settled rfl) (by simp [BreakerCall.apply]) fun _ _ => rfl
  case recorded probe =>
    cases call <;> simp only [Course.allowed] at allowed
    simp only [IsTrip, Bool.false_and, Bool.or_false]
    exact inEpoch.advance rfl rfl (settled rfl) rfl
  case failed probe =>
    cases call with
    | setState state =>
      cases state <;> simp only [Course.allowed] at allowed
      -- from now on it is late itself
      refine let_through rfl (settled rfl) (fun early => ?_) fun _ early => ?_ <;>
        simp [IsTrip, Course.permission] at early
    | fetchAddFailures _ | lockState | getState | lockTrippedAt | now | setTrippedAt _
    | unlockTrippedAt | unlockState =>
      simp only [IsTrip, Bool.false_and, Bool.or_false]
      exact inEpoch.advance rfl rfl (settled rfl) rfl
    | readState | readTrippedAt | storeFailures _ | invokeGuest => exact allowed.elim

end InEpoch

/-- Every caller is in its epoch. -/
def EpochInv (config : CircuitBreakerConfig) (shared : SharedBreaker ι) (courses : ι → Course)
    (late : ι → Bool) : Prop :=
  ∀ thread, InEpoch config shared thread (courses thread) (late thread)

/-! ## Every run -/

section Runs

variable [DecidableEq ι] {config : CircuitBreakerConfig}
  {reached next : BreakerConfiguration ι} {thread : ι} {event : Event breakerSignature}

/-- A caller's accesses are those of its course. -/
theorem course_of_perform
    (reaches : (breakerSystem config fun _ : ι => .intercept).Reaches .new reached)
    (step : (breakerSystem config fun _ => .intercept).Step reached (.perform thread event) next) :
    (courses config reached.moment.history thread).allowed event.call := by
  cases step with
  | perform running effect =>
    have possible {call : BreakerCall} {before : SharedBreaker ι} {answer : call.Answer}
        {after : SharedBreaker ι}
        (_ : (breakerSystem config fun _ : ι => .intercept).meaning thread call before answer after) :
        (courseAutomaton config).possible ⟨call, answer⟩ := trivial
    exact (reaches.obeys (intercept_course config) possible running).1

theorem EpochInv.of_reaches (reaches :
    (breakerSystem config fun _ : ι => .intercept).ReachesBy (TimelyStep config) .new reached) :
    EpochInv config reached.moment.shared (courses config reached.moment.history)
      (late config reached.moment.history) := by
  induction reaches with
  | initial => exact fun thread => InEpoch.outside rfl rfl
  | @step before after label earlier step isTimely inv =>
    rw [step.history_eq]
    cases label with
    | perform thread event =>
      obtain ⟨allowed, guest, accessed⟩ := allowed_of_perform earlier.reaches step
      have course := course_of_perform earlier.reaches step
      rw [courses_perform, late_perform]
      intro other
      -- the caller moves on in its course, and the others may find their epoch over
      by_cases isThread : other = thread
      · subst isThread
        rw [Function.update_self]
        exact (inv other).own course accessed isTimely
      · rw [Function.update_of_ne isThread]
        exact (inv other).others (BreakerInv.of_reaches earlier.reaches) isThread allowed accessed
          isTimely
    | start thread =>
      rw [courses_silent _ nofun, late_silent _ nofun]
      cases step with
      | start _ => exact inv
    | finish thread value =>
      rw [courses_silent _ nofun, late_silent _ nofun]
      cases step with
      | finish _ => exact inv
    | environment ticks =>
      rw [courses_silent _ nofun, late_silent _ nofun]
      cases step with
      | environment effect =>
        subst effect
        exact fun thread => (inv thread).tick ticks

/-! ## An open circuit closes through a probe -/

/-- A step leaves `Open` for `HalfOpen` only, when the cooloff is over.  It closes a breaker that
    was not closed only as the success of a probe that was granted after the last trip.  Who was
    let through before neither closes the breaker nor erases its failures. -/
structure ClosesThroughProbe (config : CircuitBreakerConfig) (before : BreakerConfiguration ι)
    (label : BreakerLabel ι) (after : BreakerConfiguration ι) : Prop where
  leaves : before.moment.shared.fields.breaker.state = .opened →
    after.moment.shared.fields.breaker.state ≠ .opened →
    after.moment.shared.fields.breaker.state = .halfOpen ∧
      CooledOff config before.moment.shared.fields
  closes : before.moment.shared.fields.breaker.state ≠ .closed →
    after.moment.shared.fields.breaker.state = .closed →
    ∃ thread, label = .perform thread ⟨.setState .closed, ()⟩ ∧
      courses config before.moment.history thread = .closing true ∧
      Interceptors.late config before.moment.history thread = false
  late : ∀ thread event, label = .perform thread event →
    Interceptors.late config before.moment.history thread = true →
    event.call ≠ .setState .closed ∧ ∀ count, event.call ≠ .storeFailures count

/-- In a run in which no guest succeeds for a caller from before a trip, the breaker does not
    trip while a success is still to be recorded, and whoever finds it open under the lock finds
    no younger trip than it has waited for, an open circuit closes through a probe. -/
theorem closes_through_probe {label : BreakerLabel ι}
    (reaches : (breakerSystem config fun _ : ι => .intercept).ReachesBy (TimelyStep config) .new
      reached)
    (step : (breakerSystem config fun _ => .intercept).Step reached label next) :
    ClosesThroughProbe config reached label next := by
  have inv := EpochInv.of_reaches reaches
  cases label with
  | start thread =>
    cases step with
    | start _ => exact ⟨fun opened left => absurd opened left,
        fun notClosed closed => absurd closed notClosed, nofun⟩
  | finish thread value =>
    cases step with
    | finish _ => exact ⟨fun opened left => absurd opened left,
        fun notClosed closed => absurd closed notClosed, nofun⟩
  | environment ticks =>
    cases step with
    | environment effect =>
      subst effect
      exact ⟨fun opened left => absurd opened left,
        fun notClosed closed => absurd closed notClosed, nofun⟩
  | perform thread event =>
    have course := course_of_perform reaches.reaches step
    obtain ⟨allowed, guest, accessed⟩ := allowed_of_perform reaches.reaches step
    obtain ⟨call, answer⟩ := event
    simp only [SharedBreaker.access, Option.ite_none_right_eq_some, Option.some.injEq,
      Prod.mk.injEq] at accessed
    obtain ⟨-, isAnswer, isAfter⟩ := accessed
    refine ⟨fun opened left => ?_, fun notClosed isClosed => ?_, fun actor event isEvent isLate => ?_⟩
    · rw [← isAfter] at left ⊢
      cases call with
      | setState state =>
        cases state with
        | opened => exact absurd rfl left
        | halfOpen =>
          obtain ⟨instant, turns⟩ := Course.turning_of_allowed course
          exact ⟨rfl, (inv thread).turning instant turns⟩
        | closed =>
          -- a success that is still in its epoch would not have found the breaker open
          obtain ⟨probe, closing⟩ := Course.closing_of_allowed course
          have early := (inv thread).timely (by rw [closing]; rfl)
          exact absurd opened ((inv thread).notOpen probe (by rw [closing]; rfl) early)
      | _ => exact absurd opened left
    · rw [← isAfter] at isClosed
      cases call with
      | setState state =>
        cases state with
        | opened | halfOpen => cases isClosed
        | closed =>
          obtain ⟨probe, closing⟩ := Course.closing_of_allowed course
          have early := (inv thread).timely (by rw [closing]; rfl)
          cases probe with
          | true => exact ⟨thread, rfl, closing, early⟩
          | false => exact absurd ((inv thread).closed (by rw [closing]; rfl) early) notClosed
      | _ => exact absurd isClosed notClosed
    · cases isEvent
      have recorded : (courses config reached.moment.history thread).unrecorded ≠ true := by
        intro unrecorded
        rw [(inv thread).timely unrecorded] at isLate
        cases isLate
      refine ⟨?_, ?_⟩
      · rintro rfl
        obtain ⟨probe, closing⟩ := Course.closing_of_allowed course
        exact recorded (by rw [closing]; rfl)
      · rintro count rfl
        obtain ⟨probe, succeeded⟩ := Course.succeeded_of_allowed course
        exact recorded (by rw [succeeded]; rfl)

end Runs

/-! ## Concrete runs -/

/-- The last access of a run, checked. -/
def timelyCheck [Fintype ι] [DecidableEq ι] (config : CircuitBreakerConfig)
    (before after : BreakerConfiguration ι) : Bool :=
  match after.moment.history.getLast? with
  | some (.perform thread event) => decide (Timely config before.moment.shared.fields
      (courses config before.moment.history) (late config before.moment.history) thread event)
  | _ => true

theorem timelyStep_of_check [Fintype ι] [DecidableEq ι] {config : CircuitBreakerConfig}
    {jobs : ι → BreakerJob} {before after : BreakerConfiguration ι} {label : BreakerLabel ι}
    (step : (breakerSystem config jobs).Step before label after)
    (checked : timelyCheck config before after = true) : TimelyStep config before label after := by
  rw [timelyCheck, step.history_eq, List.getLast?_concat] at checked
  cases label with
  | perform thread event => simpa [TimelyStep] using checked
  | start _ | finish _ _ | environment _ => trivial

/-- Caller 0 fails and trips the breaker; ten ticks later caller 1 turns it half-open, succeeds
    and takes the lock. -/
def probedMoves : List (Move (Fin 2) Nat GuestRun) :=
  List.replicate 12 (.thread 0 ⟨false, 0⟩) ++ [.environment 10] ++
    List.replicate 11 (.thread 1 ⟨true, 0⟩)

/-- The probe closes the breaker. -/
theorem closes_through_probe_probed : ∃ reached next label,
    (breakerSystem hastyBreaker fun _ : Fin 2 => .intercept).Step reached label next ∧
      next.moment.shared.fields.breaker.state = .closed ∧
      reached.moment.shared.fields.breaker.state = .halfOpen ∧
      ClosesThroughProbe hastyBreaker reached label next := by
  obtain ⟨reached, reaches, runs, halfOpen⟩ : ∃ reached,
      (breakerSystem hastyBreaker fun _ : Fin 2 => .intercept).ReachesBy (TimelyStep hastyBreaker)
        .new reached ∧
      (∃ next, (breakerScheduler hastyBreaker fun _ => .intercept).runMove reached
        (.thread 1 ⟨true, 0⟩) = some next ∧ next.moment.shared.fields.breaker.state = .closed) ∧
      reached.moment.shared.fields.breaker.state = .halfOpen :=
    ⟨_, (breakerScheduler hastyBreaker fun _ => .intercept).runWhile_reachesBy
      (fun _ step checked => timelyStep_of_check step checked) probedMoves .initial rfl,
      ⟨_, rfl, rfl⟩, rfl⟩
  obtain ⟨next, moved, closed⟩ := runs
  obtain ⟨label, step⟩ := (breakerScheduler hastyBreaker fun _ => .intercept).runMove_step moved
  exact ⟨reached, next, label, step, closed, halfOpen, closes_through_probe reaches step⟩

/-- Caller 1 is let through; caller 0 fails and trips the breaker; then caller 1's guest
    succeeds, and it takes the lock. -/
def belatedMoves : List (Move (Fin 2) Nat GuestRun) :=
  List.replicate 2 (.thread 1 ⟨true, 0⟩) ++ List.replicate 12 (.thread 0 ⟨false, 0⟩) ++
    List.replicate 3 (.thread 1 ⟨true, 0⟩)

/-- A call from before the trip closes the breaker that has just opened. -/
theorem late_success_closes : ¬ ∀ (reached next : BreakerConfiguration (Fin 2))
    (label : BreakerLabel (Fin 2)),
    (breakerSystem hastyBreaker fun _ => .intercept).Reaches .new reached →
    (breakerSystem hastyBreaker fun _ => .intercept).Step reached label next →
    ClosesThroughProbe hastyBreaker reached label next := by
  intro claimed
  obtain ⟨reached, next, reaches, moved, opened, closed⟩ :
      ∃ reached next, (breakerSystem hastyBreaker fun _ : Fin 2 => .intercept).Reaches .new
        reached ∧
      (breakerScheduler hastyBreaker fun _ => .intercept).runMove reached (.thread 1 ⟨true, 0⟩) =
        some next ∧
      reached.moment.shared.fields.breaker.state = .opened ∧
      next.moment.shared.fields.breaker.state = .closed :=
    ⟨_, _, (breakerScheduler hastyBreaker fun _ => .intercept).run_reaches belatedMoves .initial
      rfl, rfl, rfl, rfl⟩
  obtain ⟨label, step⟩ := (breakerScheduler hastyBreaker fun _ => .intercept).runMove_step moved
  have left := (claimed reached next label reaches step).leaves opened (by rw [closed]; exact nofun)
  rw [closed] at left
  cases left.1

end SpectraGQL.Interceptors
