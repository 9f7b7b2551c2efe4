import SpectraGQL.Interceptors.BreakerRuns
import Mathlib.Data.Fintype.Basic

/-! # How many probes are out

`can_execute` turns an open breaker half-open under the write lock, and looks again before it
does, so that of all callers that find the cooloff over one gets the probe.  Whoever comes
later and reads `HalfOpen` is given a probe as well.  A caller from before the trip, on the
other hand, may record its outcome while the probe is out, and so close or re-open the breaker.

Without these two there is one probe at a time, and no other caller is let through until its
outcome is recorded.
-/

namespace SpectraGQL.Interceptors

open Interaction

variable {ι : Type}

/-! ## Who holds a probe -/

/-- A probe is held until its outcome has been recorded. -/
def Standing.holdsProbe : Standing → Bool
  | .probing | .recording true => true
  | .undecided | .allowed | .recording false | .recorded => false

/-- The access decides the permission of its caller, and it is not `Denied`. -/
def Grants (phase : CallerPhase) (event : Event breakerSignature) : Prop :=
  phase.standing = .undecided ∧ (CallerPhase.nextStanding phase.standing event = .allowed ∨
    CallerPhase.nextStanding phase.standing event = .probing)

/-- No `can_execute` reads `HalfOpen`, and while a probe is out nobody else records. -/
def Undisturbed (phases : ι → CallerPhase) (thread : ι) : Event breakerSignature → Prop
  | ⟨.readState, .halfOpen⟩ => False
  | ⟨.setState .closed, _⟩ | ⟨.setState .opened, _⟩ =>
    ∀ other, (phases other).standing.holdsProbe = true → other = thread
  | _ => True

instance [Fintype ι] [DecidableEq ι] (phases : ι → CallerPhase) (thread : ι)
    (event : Event breakerSignature) : Decidable (Undisturbed phases thread event) :=
  match event with
  | ⟨.readState, .halfOpen⟩ => .isFalse id
  | ⟨.setState .closed, _⟩ | ⟨.setState .opened, _⟩ => inferInstanceAs (Decidable (∀ other,
      (phases other).standing.holdsProbe = true → other = thread))
  | ⟨.readState, .closed⟩ | ⟨.readState, .opened⟩ | ⟨.setState .halfOpen, _⟩
  | ⟨.readTrippedAt, _⟩ | ⟨.now, _⟩ | ⟨.lockState, _⟩ | ⟨.getState, _⟩ | ⟨.unlockState, _⟩
  | ⟨.lockTrippedAt, _⟩ | ⟨.setTrippedAt _, _⟩ | ⟨.unlockTrippedAt, _⟩ | ⟨.storeFailures _, _⟩
  | ⟨.fetchAddFailures _, _⟩ | ⟨.invokeGuest, _⟩ => .isTrue trivial

/-- The steps of the runs in which every access is `Undisturbed`. -/
def UndisturbedStep [DecidableEq ι] (before : BreakerConfiguration ι) (label : BreakerLabel ι)
    (_after : BreakerConfiguration ι) : Prop :=
  match label with
  | .perform thread event => Undisturbed (callerPhases before.moment.history) thread event
  | .start _ | .finish _ _ | .environment _ => True

/-! ## The invariant -/

/-- There is one probe at most.  The breaker is half-open as long as it is out, but for the
    moment in which its holder records, and only then. -/
structure ProbeInv (shared : SharedBreaker ι) (phases : ι → CallerPhase) : Prop where
  single : ∀ first second, (phases first).standing.holdsProbe = true →
    (phases second).standing.holdsProbe = true → first = second
  halfOpen : ∀ thread, (phases thread).standing.holdsProbe = true →
    shared.fields.breaker.state = .halfOpen ∨
      (phases thread).standing = .recording true ∧ shared.stateWriter = some thread
  held : shared.fields.breaker.state = .halfOpen →
    ∃ thread, (phases thread).standing.holdsProbe = true

namespace ProbeInv

theorem initial : ProbeInv (SharedBreaker.new : SharedBreaker ι) fun _ => .start where
  single := by simp [CallerPhase.start, Standing.holdsProbe]
  halfOpen := by simp [CallerPhase.start, Standing.holdsProbe]
  held := by simp [SharedBreaker.new, WasmCircuitBreaker.new]

variable {shared after : SharedBreaker ι} {phases : ι → CallerPhase} {thread : ι}
  {call : BreakerCall} {answer : call.Answer} {guest : GuestRun}

/-- While the breaker is not half-open nobody holds a probe, but who is just recording. -/
theorem nobody (inv : ProbeInv shared phases)
    (notHalfOpen : shared.fields.breaker.state ≠ .halfOpen)
    (unrecorded : ∀ other, shared.stateWriter = some other →
      (phases other).standing ≠ .recording true) (other : ι) :
    (phases other).standing.holdsProbe ≠ true := by
  intro isHolder
  obtain isHalfOpen | ⟨recording, held⟩ := inv.halfOpen other isHolder
  · exact notHalfOpen isHalfOpen
  · exact unrecorded other held recording

/-- Nothing is granted while a probe is out. -/
theorem nobody_of_grants (inv : ProbeInv shared phases) (locks : BreakerInv shared phases)
    (allowed : (phases thread).allowed call)
    (accessed : shared.access guest thread call = some (answer, after))
    (undisturbed : Undisturbed phases thread ⟨call, answer⟩)
    (granted : Grants (phases thread) ⟨call, answer⟩) (other : ι) :
    (phases other).standing.holdsProbe ≠ true := by
  simp only [SharedBreaker.access, Option.ite_none_right_eq_some, Option.some.injEq,
    Prod.mk.injEq] at accessed
  obtain ⟨permits, rfl, rfl⟩ := accessed
  obtain ⟨standing, decided⟩ := granted
  rw [standing] at decided
  cases call with
  | readState =>
    simp only [BreakerCall.apply] at undisturbed decided
    -- a closed breaker has no probe out, an open one grants nothing
    cases state : shared.fields.breaker.state with
    | closed =>
      refine inv.nobody (by simp [state]) (fun writer held => ?_) other
      simp only [SharedBreaker.Permits] at permits
      rw [permits] at held
      cases held
    | opened => simp [state, CallerPhase.nextStanding] at decided
    | halfOpen =>
      rw [state] at undisturbed
      exact undisturbed.elim
  | setState state =>
    cases state with
    | halfOpen =>
      have stage : (phases thread).stage = .locked (some .opened) :=
        congrArg CallerPhase.stage allowed
      have own := (locks.stateWriter thread).mp (by rw [stage]; rfl)
      refine inv.nobody ?_ (fun writer held => ?_) other
      · simp [locks.seen thread .opened (by rw [stage]; rfl)]
      · simp [Option.some.inj (held.symm.trans own), standing]
    | closed | opened => simp [CallerPhase.nextStanding] at decided
  | readTrippedAt | now | lockState | getState | unlockState | lockTrippedAt | setTrippedAt _
  | unlockTrippedAt | storeFailures _ | fetchAddFailures _ | invokeGuest =>
    simp [CallerPhase.nextStanding] at decided

variable [DecidableEq ι]

theorem holdsProbe_recording {standing : Standing}
    (unrecorded : ∀ probe, standing ≠ .recording probe) :
    (Standing.recording (standing = .probing)).holdsProbe = standing.holdsProbe := by
  cases standing with
  | recording probe => exact absurd rfl (unrecorded probe)
  | undecided | allowed | probing | recorded => rfl

/-- What an access has to keep, if no probe is handed out or given back. -/
theorem same_holders (inv : ProbeInv shared phases) (phase : CallerPhase)
    (sameHolds : phase.standing.holdsProbe = (phases thread).standing.holdsProbe)
    (sameState : after.fields.breaker.state = shared.fields.breaker.state)
    (mine : phase.standing.holdsProbe = true → shared.fields.breaker.state = .halfOpen ∨
      phase.standing = .recording true ∧ after.stateWriter = some thread)
    (others : ∀ other, other ≠ thread → shared.stateWriter = some other →
      after.stateWriter = some other) :
    ProbeInv after (Function.update phases thread phase) := by
  have same (other : ι) : (Function.update phases thread phase other).standing.holdsProbe =
      (phases other).standing.holdsProbe := by
    by_cases isThread : other = thread
    · subst isThread
      simpa using sameHolds
    · rw [Function.update_of_ne isThread]
  refine ⟨?_, fun other holds => ?_, ?_⟩
  · simpa only [same] using inv.single
  · rw [sameState]
    by_cases isThread : other = thread
    · subst isThread
      rw [Function.update_self] at holds ⊢
      exact mine holds
    · rw [Function.update_of_ne isThread] at holds ⊢
      exact (inv.halfOpen other holds).imp_right fun recording =>
        ⟨recording.1, others other isThread recording.2⟩
  · simpa only [same, sameState] using inv.held

/-- An access that leaves the state, its lock and what the caller holds alone. -/
theorem silent (inv : ProbeInv shared phases) (phase : CallerPhase)
    (sameState : after.fields.breaker.state = shared.fields.breaker.state)
    (sameWriter : after.stateWriter = shared.stateWriter)
    (sameStanding : phase.standing = (phases thread).standing) :
    ProbeInv after (Function.update phases thread phase) := by
  refine inv.same_holders phase (by rw [sameStanding]) sameState ?_ fun other _ => ?_
  · rw [sameStanding, sameWriter]
    exact inv.halfOpen thread
  · rw [sameWriter]
    exact id

/-- Who takes a probe when the breaker is not half-open, and nobody else records, is the only
    one to have one. -/
theorem take (inv : ProbeInv shared phases) (phase : CallerPhase)
    (opened : shared.fields.breaker.state ≠ .halfOpen) (own : shared.stateWriter = some thread)
    (unrecorded : (phases thread).standing ≠ .recording true)
    (holds : phase.standing.holdsProbe = true)
    (isHalfOpen : after.fields.breaker.state = .halfOpen) :
    ProbeInv after (Function.update phases thread phase) := by
  have nobody := inv.nobody opened fun other held => by
    rwa [Option.some.inj (held.symm.trans own)]
  have only (other : ι)
      (isHolder : (Function.update phases thread phase other).standing.holdsProbe = true) :
      other = thread := by
    by_contra isOther
    rw [Function.update_of_ne isOther] at isHolder
    exact nobody other isHolder
  refine ⟨fun first second holdsFirst holdsSecond => ?_, fun _ _ => .inl isHalfOpen, fun _ => ?_⟩
  · exact (only first holdsFirst).trans (only second holdsSecond).symm
  · exact ⟨thread, by rwa [Function.update_self]⟩

/-- What only one caller can be about to record is not half-open any more. -/
theorem of_recording (phase : CallerPhase) (own : after.stateWriter = some thread)
    (recording : ∃ probe, phase.standing = .recording probe)
    (alone : ∀ other, (phases other).standing.holdsProbe = true → other = thread)
    (notHalfOpen : after.fields.breaker.state ≠ .halfOpen) :
    ProbeInv after (Function.update phases thread phase) := by
  have only (other : ι)
      (isHolder : (Function.update phases thread phase other).standing.holdsProbe = true) :
      other = thread := by
    by_contra isOther
    rw [Function.update_of_ne isOther] at isHolder
    exact isOther (alone other isHolder)
  refine ⟨fun first second holdsFirst holdsSecond => ?_, fun other holds => .inr ?_,
    fun isHalfOpen => absurd isHalfOpen notHalfOpen⟩
  · exact (only first holdsFirst).trans (only second holdsSecond).symm
  · obtain rfl := only other holds
    obtain ⟨probe, isRecording⟩ := recording
    rw [Function.update_self] at holds ⊢
    rw [isRecording] at holds ⊢
    cases probe with
    | true => exact ⟨rfl, own⟩
    | false => cases holds

/-- With the outcome recorded, nobody holds a probe. -/
theorem giveBack (inv : ProbeInv shared phases) (phase : CallerPhase)
    (own : shared.stateWriter = some thread) (recorded : phase.standing.holdsProbe = false)
    (sameState : after.fields.breaker.state = shared.fields.breaker.state)
    (notHalfOpen : shared.fields.breaker.state ≠ .halfOpen) :
    ProbeInv after (Function.update phases thread phase) := by
  have nobody (other : ι) :
      (Function.update phases thread phase other).standing.holdsProbe ≠ true := by
    intro isHolder
    by_cases isThread : other = thread
    · subst isThread
      rw [Function.update_self, recorded] at isHolder
      cases isHolder
    · rw [Function.update_of_ne isThread] at isHolder
      obtain isHalfOpen | ⟨-, held⟩ := inv.halfOpen other isHolder
      · exact notHalfOpen isHalfOpen
      · exact isThread (Option.some.inj (held.symm.trans own))
  exact ⟨fun first _ holds _ => absurd holds (nobody first),
    fun other holds => absurd holds (nobody other),
    fun isHalfOpen => absurd (sameState.symm.trans isHalfOpen) notHalfOpen⟩

/-- Every access that is undisturbed keeps the invariant. -/
theorem access (inv : ProbeInv shared phases) (locks : BreakerInv shared phases)
    (allowed : (phases thread).allowed call)
    (accessed : shared.access guest thread call = some (answer, after))
    (undisturbed : Undisturbed phases thread ⟨call, answer⟩) :
    ProbeInv after (Function.update phases thread
      (breakerAutomaton.next (phases thread) ⟨call, answer⟩)) := by
  simp only [SharedBreaker.access, Option.ite_none_right_eq_some, Option.some.injEq,
    Prod.mk.injEq] at accessed
  obtain ⟨permits, rfl, rfl⟩ := accessed
  have seen := locks.seen thread
  have stateWriter := locks.stateWriter thread
  cases call with
  | readTrippedAt | now | getState | lockTrippedAt | setTrippedAt _ | unlockTrippedAt
  | invokeGuest => exact inv.silent _ rfl rfl rfl
  | lockState =>
    -- the lock is free, so nobody is recording
    simp only [SharedBreaker.Permits] at permits
    refine inv.same_holders _ rfl rfl (fun holds => ?_) (by simp [permits])
    exact (inv.halfOpen thread holds).imp_right fun recording => by simp [permits] at recording
  | storeFailures _ | fetchAddFailures _ =>
    simp only [CallerPhase.allowed] at allowed
    have same := holdsProbe_recording allowed.2
    refine inv.same_holders _ same rfl (fun holds => ?_) fun _ _ => id
    exact (inv.halfOpen thread (same ▸ holds)).imp_right fun recording =>
      absurd recording.1 (allowed.2 true)
  | readState =>
    have undecided : (phases thread).standing = .undecided := congrArg CallerPhase.standing allowed
    simp only [BreakerCall.apply] at undisturbed ⊢
    cases state : shared.fields.breaker.state with
    | closed =>
      refine inv.same_holders _ ?_ rfl (fun holds => absurd holds Bool.false_ne_true) fun _ _ => id
      rw [undecided]
      rfl
    | opened => exact inv.silent _ rfl rfl rfl
    | halfOpen =>
      rw [state] at undisturbed
      exact undisturbed.elim
  | setState state =>
    cases state with
    | halfOpen =>
      -- the one call that takes the probe: it has seen the circuit open, under the lock
      have standing : (phases thread).standing = .undecided := congrArg CallerPhase.standing allowed
      have stage : (phases thread).stage = .locked (some .opened) :=
        congrArg CallerPhase.stage allowed
      refine inv.take _ ?_ (stateWriter.mp (by rw [stage]; rfl)) ?_ rfl rfl
      · simp [seen .opened (by rw [stage]; rfl)]
      · simp [standing]
    | closed | opened =>
      obtain ⟨recording, known, stage⟩ := allowed
      exact of_recording _ (stateWriter.mp (by rw [stage]; rfl)) recording undisturbed
        (by simp [BreakerCall.apply])
  | unlockState =>
    obtain ⟨known, stage, recorded⟩ := allowed
    have own := stateWriter.mp (by rw [stage]; rfl)
    have isKnown := seen known (by rw [stage]; rfl)
    simp only [breakerAutomaton, CallerPhase.nextStanding]
    cases standing : (phases thread).standing with
    | recording probe =>
      -- the outcome is recorded, the probe is given back with the lock
      refine inv.giveBack _ own rfl rfl ?_
      rw [isKnown]
      exact recorded probe standing
    | undecided | allowed | probing | recorded =>
      refine inv.same_holders _ ?_ rfl (fun holds => ?_) fun other isOther held => ?_
      · rw [standing]
      · exact (inv.halfOpen thread (standing ▸ holds)).imp_right fun recording => by
          simp [standing] at recording
      · exact absurd (Option.some.inj (held.symm.trans own)) isOther

end ProbeInv

/-! ## Every run -/

section Runs

variable [DecidableEq ι] {config : CircuitBreakerConfig} {jobs : ι → BreakerJob}
  {reached : BreakerConfiguration ι}

theorem ProbeInv.of_reaches
    (reaches : (breakerSystem config jobs).ReachesBy UndisturbedStep .new reached) :
    ProbeInv reached.moment.shared (callerPhases reached.moment.history) := by
  induction reaches with
  | initial => exact .initial
  | @step before after label earlier step undisturbed inv =>
    rw [step.history_eq]
    cases label with
    | perform thread event =>
      obtain ⟨allowed, guest, accessed⟩ := allowed_of_perform earlier.reaches step
      rw [callerPhases_perform]
      exact inv.access (BreakerInv.of_reaches earlier.reaches) allowed accessed undisturbed
    | start thread =>
      rw [callerPhases_silent _ nofun]
      cases step with
      | start _ => exact inv
    | finish thread value =>
      rw [callerPhases_silent _ nofun]
      cases step with
      | finish _ => exact inv
    | environment ticks =>
      rw [callerPhases_silent _ nofun]
      cases step with
      | environment effect =>
        subst effect
        exact ⟨inv.single, inv.halfOpen, inv.held⟩

/-- In a run in which no `can_execute` reads `HalfOpen`, and nobody else records while a probe
    is out, there is one probe at a time, and while it is out no other caller is let through.
    The first `can_execute` that does read `HalfOpen` hands out a second probe. -/
theorem single_probe
    (reaches : (breakerSystem config fun _ : ι => .intercept).ReachesBy UndisturbedStep .new reached) :
    (∀ first second,
      (callerPhases reached.moment.history first).standing.holdsProbe = true →
      (callerPhases reached.moment.history second).standing.holdsProbe = true → first = second) ∧
    (∀ thread event next,
      (breakerSystem config fun _ => .intercept).Step reached (.perform thread event) next →
      UndisturbedStep reached (.perform thread event) next →
      Grants (callerPhases reached.moment.history thread) event →
      ∀ other, (callerPhases reached.moment.history other).standing.holdsProbe = false) ∧
    ∀ thread next,
      (breakerSystem config fun _ => .intercept).Step reached
        (.perform thread ⟨.readState, .halfOpen⟩) next →
      (callerPhases next.moment.history thread).standing.holdsProbe = true ∧
        ∃ other, other ≠ thread ∧
          (callerPhases next.moment.history other).standing.holdsProbe = true := by
  have inv := ProbeInv.of_reaches reaches
  have locks := BreakerInv.of_reaches reaches.reaches
  refine ⟨inv.single, fun thread event next step undisturbed granted other => ?_,
    fun thread next step => ?_⟩
  · obtain ⟨allowed, guest, accessed⟩ := allowed_of_perform reaches.reaches step
    simpa using inv.nobody_of_grants locks allowed accessed undisturbed granted other
  · obtain ⟨allowed, guest, accessed⟩ := allowed_of_perform reaches.reaches step
    simp only [SharedBreaker.access, Option.ite_none_right_eq_some, Option.some.injEq,
      Prod.mk.injEq] at accessed
    obtain ⟨other, holds⟩ := inv.held accessed.2.1
    -- who reads the state has not been let through yet
    have isOther : other ≠ thread := by
      rintro rfl
      rw [show callerPhases _ other = _ from allowed] at holds
      cases holds
    rw [step.history_eq, callerPhases_perform]
    refine ⟨by rw [Function.update_self]; rfl, other, isOther, ?_⟩
    rwa [Function.update_of_ne isOther]

end Runs

/-! ## Concrete runs -/

/-- The last access of a run, checked. -/
def undisturbedCheck [Fintype ι] [DecidableEq ι] (before after : BreakerConfiguration ι) : Bool :=
  match after.moment.history.getLast? with
  | some (.perform thread event) =>
    decide (Undisturbed (callerPhases before.moment.history) thread event)
  | _ => true

theorem undisturbedStep_of_check [Fintype ι] [DecidableEq ι] {config : CircuitBreakerConfig}
    {jobs : ι → BreakerJob} {before after : BreakerConfiguration ι} {label : BreakerLabel ι}
    (step : (breakerSystem config jobs).Step before label after)
    (checked : undisturbedCheck before after = true) : UndisturbedStep before label after := by
  rw [undisturbedCheck, step.history_eq, List.getLast?_concat] at checked
  cases label with
  | perform thread event => simpa [UndisturbedStep] using checked
  | start _ | finish _ _ | environment _ => trivial

/-- A single failure trips this breaker, for ten ticks. -/
def hastyBreaker : CircuitBreakerConfig := ⟨1, 10⟩

/-- Caller 0 fails and trips the breaker; ten ticks later caller 1 turns it half-open, and
    caller 2 reads `HalfOpen`. -/
def hastyMoves : List (Move (Fin 3) Nat GuestRun) :=
  (List.replicate 12 (.thread 0 ⟨false, 0⟩)) ++ [.environment 10] ++
    (List.replicate 8 (.thread 1 ⟨true, 0⟩)) ++ (List.replicate 2 (.thread 2 ⟨true, 0⟩))

/-- Until caller 2 comes, there is one probe. -/
theorem single_probe_hasty : ∃ reached,
    (breakerSystem hastyBreaker fun _ : Fin 3 => .intercept).Reaches .new reached ∧
      (callerPhases reached.moment.history 1).standing.holdsProbe = true ∧
      ∀ other, (callerPhases reached.moment.history other).standing.holdsProbe = true →
        other = 1 := by
  obtain ⟨reached, reaches, holds⟩ : ∃ reached,
      (breakerSystem hastyBreaker fun _ : Fin 3 => .intercept).ReachesBy UndisturbedStep .new
        reached ∧ (callerPhases reached.moment.history 1).standing.holdsProbe = true :=
    ⟨_, (breakerScheduler hastyBreaker fun _ => .intercept).runWhile_reachesBy
      (fun _ step checked => undisturbedStep_of_check step checked) (hastyMoves.take 21) .initial
      rfl, rfl⟩
  exact ⟨reached, reaches.reaches, holds,
    fun other holdsOther => (single_probe reaches).1 other 1 holdsOther holds⟩

theorem two_probes : ∃ reached,
    (breakerSystem hastyBreaker fun _ : Fin 3 => .intercept).Reaches .new reached ∧
      reached.moment.shared.fields.breaker.state = .halfOpen ∧
      (callerPhases reached.moment.history 1).standing.holdsProbe = true ∧
      (callerPhases reached.moment.history 2).standing.holdsProbe = true :=
  ⟨_, (breakerScheduler hastyBreaker fun _ => .intercept).run_reaches hastyMoves .initial rfl,
    rfl, rfl, rfl⟩

end SpectraGQL.Interceptors
