import SpectraGQL.Interaction.Prog
import Mathlib.Data.List.Basic
import Mathlib.Algebra.Group.Nat.Defs

/-! # The circuit breaker of a plugin

`WasmCircuitBreaker` keeps an atomic counter and two values behind locks of their own.  Its
methods are programs over the accesses to these three, so that the same text is read twice:
alone, by a handler, and among other callers, in a pool.

This module has the programs, what each access does, and the sequential reading: a run of
invocations does what `ReferenceBreaker` does, which knows the phase, the instant of the last
trip and how many failures have come in a row.
-/

namespace SpectraGQL.Interceptors

open Interaction

/-! ## The breaker -/

inductive CircuitState where
  | closed
  | opened
  | halfOpen
  deriving DecidableEq

inductive CircuitPermission where
  | allow
  | probe
  | denied
  deriving DecidableEq

structure CircuitBreakerConfig where
  consecutiveFailureThreshold : UInt32
  /-- In the unit of the clock. -/
  cooloffDuration : Nat

structure WasmCircuitBreaker where
  failures : UInt32
  state : CircuitState
  lastTrippedAt : Option Nat
  deriving DecidableEq

def WasmCircuitBreaker.new : WasmCircuitBreaker := ⟨0, .closed, none⟩

/-! ## Accesses -/

/-- The accesses to the fields.  A read whose guard is dropped at once is one access; a write
    lock is taken and dropped by accesses of its own. -/
inductive BreakerCall where
  | readState
  | readTrippedAt
  | now
  | lockState
  | getState
  | setState (state : CircuitState)
  | unlockState
  | lockTrippedAt
  | setTrippedAt (instant : Nat)
  | unlockTrippedAt
  | storeFailures (count : UInt32)
  | fetchAddFailures (count : UInt32)
  /-- `invoke_guest`, answered by whether it returned `Ok`. -/
  | invokeGuest

@[reducible] def BreakerCall.Answer : BreakerCall → Type
  | .readState | .getState => CircuitState
  | .readTrippedAt => Option Nat
  | .now => Nat
  | .fetchAddFailures _ => UInt32
  | .invokeGuest => Bool
  | .lockState | .setState _ | .unlockState => Unit
  | .lockTrippedAt | .setTrippedAt _ | .unlockTrippedAt => Unit
  | .storeFailures _ => Unit

abbrev breakerSignature : Signature := ⟨BreakerCall, BreakerCall.Answer⟩

abbrev BreakerProg (α : Type) := Prog breakerSignature α

namespace BreakerProg

def readState : BreakerProg CircuitState := Prog.perform (S := breakerSignature) .readState
def readTrippedAt : BreakerProg (Option Nat) :=
  Prog.perform (S := breakerSignature) .readTrippedAt
def now : BreakerProg Nat := Prog.perform (S := breakerSignature) .now
def lockState : BreakerProg Unit := Prog.perform (S := breakerSignature) .lockState
def getState : BreakerProg CircuitState := Prog.perform (S := breakerSignature) .getState
def setState (state : CircuitState) : BreakerProg Unit :=
  Prog.perform (S := breakerSignature) (.setState state)
def unlockState : BreakerProg Unit := Prog.perform (S := breakerSignature) .unlockState
def lockTrippedAt : BreakerProg Unit := Prog.perform (S := breakerSignature) .lockTrippedAt
def setTrippedAt (instant : Nat) : BreakerProg Unit :=
  Prog.perform (S := breakerSignature) (.setTrippedAt instant)
def unlockTrippedAt : BreakerProg Unit := Prog.perform (S := breakerSignature) .unlockTrippedAt
def storeFailures (count : UInt32) : BreakerProg Unit :=
  Prog.perform (S := breakerSignature) (.storeFailures count)
def fetchAddFailures (count : UInt32) : BreakerProg UInt32 :=
  Prog.perform (S := breakerSignature) (.fetchAddFailures count)
def invokeGuest : BreakerProg Bool := Prog.perform (S := breakerSignature) .invokeGuest

end BreakerProg

open BreakerProg

/-! ## The methods -/

namespace WasmCircuitBreaker

def canExecute (config : CircuitBreakerConfig) : BreakerProg CircuitPermission := do
  let currentState ← readState
  match currentState with
  | .closed => pure .allow
  | .opened => do
    let trippedAt ← readTrippedAt
    match trippedAt with
    | none => pure .denied
    | some t => do
      let instant ← now
      -- `Instant::elapsed` saturates, as the subtraction of `Nat` does
      if config.cooloffDuration ≤ instant - t then do
        lockState
        let state ← getState
        if state = .opened then do
          setState .halfOpen
          unlockState
          pure .probe
        else do
          unlockState
          pure .denied
      else pure .denied
  | .halfOpen => pure .probe

def recordSuccess : BreakerProg Unit := do
  storeFailures 0
  lockState
  setState .closed
  unlockState

def recordFailure (config : CircuitBreakerConfig) : BreakerProg Unit := do
  let prev ← fetchAddFailures 1
  let failures := prev + 1
  lockState
  let state ← getState
  if state = .halfOpen ∨ config.consecutiveFailureThreshold ≤ failures then do
    setState .opened
    lockTrippedAt
    let instant ← now
    setTrippedAt instant
    unlockTrippedAt
    unlockState
  else unlockState

def isOpen : BreakerProg Bool := do
  let state ← readState
  pure (state = .opened)

/-- The breaker's part of `intercept_request` and of `intercept_response`. -/
def intercept (config : CircuitBreakerConfig) : BreakerProg CircuitPermission := do
  let permission ← canExecute config
  match permission with
  | .denied => pure permission
  | .allow | .probe => do
    let succeeded ← invokeGuest
    if succeeded then recordSuccess else recordFailure config
    pure permission

end WasmCircuitBreaker

/-! ## What an access does -/

/-- The breaker and the clock that `Instant::now` reads. -/
structure BreakerState where
  breaker : WasmCircuitBreaker
  clock : Nat
  deriving DecidableEq

/-- How a guest's run ends, and when. -/
structure GuestRun where
  succeeds : Bool
  returnsAt : Nat

/-- The effect of an access on the fields.  Who may have access is left to the locks. -/
def BreakerCall.apply (guest : GuestRun) :
    (call : BreakerCall) → BreakerState → call.Answer × BreakerState
  | .readState, state => (state.breaker.state, state)
  | .readTrippedAt, state => (state.breaker.lastTrippedAt, state)
  | .now, state => (state.clock, state)
  | .lockState, state => ((), state)
  | .getState, state => (state.breaker.state, state)
  | .setState value, state => ((), { state with breaker := { state.breaker with state := value } })
  | .unlockState, state => ((), state)
  | .lockTrippedAt, state => ((), state)
  | .setTrippedAt instant, state =>
    ((), { state with breaker := { state.breaker with lastTrippedAt := some instant } })
  | .unlockTrippedAt, state => ((), state)
  | .storeFailures count, state =>
    ((), { state with breaker := { state.breaker with failures := count } })
  | .fetchAddFailures count, state =>
    (state.breaker.failures,
      { state with breaker := { state.breaker with failures := state.breaker.failures + count } })
  | .invokeGuest, state => (guest.succeeds, { state with clock := max state.clock guest.returnsAt })

/-! ## Alone -/

/-- One invocation: when it is made, and how and when the guest's run ends. -/
structure Invocation where
  calledAt : Nat
  succeeds : Bool
  recordedAt : Nat
  ordered : calledAt ≤ recordedAt

namespace WasmCircuitBreaker

/-- An invocation that nobody interferes with. -/
def invoke (config : CircuitBreakerConfig) (invocation : Invocation)
    (breaker : WasmCircuitBreaker) : CircuitPermission × WasmCircuitBreaker :=
  let result := (intercept config).interp
    (BreakerCall.apply ⟨invocation.succeeds, invocation.recordedAt⟩)
    ⟨breaker, invocation.calledAt⟩
  (result.1, result.2.breaker)

/-- One invocation after the other: the permissions, and the breaker afterwards. -/
def invokeAll (config : CircuitBreakerConfig) :
    List Invocation → WasmCircuitBreaker → List CircuitPermission × WasmCircuitBreaker
  | [], breaker => ([], breaker)
  | invocation :: rest, breaker =>
    let result := invoke config invocation breaker
    let later := invokeAll config rest result.2
    (result.1 :: later.1, later.2)

section Interp

variable (config : CircuitBreakerConfig) (guest : GuestRun) (failures : UInt32)
  (state : CircuitState) (trippedAt : Option Nat) (clock : Nat)

theorem interp_recordSuccess :
    recordSuccess.interp (BreakerCall.apply guest) ⟨⟨failures, state, trippedAt⟩, clock⟩ =
      ((), ⟨⟨0, .closed, trippedAt⟩, clock⟩) := rfl

theorem interp_recordFailure :
    (recordFailure config).interp (BreakerCall.apply guest) ⟨⟨failures, state, trippedAt⟩, clock⟩ =
      ((), if state = .halfOpen ∨ config.consecutiveFailureThreshold ≤ failures + 1
        then ⟨⟨failures + 1, .opened, some clock⟩, clock⟩
        else ⟨⟨failures + 1, state, trippedAt⟩, clock⟩) := by
  change (if state = .halfOpen ∨ config.consecutiveFailureThreshold ≤ failures + 1 then _ else _ :
    BreakerProg Unit).interp (BreakerCall.apply guest) ⟨⟨failures + 1, state, trippedAt⟩, clock⟩ = _
  split <;> rfl

theorem interp_canExecute_closed :
    (canExecute config).interp (BreakerCall.apply guest) ⟨⟨failures, .closed, trippedAt⟩, clock⟩ =
      (.allow, ⟨⟨failures, .closed, trippedAt⟩, clock⟩) := rfl

theorem interp_canExecute_halfOpen :
    (canExecute config).interp (BreakerCall.apply guest) ⟨⟨failures, .halfOpen, trippedAt⟩, clock⟩ =
      (.probe, ⟨⟨failures, .halfOpen, trippedAt⟩, clock⟩) := rfl

theorem interp_canExecute_opened (instant : Nat) :
    (canExecute config).interp (BreakerCall.apply guest)
        ⟨⟨failures, .opened, some instant⟩, clock⟩ =
      if config.cooloffDuration ≤ clock - instant
      then (.probe, ⟨⟨failures, .halfOpen, some instant⟩, clock⟩)
      else (.denied, ⟨⟨failures, .opened, some instant⟩, clock⟩) := by
  change (if config.cooloffDuration ≤ clock - instant then _ else _ :
    BreakerProg CircuitPermission).interp (BreakerCall.apply guest)
      ⟨⟨failures, .opened, some instant⟩, clock⟩ = _
  split <;> rfl

/-- A breaker that is not open, or has been for the cooloff, denies nothing. -/
theorem canExecute_permits {config : CircuitBreakerConfig} {guest : GuestRun}
    {breaker : WasmCircuitBreaker} {clock : Nat}
    (late : breaker.state = .opened → ∃ instant, breaker.lastTrippedAt = some instant ∧
      instant + config.cooloffDuration ≤ clock) :
    ((canExecute config).interp (BreakerCall.apply guest) ⟨breaker, clock⟩).1 ≠ .denied := by
  obtain ⟨failures, state, trippedAt⟩ := breaker
  cases state with
  | closed =>
    rw [interp_canExecute_closed]
    exact nofun
  | halfOpen =>
    rw [interp_canExecute_halfOpen]
    exact nofun
  | opened =>
    obtain ⟨instant, isInstant, isOver⟩ := late rfl
    simp only at isInstant
    subst isInstant
    rw [interp_canExecute_opened, if_pos (by omega)]
    exact nofun

variable {config guest} {before after : BreakerState} {permission : CircuitPermission}

theorem interp_intercept_denied
    (denied : (canExecute config).interp (BreakerCall.apply guest) before = (.denied, after)) :
    (intercept config).interp (BreakerCall.apply guest) before = (.denied, after) := by
  simp only [intercept, Prog.interp_bind, denied]
  rfl

/-- Whoever is permitted runs the guest, and records how that ended. -/
theorem interp_intercept_permitted
    (permitted : (canExecute config).interp (BreakerCall.apply guest) before = (permission, after))
    (notDenied : permission ≠ .denied) :
    (intercept config).interp (BreakerCall.apply guest) before =
      (permission, ((if guest.succeeds then recordSuccess else recordFailure config).interp
        (BreakerCall.apply guest) { after with clock := max after.clock guest.returnsAt }).2) := by
  have recorded (program : BreakerProg Unit) (state : BreakerState) :
      (program >>= fun _ => pure permission).interp (BreakerCall.apply guest) state =
        (permission, (program.interp (BreakerCall.apply guest) state).2) := by
    rw [Prog.interp_bind]
    rfl
  simp only [intercept, Prog.interp_bind, permitted]
  obtain ⟨succeeds, returnsAt⟩ := guest
  cases permission with
  | denied => exact absurd rfl notDenied
  | allow | probe => cases succeeds <;> exact recorded _ _

end Interp

end WasmCircuitBreaker

/-! ## The reference automaton -/

inductive ReferencePhase where
  | closed
  | opened (trippedAt : Nat)
  | halfOpen
  deriving DecidableEq

/-- What a circuit breaker is for, without locks and counters that wrap. -/
structure ReferenceBreaker where
  phase : ReferencePhase
  /-- The failures recorded since the last success. -/
  failures : Nat
  deriving DecidableEq

namespace ReferenceBreaker

def new : ReferenceBreaker := ⟨.closed, 0⟩

/-- Calls are denied until the cooloff after the last trip is over; the first one then is a
    probe. -/
def permit (config : CircuitBreakerConfig) (calledAt : Nat) (reference : ReferenceBreaker) :
    CircuitPermission × ReferenceBreaker :=
  match reference.phase with
  | .closed => (.allow, reference)
  | .opened trippedAt =>
    if calledAt < trippedAt + config.cooloffDuration then (.denied, reference)
    else (.probe, { reference with phase := .halfOpen })
  | .halfOpen => (.probe, reference)

def succeed : ReferenceBreaker := ⟨.closed, 0⟩

/-- A failed probe trips the breaker, and so does the failure that completes the row. -/
def fail (config : CircuitBreakerConfig) (recordedAt : Nat) (reference : ReferenceBreaker) :
    ReferenceBreaker :=
  if reference.phase = .halfOpen ∨
      config.consecutiveFailureThreshold.toNat ≤ reference.failures + 1
  then ⟨.opened recordedAt, reference.failures + 1⟩
  else ⟨reference.phase, reference.failures + 1⟩

def invoke (config : CircuitBreakerConfig) (invocation : Invocation)
    (reference : ReferenceBreaker) : CircuitPermission × ReferenceBreaker :=
  let admitted := reference.permit config invocation.calledAt
  if admitted.1 = .denied then admitted
  else (admitted.1,
    if invocation.succeeds then succeed else admitted.2.fail config invocation.recordedAt)

def invokeAll (config : CircuitBreakerConfig) :
    List Invocation → ReferenceBreaker → List CircuitPermission × ReferenceBreaker
  | [], reference => ([], reference)
  | invocation :: rest, reference =>
    let result := reference.invoke config invocation
    let later := invokeAll config rest result.2
    (result.1 :: later.1, later.2)

end ReferenceBreaker

/-! ## The breaker follows it -/

def ReferencePhase.state : ReferencePhase → CircuitState
  | .closed => .closed
  | .opened _ => .opened
  | .halfOpen => .halfOpen

namespace ReferenceBreaker

/-- The breaker is in the reference's phase, has tripped when it says, and counts the same
    failures. -/
structure Describes (reference : ReferenceBreaker) (breaker : WasmCircuitBreaker) : Prop where
  state : breaker.state = reference.phase.state
  trippedAt : ∀ instant, reference.phase = .opened instant → breaker.lastTrippedAt = some instant
  failures : breaker.failures.toNat = reference.failures

/-- The last trip is not in the future. -/
def TrippedBy (reference : ReferenceBreaker) (instant : Nat) : Prop :=
  ∀ trippedAt, reference.phase = .opened trippedAt → trippedAt ≤ instant

variable {config : CircuitBreakerConfig} {reference : ReferenceBreaker}
  {breaker : WasmCircuitBreaker} {guest : GuestRun} {clock : Nat}

theorem describes_new : new.Describes WasmCircuitBreaker.new := ⟨rfl, nofun, rfl⟩

/-- Only a call that is denied leaves the breaker open. -/
theorem permit_not_opened (admitted : (reference.permit config clock).1 ≠ .denied) (instant : Nat) :
    (reference.permit config clock).2.phase ≠ .opened instant := by
  obtain ⟨phase, count⟩ := reference
  cases phase with
  | closed | halfOpen => simp [permit]
  | opened trippedAt =>
    simp only [permit] at admitted ⊢
    split
    · rename_i early
      rw [if_pos early] at admitted
      exact absurd rfl admitted
    · simp

theorem Describes.canExecute (config : CircuitBreakerConfig) (guest : GuestRun)
    (describes : reference.Describes breaker)
    (past : reference.TrippedBy clock) :
    ∃ after, (WasmCircuitBreaker.canExecute config).interp (BreakerCall.apply guest)
        ⟨breaker, clock⟩ = ((reference.permit config clock).1, ⟨after, clock⟩) ∧
      (reference.permit config clock).2.Describes after := by
  obtain ⟨failures, state, trippedAt⟩ := breaker
  obtain ⟨phase, count⟩ := reference
  obtain ⟨sameState, tripped, sameCount⟩ := describes
  simp only at sameState tripped sameCount
  subst sameState sameCount
  cases phase with
  | closed => exact ⟨_, WasmCircuitBreaker.interp_canExecute_closed .., rfl, nofun, rfl⟩
  | halfOpen => exact ⟨_, WasmCircuitBreaker.interp_canExecute_halfOpen .., rfl, nofun, rfl⟩
  | opened instant =>
    obtain rfl : trippedAt = some instant := tripped instant rfl
    have before : instant ≤ clock := past instant rfl
    simp only [ReferencePhase.state, WasmCircuitBreaker.interp_canExecute_opened, permit]
    by_cases early : clock < instant + config.cooloffDuration
    · rw [if_neg (by omega), if_pos early]
      exact ⟨_, rfl, rfl, tripped, rfl⟩
    · rw [if_pos (by omega), if_neg early]
      exact ⟨_, rfl, rfl, nofun, rfl⟩

/-- Whatever was before a success, both are closed after it. -/
theorem describes_recordSuccess (breaker : WasmCircuitBreaker) (guest : GuestRun) (clock : Nat) :
    ∃ after, WasmCircuitBreaker.recordSuccess.interp (BreakerCall.apply guest)
        ⟨breaker, clock⟩ = ((), ⟨after, clock⟩) ∧ succeed.Describes after :=
  ⟨_, WasmCircuitBreaker.interp_recordSuccess .., rfl, nofun, rfl⟩

/-- The counter has room for one more failure. -/
theorem Describes.recordFailure (config : CircuitBreakerConfig) (guest : GuestRun) (clock : Nat)
    (describes : reference.Describes breaker)
    (room : reference.failures + 1 < 2 ^ 32)
    (notOpened : ∀ instant, reference.phase ≠ .opened instant) :
    ∃ after, (WasmCircuitBreaker.recordFailure config).interp (BreakerCall.apply guest)
        ⟨breaker, clock⟩ = ((), ⟨after, clock⟩) ∧
      (reference.fail config clock).Describes after := by
  obtain ⟨failures, state, trippedAt⟩ := breaker
  obtain ⟨phase, count⟩ := reference
  obtain ⟨sameState, tripped, sameCount⟩ := describes
  simp only at sameState tripped sameCount
  subst sameState sameCount
  have counted : (failures + 1).toNat = failures.toNat + 1 := by
    rw [UInt32.toNat_add]
    exact Nat.mod_eq_of_lt room
  have isHalfOpen : phase.state = .halfOpen ↔ phase = .halfOpen := by
    cases phase <;> simp [ReferencePhase.state]
  rw [WasmCircuitBreaker.interp_recordFailure, fail]
  simp only [isHalfOpen, UInt32.le_iff_toNat_le, counted]
  split
  · refine ⟨_, rfl, rfl, fun instant same => ?_, counted⟩
    simpa using same
  · exact ⟨_, rfl, rfl, tripped, counted⟩

/-- One invocation, seen by both. -/
theorem Describes.invoke {invocation : Invocation} (describes : reference.Describes breaker)
    (past : reference.TrippedBy invocation.calledAt)
    (room : (reference.invoke config invocation).2.failures < 2 ^ 32 - 1) :
    (WasmCircuitBreaker.invoke config invocation breaker).1 =
        (reference.invoke config invocation).1 ∧
      (reference.invoke config invocation).2.Describes
        (WasmCircuitBreaker.invoke config invocation breaker).2 := by
  obtain ⟨admitted, ran, describesAdmitted⟩ := describes.canExecute config
    ⟨invocation.succeeds, invocation.recordedAt⟩ past
  simp only [WasmCircuitBreaker.invoke]
  unfold ReferenceBreaker.invoke at room ⊢
  -- a denied call changes nothing; any other runs its guest and records what came of it
  by_cases denied : (reference.permit config invocation.calledAt).1 = .denied
  · simp only [denied, if_true]
    rw [denied] at ran
    rw [WasmCircuitBreaker.interp_intercept_denied ran]
    exact ⟨rfl, describesAdmitted⟩
  · simp only [denied, if_false] at room ⊢
    rw [WasmCircuitBreaker.interp_intercept_permitted ran denied]
    simp only [Nat.max_eq_right invocation.ordered]
    cases succeeds : invocation.succeeds with
    | true =>
      obtain ⟨final, recorded, describesFinal⟩ := describes_recordSuccess admitted
        ⟨true, invocation.recordedAt⟩ invocation.recordedAt
      simp only [if_true, recorded]
      exact ⟨trivial, describesFinal⟩
    | false =>
      have counted : (reference.permit config invocation.calledAt).2.failures + 1 < 2 ^ 32 := by
        simp only [succeeds, Bool.false_eq_true, if_false, fail] at room
        split at room <;> simp only at room <;> omega
      obtain ⟨final, recorded, describesFinal⟩ := describesAdmitted.recordFailure
        config ⟨false, invocation.recordedAt⟩ invocation.recordedAt counted (permit_not_opened denied)
      simp only [Bool.false_eq_true, if_false, recorded]
      exact ⟨trivial, describesFinal⟩

theorem TrippedBy.mono {later : Nat} (past : reference.TrippedBy clock) (ordered : clock ≤ later) :
    reference.TrippedBy later :=
  fun instant opened => Nat.le_trans (past instant opened) ordered

theorem TrippedBy.permit (config : CircuitBreakerConfig) (past : reference.TrippedBy clock) :
    (reference.permit config clock).2.TrippedBy clock := by
  obtain ⟨phase, count⟩ := reference
  cases phase with
  | closed | halfOpen => exact past
  | opened trippedAt =>
    simp only [ReferenceBreaker.permit]
    split
    · exact past
    · exact nofun

theorem TrippedBy.fail (past : reference.TrippedBy clock) :
    (reference.fail config clock).TrippedBy clock := by
  unfold ReferenceBreaker.fail
  split
  · intro instant opened
    simp only [ReferencePhase.opened.injEq] at opened
    omega
  · exact past

/-- A trip is not later than the invocation that caused it. -/
theorem TrippedBy.invoke {invocation : Invocation} (past : reference.TrippedBy invocation.calledAt) :
    (reference.invoke config invocation).2.TrippedBy invocation.recordedAt := by
  have admitted := (past.permit config).mono invocation.ordered
  unfold ReferenceBreaker.invoke
  dsimp only
  split
  · exact admitted
  · split
    · exact nofun
    · exact admitted.fail

/-! ## Runs -/

/-- No invocation is made before the one before it has been recorded. -/
def InTurn (invocations : List Invocation) : Prop :=
  invocations.Pairwise fun earlier later => earlier.recordedAt ≤ later.calledAt

/-- At no time have `2 ^ 32 - 1` failures come in a row. -/
def Countable (config : CircuitBreakerConfig) (reference : ReferenceBreaker)
    (invocations : List Invocation) : Prop :=
  ∀ past, past <+: invocations →
    (ReferenceBreaker.invokeAll config past reference).2.failures < 2 ^ 32 - 1

/-- A run of invocations, seen by both. -/
theorem Describes.invokeAll {invocations : List Invocation} (describes : reference.Describes breaker)
    (past : reference.TrippedBy clock) (since : ∀ invocation ∈ invocations, clock ≤ invocation.calledAt)
    (inTurn : InTurn invocations) (countable : Countable config reference invocations) :
    (WasmCircuitBreaker.invokeAll config invocations breaker).1 =
        (ReferenceBreaker.invokeAll config invocations reference).1 ∧
      (ReferenceBreaker.invokeAll config invocations reference).2.Describes
        (WasmCircuitBreaker.invokeAll config invocations breaker).2 := by
  induction invocations generalizing reference breaker clock with
  | nil => exact ⟨rfl, describes⟩
  | cons invocation rest inductionHypothesis =>
    have now := past.mono (since invocation List.mem_cons_self)
    obtain ⟨samePermission, describesAfter⟩ := describes.invoke now
      (countable [invocation] (List.prefix_append [invocation] rest))
    obtain ⟨next, laterTurns⟩ := List.pairwise_cons.mp inTurn
    obtain ⟨samePermissions, describesFinal⟩ := inductionHypothesis describesAfter now.invoke
      next laterTurns fun front isPrefix => countable (invocation :: front)
        (List.prefix_cons_inj invocation |>.mpr isPrefix)
    exact ⟨congrArg₂ List.cons samePermission samePermissions, describesFinal⟩

end ReferenceBreaker

end SpectraGQL.Interceptors
