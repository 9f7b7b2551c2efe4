import SpectraGQL.Gateway.Lifecycle
import SpectraGQL.Interaction.Automaton

/-! # One request against a world

`handle` answers the calls of a request that runs alone: the engine is the map of the
records that a caller can see, the interceptors are evaluated, and an `Environment` says
what the client and the broker take.  The world keeps the trace of all calls.
`visible_step` connects the engine used here with the map that both backends implement.
-/

namespace SpectraGQL.Idempotency

/-- What a caller can see under each key. -/
abbrev Engine := String → Option KeyState

def Engine.step (operation : Operation) (engine : Engine) : Reply × Engine :=
  ((operation.onKey (engine operation.key)).1,
    Function.update engine operation.key (operation.onKey (engine operation.key)).2)

/-- The records of a map that are visible at a time, without their times. -/
def IdempotencyMap.engine (map : IdempotencyMap) (ttlSecs nowSecs : Nat) : Engine :=
  fun key => (map.visible ttlSecs nowSecs key).map IdempotencyRecord.keyState

/-- An operation on the map is the operation on what is visible of it. -/
theorem IdempotencyMap.visible_step {ttlSecs : Nat} (positive : 0 < ttlSecs) (nowSecs : Nat)
    (operation : Operation) (map : IdempotencyMap) :
    (map.step ttlSecs nowSecs operation).1 = ((map.engine ttlSecs nowSecs).step operation).1 ∧
      (map.step ttlSecs nowSecs operation).2.engine ttlSecs nowSecs =
        ((map.engine ttlSecs nowSecs).step operation).2 := by
  -- what is written now is visible now
  have engine_update : ∀ key record, (∀ r ∈ record, IdempotencyRecord.writtenAt r = nowSecs) →
      IdempotencyMap.engine (Function.update map key record) ttlSecs nowSecs =
        Function.update (map.engine ttlSecs nowSecs) key (record.map IdempotencyRecord.keyState) := by
    intro key record written
    funext other
    by_cases same : other = key
    · subst same
      cases record with
      | none => simp [engine, visible]
      | some stored =>
        have live : stored.Live ttlSecs nowSecs := by
          simp [IdempotencyRecord.Live, written stored rfl, positive]
        simp [engine, visible, live]
    · simp [engine, visible, same]
  cases operation with
  | checkOrInsert key hlc =>
    cases found : map.visible ttlSecs nowSecs key with
    | none =>
      have unseen : map.engine ttlSecs nowSecs key = none := by simp [engine, found]
      simp only [step, found, Engine.step, Operation.key, unseen, Operation.onKey, true_and]
      exact engine_update key _ (by simp [IdempotencyRecord.writtenAt])
    | some record =>
      have seen : map.engine ttlSecs nowSecs key = some record.keyState := by simp [engine, found]
      simp only [step, found, Engine.step, Operation.key, seen, Operation.onKey,
        IdempotencyRecord.outcome_keyState, true_and]
      rw [← seen, Function.update_eq_self]
  | complete key hlc statusCode headers body =>
    exact ⟨rfl, engine_update key _ (by simp [IdempotencyRecord.writtenAt])⟩
  | remove key => exact ⟨rfl, engine_update key none (by simp)⟩

end SpectraGQL.Idempotency

namespace SpectraGQL.Gateway

open Interaction SpectraGQL.Core SpectraGQL.Http SpectraGQL.Protocol SpectraGQL.Interceptors
open SpectraGQL.Telemetry SpectraGQL.Idempotency

/-! ## The handler -/

/-- What may go either way while a request is served, by the number of calls before. -/
structure Environment where
  clientTakes : Nat → Bool
  brokerTakes : Nat → Bool
  /-- How the admin engine or a WebSocket session ends. -/
  edgeResult : Except PingoraError Unit
  nowEpochMs : Nat

structure World where
  engine : Engine
  trace : List (Event gatewaySignature) := []

def answerOf (environment : Environment) (world : World) : (call : GatewayCall) → call.Answer
  | .checkOrInsert key _ =>
    match world.engine key with
    | some found => found.outcome
    | none => .new
  | .complete _ _ _ _ _ => ()
  | .remove _ => ()
  | .interceptRequest pipeline context parts body =>
    (RequestInterceptorPipeline.interceptRequest pipeline context parts body).1
  | .dispatchRequestInfo _ => environment.brokerTakes world.trace.length
  | .dispatchTerminalEvent _ _ => environment.brokerTakes world.trace.length
  | .dispatchPayload _ _ => environment.brokerTakes world.trace.length
  | .writeResponseHeader _ => environment.clientTakes world.trace.length
  | .writeResponseBody _ => environment.clientTakes world.trace.length
  | .handleAdmin => environment.edgeResult
  | .handleWebsocketSubscription => environment.edgeResult
  | .recordTraffic _ => ()
  | .nowEpochMs => environment.nowEpochMs

/-- The engine's operation behind a call. -/
def GatewayCall.operation? : GatewayCall → Option Operation
  | .checkOrInsert key hlc => some (.checkOrInsert key hlc)
  | .complete key hlc statusCode headers body => some (.complete key hlc statusCode headers body)
  | .remove key => some (.remove key)
  | _ => none

def engineAfter (call : GatewayCall) (engine : Engine) : Engine :=
  match call.operation? with
  | some operation => (engine.step operation).2
  | none => engine

def handle (environment : Environment) (call : GatewayCall) (world : World) : call.Answer × World :=
  (answerOf environment world call,
    ⟨engineAfter call world.engine, world.trace ++ [⟨call, answerOf environment world call⟩]⟩)

/-- A program alone in a world. -/
def run {α : Type} (environment : Environment) (program : GatewayProg α) (world : World) : α × World :=
  program.interp (handle environment) world

section Run

variable {α β : Type} (environment : Environment) (world : World)

theorem run_ret (value : α) : run environment (.ret value) world = (value, world) := rfl

theorem run_pure (value : α) : run environment (pure value) world = (value, world) := rfl

theorem run_bind (program : GatewayProg α) (next : α → GatewayProg β) :
    run environment (program >>= next) world =
      run environment (next (run environment program world).1) (run environment program world).2 :=
  Prog.interp_bind ..

theorem andThen_bind (program : GatewayProg α) (next : α → GatewayProg (Stage β))
    (rest : β → GatewayProg Outcome) :
    Stage.andThen (program >>= next) rest =
      program >>= fun value => Stage.andThen (next value) rest :=
  Prog.bind_assoc ..

theorem run_andThen {stage : GatewayProg (Stage α)} {rest : α → GatewayProg Outcome} :
    run environment (Stage.andThen stage rest) world =
      match run environment stage world with
      | (.done outcome, after) => (outcome, after)
      | (.next value, after) => run environment (rest value) after := by
  unfold Stage.andThen
  rw [run_bind]
  rcases run environment stage world with ⟨_ | _, after⟩ <;> rfl

/-- The trace only grows. -/
theorem trace_run (program : GatewayProg α) :
    world.trace <+: (run environment program world).2.trace := by
  induction program generalizing world with
  | ret value => exact List.prefix_rfl
  | call request rest inductionHypothesis =>
    exact (List.prefix_append _ _).trans (inductionHypothesis _ (handle environment request world).2)

end Run

section Trace

variable {α : Type} {environment : Environment} {world : World}

theorem mem_trace_run {event : Event gatewaySignature} (member : event ∈ world.trace)
    (program : GatewayProg α) : event ∈ (run environment program world).2.trace :=
  (trace_run environment world program).subset member

/-- The new calls in a trace are calls that the program may make. -/
theorem trace_of_only {allowed : GatewayCall → Prop} {program : GatewayProg α}
    (only : Prog.Only allowed program) :
    ∀ event ∈ (run environment program world).2.trace, event ∈ world.trace ∨ allowed event.call := by
  induction program generalizing world with
  | ret value => exact fun event member => .inl member
  | call request rest inductionHypothesis =>
    intro event member
    cases inductionHypothesis _ (only.2 _ trivial) event member with
    | inl earlier =>
      cases List.mem_append.mp earlier with
      | inl before => exact .inl before
      | inr now =>
        rw [List.mem_singleton.mp now]
        exact .inr only.1
    | inr later => exact .inr later

end Trace

/-! ## Programs that leave the engine alone -/

/-- A call that is not for the engine. -/
def Aside (call : GatewayCall) : Prop := call.operation? = none

/-- All calls of the program are not for the engine. -/
abbrev LeavesEngine {α : Type} (program : GatewayProg α) : Prop := Prog.Only Aside program

theorem leavesEngine_perform {call : GatewayCall} (aside : Aside call) :
    LeavesEngine (Prog.perform (S := gatewaySignature) call) :=
  Prog.Only.perform aside

theorem LeavesEngine.engine_run {α : Type} {program : GatewayProg α} (leaves : LeavesEngine program)
    (environment : Environment) (world : World) :
    (run environment program world).2.engine = world.engine :=
  Prog.Only.interp World.engine leaves
    (fun call state aside => by simp only [handle, engineAfter, show call.operation? = none from aside])
    world

end SpectraGQL.Gateway
