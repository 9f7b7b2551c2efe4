import SpectraGQL.Gateway.KeyProtocol
import SpectraGQL.Idempotency.Backend
import SpectraGQL.Interaction.Schedule

/-! # Many requests over one engine

Any number of requests are served at once, interleaved call by call, by gateways that share
an engine.  What a run can do with the keys follows from `obeys_serve`: `allowed_of_step`
is the protocol of the key for every call of every request, at the phase that the history
of the run gives the request.
-/

namespace SpectraGQL.Gateway

open Interaction SpectraGQL.Core SpectraGQL.Http SpectraGQL.Protocol SpectraGQL.Interceptors
open SpectraGQL.Telemetry SpectraGQL.Idempotency

/-- A request, and the configuration that it meets. -/
structure Visit where
  dynamic : DynamicGatewayState
  arrival : Arrival

/-- The key that the request resolves to. -/
def Visit.key (proxy : CompositeServiceProxy) (visit : Visit) : Option String :=
  visit.arrival.key proxy visit.dynamic

/-- What the engine has replied to an operation, read off the answer to the call. -/
def replyOf : (call : GatewayCall) → call.Answer → Reply
  | .checkOrInsert _ _, outcome => .outcome outcome
  | .complete _ _ _ _ _, _ => .done
  | .remove _, _ => .done
  | _, _ => .done

theorem GatewayCall.eq_complete {call : GatewayCall} {key body : String} {hlc : HlcTimestamp}
    {statusCode : UInt16} {headers : HeaderMap}
    (isOperation : call.operation? = some (.complete key hlc statusCode headers body)) :
    call = .complete key hlc statusCode headers body := by
  cases call with
  | complete _ _ _ _ _ =>
    cases isOperation
    rfl
  | _ => cases isOperation

section System

variable {ι ε σ : Type}

/-- Calls with an engine whose operations are those of `step`.  Pipelines answer with their
    verdict; the broker, the client and the rest answer as they like. -/
def callMeaning (step : Operation → σ → Reply → σ → Prop) : Semantics gatewaySignature σ :=
  fun call before answer after =>
    IsVerdict ⟨call, answer⟩ ∧
      match call.operation? with
      | some operation => step operation before (replyOf call answer) after
      | none => after = before

def gatewaySystem (step : Operation → σ → Reply → σ → Prop) (event : ε → σ → σ → Prop)
    (proxy : CompositeServiceProxy) (visits : ι → Visit) : System gatewaySignature ι ε σ Unit where
  program := fun thread => serve proxy (visits thread).dynamic (visits thread).arrival
  meaning := fun _ => callMeaning step
  environment := event

abbrev GatewayLabel (ι ε : Type) := Label gatewaySignature ι ε Unit

variable [DecidableEq ι]

/-- How far a request has come with its key. -/
def keyPhase (thread : ι) (history : List (GatewayLabel ι ε)) : KeyPhase :=
  (keyProtocol none ⟨0, 0⟩).phaseOf .unclaimed thread history

@[simp] theorem keyPhase_nil (thread : ι) : keyPhase thread ([] : List (GatewayLabel ι ε)) = .unclaimed := rfl

@[simp] theorem keyPhase_append (thread : ι) (history : List (GatewayLabel ι ε))
    (label : GatewayLabel ι ε) :
    keyPhase thread (history ++ [label]) =
      (keyProtocol none ⟨0, 0⟩).follow thread (keyPhase thread history) label :=
  Automaton.phaseOf_append ..

variable {step : Operation → σ → Reply → σ → Prop} {event : ε → σ → σ → Prop}
  {proxy : CompositeServiceProxy} {visits : ι → Visit} {shared : σ}
  {config config' : Config gatewaySignature ι ε σ Unit}

/-- The calls of all requests keep to the protocol of their keys. -/
theorem allowed_of_step (reaches : (gatewaySystem step event proxy visits).Reaches shared config)
    {thread : ι} {call : GatewayCall} {answer : call.Answer}
    (taken : (gatewaySystem step event proxy visits).Step config (.perform thread ⟨call, answer⟩)
      config') :
    (keyPhase thread config.moment.history).allows ((visits thread).key proxy)
      (visits thread).arrival.hlc call := by
  cases taken with
  | perform running effect =>
    -- the phases do not depend on the key and the timestamp of the request
    have verdicts : ∀ {call before answer after},
        (gatewaySystem step event proxy visits).meaning thread call before answer after →
        (keyProtocol ((visits thread).key proxy) (visits thread).arrival.hlc).possible ⟨call, answer⟩ :=
      fun effect => And.left effect
    have obeys := reaches.obeys (obeys_serve proxy (visits thread).dynamic (visits thread).arrival)
      verdicts running
    exact obeys.1

/-- The phase after a call that the phase allows, when the request then holds a key: it held
    the key before, or has just been given the key it resolves to. -/
theorem KeyPhase.holding_of_next {phase : KeyPhase} {resolved : Option String} {hlc : HlcTimestamp}
    {call : GatewayCall} {answer : call.Answer} {key : String} (allowed : phase.allows resolved hlc call)
    (holding : phase.next ⟨call, answer⟩ = .holding key) :
    phase = .holding key ∧ Aside call ∨
      call = .checkOrInsert key hlc ∧ resolved = some key ∧ replyOf call answer = .outcome .new := by
  cases call with
  | checkOrInsert claimed claimer =>
    right
    cases phase with
    | unclaimed =>
      obtain ⟨isResolved, rfl⟩ := allowed
      cases answer with
      | new =>
        cases holding
        exact ⟨rfl, isResolved, rfl⟩
      | conflict _ | replay _ _ _ _ => cases holding
    | holding _ | settled => cases allowed
  | complete _ _ _ _ _ | remove _ => cases holding
  | interceptRequest _ _ _ _ | dispatchRequestInfo _ | dispatchTerminalEvent _ _ | dispatchPayload _ _
  | writeResponseHeader _ | writeResponseBody _ | handleAdmin | handleWebsocketSubscription
  | recordTraffic _ | nowEpochMs => exact .inl ⟨holding, rfl⟩

/-- A request completes or gives back only the key it holds. -/
theorem KeyPhase.holding_of_settles {phase : KeyPhase} {resolved : Option String} {hlc : HlcTimestamp}
    {call : GatewayCall} {operation : Operation} (allowed : phase.allows resolved hlc call)
    (isOperation : call.operation? = some operation)
    (settles : ∀ key claimer, operation ≠ .checkOrInsert key claimer) :
    phase = .holding operation.key := by
  cases call with
  | checkOrInsert key claimer =>
    cases isOperation
    exact absurd rfl (settles key claimer)
  | complete key completer statusCode headers body =>
    cases isOperation
    cases phase with
    | holding held => exact congrArg _ allowed.1.symm
    | unclaimed | settled => cases allowed
  | remove key =>
    cases isOperation
    cases phase with
    | holding held => exact congrArg _ allowed.symm
    | unclaimed | settled => cases allowed
  | interceptRequest _ _ _ _ | dispatchRequestInfo _ | dispatchTerminalEvent _ _ | dispatchPayload _ _
  | writeResponseHeader _ | writeResponseBody _ | handleAdmin | handleWebsocketSubscription
  | recordTraffic _ | nowEpochMs => cases isOperation

/-- A request claims only the key it resolves to, with its own timestamp. -/
theorem KeyPhase.resolved_of_claims {phase : KeyPhase} {resolved : Option String}
    {hlc claimer : HlcTimestamp} {key : String}
    (allowed : phase.allows resolved hlc (.checkOrInsert key claimer)) :
    phase = .unclaimed ∧ resolved = some key ∧ claimer = hlc := by
  cases phase with
  | unclaimed => exact ⟨rfl, allowed⟩
  | holding _ | settled => cases allowed

/-- The key that a request holds is the one that it resolves to. -/
theorem key_of_holding (reaches : (gatewaySystem step event proxy visits).Reaches shared config)
    {thread : ι} {key : String} (holding : keyPhase thread config.moment.history = .holding key) :
    (visits thread).key proxy = some key := by
  induction reaches with
  | initial => simp [System.initial] at holding
  | @step config config' label earlier step inductionHypothesis =>
    rw [step.history_eq, keyPhase_append] at holding
    by_cases mine : label.thread? = some thread
    · cases label with
      | start _ | finish _ _ => exact inductionHypothesis holding
      | environment _ => cases mine
      | perform other event =>
        obtain ⟨call, answer⟩ := event
        simp only [Label.thread?, Option.some.injEq] at mine
        subst mine
        simp only [Automaton.follow, if_true] at holding
        rcases KeyPhase.holding_of_next (allowed_of_step earlier step) holding with
          ⟨held, -⟩ | ⟨-, isResolved, -⟩
        · exact inductionHypothesis held
        · exact isResolved
    · rw [Automaton.follow_other _ _ mine] at holding
      exact inductionHypothesis holding

/-- An operation of any request is on the key that the request resolves to. -/
theorem key_of_operation (reaches : (gatewaySystem step event proxy visits).Reaches shared config)
    {thread : ι} {call : GatewayCall} {answer : call.Answer} {operation : Operation}
    (taken : (gatewaySystem step event proxy visits).Step config (.perform thread ⟨call, answer⟩)
      config') (isOperation : call.operation? = some operation) :
    (visits thread).key proxy = some operation.key := by
  have allowed := allowed_of_step reaches taken
  by_cases settles : ∀ key claimer, operation ≠ .checkOrInsert key claimer
  · exact key_of_holding reaches (KeyPhase.holding_of_settles allowed isOperation settles)
  · simp only [not_forall, not_not] at settles
    obtain ⟨key, claimer, rfl⟩ := settles
    cases call with
    | checkOrInsert _ _ =>
      cases isOperation
      exact (KeyPhase.resolved_of_claims allowed).2.1
    | _ => cases isOperation

/-! ## What a step does to the engine -/

/-- A step is an operation of a request, an event of the engine, or none of its business. -/
theorem engine_of_step {label : GatewayLabel ι ε}
    (taken : (gatewaySystem step event proxy visits).Step config label config') :
    (∃ thread call answer operation, label = .perform thread ⟨call, answer⟩ ∧
      call.operation? = some operation ∧
      step operation config.moment.shared (replyOf call answer) config'.moment.shared) ∨
    (∃ happened, label = .environment happened ∧
      event happened config.moment.shared config'.moment.shared) ∨
    (∀ thread call answer, label = .perform thread ⟨call, answer⟩ → Aside call) ∧
      config'.moment.shared = config.moment.shared := by
  cases taken with
  | start _ | finish _ =>
    refine .inr (.inr ⟨?_, rfl⟩)
    rintro _ _ _ ⟨⟩
  | environment effect => exact .inr (.inl ⟨_, rfl, effect⟩)
  | @perform thread call next answer shared running effect =>
    have effect := And.right effect
    cases isOperation : call.operation? with
    | none =>
      rw [isOperation] at effect
      refine .inr (.inr ⟨?_, effect⟩)
      rintro _ _ _ ⟨⟩
      exact isOperation
    | some operation =>
      rw [isOperation] at effect
      exact .inl ⟨thread, call, answer, operation, rfl, isOperation, effect⟩

end System

/-! ## Requests over either backend -/

section Engine

variable {ι : Type}

/-- Requests over either backend, with records that expire or are evicted. -/
abbrev engineSystem (backend : IdempotencyBackend) (proxy : CompositeServiceProxy)
    (visits : ι → Visit) : System gatewaySignature ι String backend.State Unit :=
  gatewaySystem backend.Step backend.Expires proxy visits

/-- The answer to a call, from the reply of the engine. -/
def answerFrom : (call : GatewayCall) → Reply → Option call.Answer
  | .checkOrInsert _ _, .outcome outcome => some outcome
  | .complete _ _ _ _ _, .done => some ()
  | .remove _, .done => some ()
  | _, _ => none

theorem replyOf_answerFrom {call : GatewayCall} {reply : Reply} {answer : call.Answer}
    (answered : answerFrom call reply = some answer) : replyOf call answer = reply := by
  cases call with
  | checkOrInsert _ _ =>
    cases reply with
    | outcome outcome =>
      cases answered
      rfl
    | done => cases answered
  | complete _ _ _ _ _ | remove _ =>
    cases reply with
    | outcome outcome => cases answered
    | done => rfl
  | _ => cases reply <;> cases answered

/-- The answers of everything but the engine, to requests for which all goes well. -/
def asideAnswer (nowSecs : Nat) : (call : GatewayCall) → Option call.Answer
  | .interceptRequest pipeline context parts body =>
    some (RequestInterceptorPipeline.interceptRequest pipeline context parts body).1
  | .dispatchRequestInfo _ => some true
  | .dispatchTerminalEvent _ _ => some true
  | .dispatchPayload _ _ => some true
  | .writeResponseHeader _ => some true
  | .writeResponseBody _ => some true
  | .handleAdmin => some (.ok ())
  | .handleWebsocketSubscription => some (.ok ())
  | .recordTraffic _ => some ()
  | .nowEpochMs => some (nowSecs * 1000)
  | .checkOrInsert _ _ | .complete _ _ _ _ _ | .remove _ => none

theorem isVerdict_asideAnswer {nowSecs : Nat} {call : GatewayCall} {answer : call.Answer}
    (answered : asideAnswer nowSecs call = some answer) : IsVerdict ⟨call, answer⟩ := by
  cases call with
  | interceptRequest pipeline context parts body =>
    cases answered
    rfl
  | _ => trivial

def memoryReply (backend : MemoryBackend) (nowSecs : Nat) (operation : Operation)
    (state : (IdempotencyBackend.memory backend).State) :
    Reply × (IdempotencyBackend.memory backend).State :=
  ((MemoryState.step backend nowSecs operation state.val).1,
    ⟨(MemoryState.step backend nowSecs operation state.val).2,
      MemoryState.unlocked_step state.property operation⟩)

def memoryAnswer (backend : MemoryBackend) (nowSecs : Nat) (call : GatewayCall)
    (state : (IdempotencyBackend.memory backend).State) :
    Option (call.Answer × (IdempotencyBackend.memory backend).State) :=
  match call.operation? with
  | some operation =>
    (answerFrom call (memoryReply backend nowSecs operation state).1).map fun answer =>
      (answer, (memoryReply backend nowSecs operation state).2)
  | none => (asideAnswer nowSecs call).map fun answer => (answer, state)

/-- Runs of requests on the memory backend, each call at a given clock reading. -/
def requestScheduler (backend : MemoryBackend) (proxy : CompositeServiceProxy) (visits : ι → Visit) :
    Scheduler (engineSystem (.memory backend) proxy visits) Nat where
  answer := fun nowSecs _ => memoryAnswer backend nowSecs
  event := fun _ _ => none
  answer_sound := by
    intro nowSecs thread call before result answered
    cases isOperation : call.operation? with
    | none =>
      simp only [memoryAnswer, isOperation] at answered
      obtain ⟨answer, isAnswer, rfl⟩ := Option.map_eq_some_iff.mp answered
      refine ⟨isVerdict_asideAnswer isAnswer, ?_⟩
      rw [isOperation]
    | some operation =>
      simp only [memoryAnswer, isOperation] at answered
      obtain ⟨answer, isAnswer, rfl⟩ := Option.map_eq_some_iff.mp answered
      refine ⟨?_, ?_⟩
      · cases call <;> trivial
      · rw [isOperation, replyOf_answerFrom isAnswer]
        exact ⟨nowSecs, rfl⟩
  event_sound := fun _ _ _ impossible => nomatch impossible

end Engine

def plainBackend : MemoryBackend := ⟨300, 1000, fun key => .ofNat key.length, by decide⟩

end SpectraGQL.Gateway
