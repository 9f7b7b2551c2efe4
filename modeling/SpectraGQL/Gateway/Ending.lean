import SpectraGQL.Gateway.Course

/-! # The last stage of a request

A request claims its key and evaluates its pipeline before it is decided how it is answered.
`exists_lastStage` runs the request filter as the one program that its course leads to, from
a world in which nothing has shown yet.
-/

namespace SpectraGQL.Gateway

open Interaction SpectraGQL.Core SpectraGQL.Http SpectraGQL.Protocol SpectraGQL.Interceptors
open SpectraGQL.Telemetry SpectraGQL.Idempotency

/-! ## Preparations -/

/-- A call that neither writes to the client nor goes on record. -/
def Unshown (call : GatewayCall) : Prop := ¬ IsAnswer call

/-- The number of calls before a command is committed. -/
def callsBeforeCommand (proxy : CompositeServiceProxy) (dynamic : DynamicGatewayState)
    (exchange : Exchange) (info : RequestInfo) : Nat :=
  (resolvedKey proxy dynamic exchange).toList.length + evaluationCalls dynamic info

/-- An exchange that is not answered yet. -/
structure Pending (exchange after : Exchange) : Prop where
  uri : after.session.reqHeader.uri = exchange.session.reqHeader.uri
  service : after.ctx.service = exchange.ctx.service
  noParts : after.ctx.responseParts = none
  notReplay : after.ctx.isReplay = false
  notModeB : after.ctx.isModeBTerminated = false

section Pending

variable {exchange current : Exchange}

theorem Unseen.pending (unseen : Unseen exchange) (key : Option String) :
    Pending exchange ((stampRequest exchange).setKey key) :=
  ⟨rfl, rfl, unseen.noParts, unseen.notReplay, unseen.notModeB⟩

theorem Pending.setKey (pending : Pending exchange current) (key : Option String) :
    Pending exchange (current.setKey key) :=
  { pending with }

theorem Pending.setBuffer (pending : Pending exchange current) (buffer : Bytes) :
    Pending exchange (setBuffer current buffer) :=
  { pending with }

theorem Pending.noteRequest (pending : Pending exchange current) (dynamic : DynamicGatewayState)
    (info : RequestInfo) (body : String) :
    Pending exchange (noteRequest dynamic current info body) :=
  { pending with }

theorem Pending.accepted (pending : Pending exchange current) (body : String)
    (verdict : InterceptorVerdict) : Pending exchange (accepted current body verdict).1 := by
  cases verdict with
  | transform headers newBody => cases newBody <;> exact { pending with }
  | pass | audit _ _ _ | reject _ => exact { pending with }

end Pending

/-! ## Last stages -/

/-- Mode B: the receipt goes on record. -/
def commitCommand (proxy : CompositeServiceProxy) (current : Exchange) (info : RequestInfo)
    (route : SpectraRouteConfig) : GatewayProg Outcome := do
  let exchange ← StrategyRouter.handleModeBEdge proxy current route info
  recordTrafficEvent exchange
    { operationName := info.operationName, operationType := "Mutation"
      mode := "Async (Receipt)", statusCode := 200, receiptStatus := some route.receiptStatus
      target := "NATS: " ++ exchange.ctx.requestTopic }
  return ⟨.ok true, exchange⟩

/-- The last stage of a request on each course, and the world that it begins in. -/
inductive LastStage (proxy : CompositeServiceProxy) (dynamic : DynamicGatewayState)
    (exchange : Exchange) : Course → GatewayProg Outcome → World → Prop where
  | keyTaken (found : KeyState) (current : Exchange) (key : String) (shownKey : Option String)
      (mode : String) (operationName : Option String) (rest : Exchange → GatewayProg Outcome)
      (before : World) (pending : Pending exchange current) (taken : before.engine key = some found) :
      LastStage proxy dynamic exchange (.keyTaken found)
        (Stage.andThen (claim current key shownKey mode operationName) rest) before
  | unread (error : PingoraError) (current : Exchange) (before : World)
      (pending : Pending exchange current) :
      LastStage proxy dynamic exchange .unread (.ret ⟨.error error, current⟩) before
  | tooLarge (current : Exchange) (before : World) (pending : Pending exchange current) :
      LastStage proxy dynamic exchange .unread (refusePayload current) before
  | undecoded (current : Exchange) (before : World) (pending : Pending exchange current) :
      LastStage proxy dynamic exchange .undecoded (.ret ⟨.ok false, current⟩) before
  | rejected (info : RequestInfo) (rejection : InterceptorRejection) (current : Exchange)
      (before : World) (pending : Pending exchange current)
      (calls : before.trace.length + current.ctx.idempotencyKey.toList.length =
        1 + 2 * (explicitKey exchange.session).toList.length) :
      LastStage proxy dynamic exchange (.rejected info rejection)
        (rejectRequest current info rejection) before
  | fingerprintTaken (info : RequestInfo) (found : KeyState) (current : Exchange) (key : String)
      (shownKey : Option String) (mode : String) (operationName : Option String)
      (rest : Exchange → GatewayProg Outcome) (before : World) (pending : Pending exchange current)
      (taken : before.engine key = some found) :
      LastStage proxy dynamic exchange (.fingerprintTaken info found)
        (Stage.andThen (claim current key shownKey mode operationName) rest) before
  | disabled (info : RequestInfo) (route : SpectraRouteConfig) (current : Exchange) (before : World)
      (pending : Pending exchange current) :
      LastStage proxy dynamic exchange (.disabled info route) (refuseDisabled current info route) before
  | command (info : RequestInfo) (route : SpectraRouteConfig) (current : Exchange) (before : World)
      (calls : before.trace.length = callsBeforeCommand proxy dynamic exchange info) :
      LastStage proxy dynamic exchange (.command info route) (commitCommand proxy current info route)
        before
  | forwarded (info : RequestInfo) (policy : ModeADispatchPolicy) (current : Exchange)
      (before : World) (pending : Pending exchange current) :
      LastStage proxy dynamic exchange (.forwarded info policy) (forward proxy current info) before

/-- A program that comes to the last stage of a course, and nothing has shown till then. -/
def ComesTo (proxy : CompositeServiceProxy) (dynamic : DynamicGatewayState) (environment : Environment)
    (exchange : Exchange) (course : Course) (program : GatewayProg Outcome) (world : World) : Prop :=
  ∃ last before events, LastStage proxy dynamic exchange course last before ∧
    before.trace = world.trace ++ events ∧ (∀ event ∈ events, Unshown event.call) ∧
    run environment program world = run environment last before

section ComesTo

variable {proxy : CompositeServiceProxy} {dynamic : DynamicGatewayState} {environment : Environment}
  {world : World} {exchange current : Exchange} {info : RequestInfo} {body : String}
  {policy : ModeADispatchPolicy} {course : Course}

theorem ComesTo.here {program : GatewayProg Outcome}
    (last : LastStage proxy dynamic exchange course program world) :
    ComesTo proxy dynamic environment exchange course program world :=
  ⟨program, world, [], last, (List.append_nil _).symm, fun _ member => absurd member List.not_mem_nil, rfl⟩

/-- Calls that do not show may come first. -/
theorem ComesTo.after {whole rest : GatewayProg Outcome} {later : World}
    {events : List (Event gatewaySignature)}
    (same : run environment whole world = run environment rest later)
    (added : later.trace = world.trace ++ events) (unshown : ∀ event ∈ events, Unshown event.call)
    (comes : ComesTo proxy dynamic environment exchange course rest later) :
    ComesTo proxy dynamic environment exchange course whole world := by
  obtain ⟨last, before, more, isLast, addedMore, moreUnshown, ran⟩ := comes
  refine ⟨last, before, events ++ more, isLast, ?_, ?_, same.trans ran⟩
  · rw [addedMore, added, List.append_assoc]
  · intro event member
    cases List.mem_append.mp member with
    | inl first => exact unshown event first
    | inr second => exact moreUnshown event second

theorem comesTo_routeRequest (pending : Pending exchange current)
    (calls : world.trace.length = callsBeforeCommand proxy dynamic exchange info) :
    ComesTo proxy dynamic environment exchange (routeCourse dynamic policy info)
      (routeRequest proxy dynamic current info) world := by
  unfold routeCourse routeRequest
  cases StrategyRouter.matchRoute dynamic.routes info with
  | none => exact .here (.forwarded info policy current world pending)
  | some route =>
    dsimp only
    split
    · exact .here (.disabled info route current world pending)
    · split
      · exact .here (.command info route current world calls)
      · exact .here (.forwarded info _ _ world { pending with })

theorem comesTo_claim_of_free {key : String} {shownKey : Option String} {mode : String}
    {operationName : Option String} {rest : Exchange → GatewayProg Outcome}
    (free : world.engine key = none)
    (comes : ComesTo proxy dynamic environment exchange course (rest (current.setKey (some key)))
      (world.lock key current.ctx.hlc)) :
    ComesTo proxy dynamic environment exchange course
      (Stage.andThen (claim current key shownKey mode operationName) rest) world := by
  refine comes.after ?_ rfl ?_
  · rw [run_andThen, run_claim_of_free free]
  · intro event member
    rw [List.mem_singleton.mp member]
    exact id

/-- The stages after the pipeline, for the key that a mutation gets for its fingerprint. -/
theorem comesTo_afterPipeline {request : Exchange × String} (pending : Pending exchange request.1)
    (calls : world.trace.length +
        (if needsFingerprint request.1 info then some (fingerprint proxy request.1 info request.2)
          else none).toList.length = callsBeforeCommand proxy dynamic exchange info) :
    ComesTo proxy dynamic environment exchange
      (keyCourse world.engine
        (if needsFingerprint request.1 info then some (fingerprint proxy request.1 info request.2) else none)
        (.fingerprintTaken info) (routeCourse dynamic policy info))
      (afterPipeline proxy dynamic info request) world := by
  unfold afterPipeline keyCourse
  rw [claimFingerprint_eq]
  cases needs : needsFingerprint request.1 info with
  | false =>
    simp only [needs, Bool.false_eq_true, if_false, Option.toList_none, List.length_nil, Nat.add_zero] at calls
    exact comesTo_routeRequest pending calls
  | true =>
    simp only [needs, if_true, Option.toList_some, List.length_singleton, Option.bind_some] at calls ⊢
    cases stored : world.engine (fingerprint proxy request.1 info request.2) with
    | some found =>
      exact .here (.fingerprintTaken info found request.1 _ none _ _ _ world pending stored)
    | none =>
      refine comesTo_claim_of_free stored (comesTo_routeRequest (pending.setKey _) ?_)
      rw [← calls]
      exact List.length_append

theorem unshown_of_evaluations {events : List (Event gatewaySignature)}
    (evaluations : ∀ event ∈ events, IsEvaluation event.call) :
    ∀ event ∈ events, Unshown event.call := by
  intro event member
  obtain ⟨pipeline, context, parts, text, isCall⟩ := evaluations event member
  rw [isCall]
  exact id

/-- The stages that follow a successful decoding; `engine` is as the request has found it. -/
theorem comesTo_filterDecoded (engine : Engine) (pending : Pending exchange current)
    (sameVerdict : pipelineVerdict dynamic current info body =
      pipelineVerdict dynamic (stampRequest exchange) info body)
    (session : current.session = (stampRequest exchange).session)
    (sameKey : (pipelineVerdict dynamic (stampRequest exchange) info body).isReject = false →
      (if needsFingerprint current info then some (fingerprintKey proxy.crates
        (fingerprintText dynamic exchange info body)) else none).bind world.engine =
        (resolvedKey proxy dynamic exchange).bind engine)
    (keyCalls : (pipelineVerdict dynamic (stampRequest exchange) info body).isReject = false →
      world.trace.length + (if needsFingerprint current info then some (fingerprintKey proxy.crates
        (fingerprintText dynamic exchange info body)) else none).toList.length =
        (resolvedKey proxy dynamic exchange).toList.length)
    (calls : world.trace.length + current.ctx.idempotencyKey.toList.length =
      2 * (explicitKey exchange.session).toList.length) :
    ComesTo proxy dynamic environment exchange (decodedCourse proxy dynamic engine exchange info body)
      (filterDecoded proxy dynamic current info body) world := by
  -- what every verdict but a rejection leads to
  have goesOn : (pipelineVerdict dynamic (stampRequest exchange) info body).isReject = false →
      ComesTo proxy dynamic environment exchange
        (keyCourse engine (resolvedKey proxy dynamic exchange) (.fingerprintTaken info)
          (routeCourse dynamic exchange.ctx.dispatchPolicy info))
        (filterDecoded proxy dynamic current info body) world := by
    intro accepts
    obtain ⟨events, evaluations, counted, ran⟩ :=
      run_filterDecoded environment world proxy (sameVerdict ▸ accepts)
    refine ComesTo.after ran rfl (unshown_of_evaluations evaluations) ?_
    have piped := @comesTo_afterPipeline proxy dynamic environment ⟨world.engine, world.trace ++ events⟩
      exchange info exchange.ctx.dispatchPolicy _ ((pending.noteRequest dynamic info body).accepted body
        (pipelineVerdict dynamic current info body))
    unfold keyCourse at piped ⊢
    rw [needsFingerprint_accepted, fingerprint_noteRequest proxy session sameVerdict] at piped
    rw [← sameKey accepts]
    refine piped ?_
    have length : (world.trace ++ events).length = world.trace.length + evaluationCalls dynamic info := by
      rw [List.length_append, counted]
    have needs : needsFingerprint (noteRequest dynamic current info body) info =
        needsFingerprint current info := rfl
    unfold callsBeforeCommand
    rw [length, needs, ← keyCalls accepts]
    omega
  unfold decodedCourse
  generalize pipelineVerdict dynamic (stampRequest exchange) info body = verdict at goesOn sameVerdict ⊢
  cases verdict with
  | reject rejection =>
    obtain ⟨event, evaluation, ran⟩ := run_filterDecoded_of_reject environment world proxy sameVerdict
    refine ComesTo.after ran rfl (unshown_of_evaluations (List.forall_mem_singleton.mpr evaluation))
      (.here (.rejected info rejection _ _ (pending.noteRequest dynamic info body) ?_))
    have length : (world.trace ++ [event]).length = world.trace.length + 1 := List.length_append
    have key : (noteRequest dynamic current info body).ctx.idempotencyKey = current.ctx.idempotencyKey := rfl
    rw [length, key, ← calls]
    omega
  | pass | transform _ _ | audit _ _ _ => exact goesOn rfl

/-- From the body on, with the key of the client's own choice, if there is one. -/
theorem comesTo_filterExamined (unseen : Unseen exchange) (engine : Engine)
    (sameEngine : ∀ fingerprint, explicitKey exchange.session = none →
      world.engine fingerprint = engine fingerprint)
    (free : (explicitKey exchange.session).bind engine = none)
    (calls : world.trace.length = (explicitKey exchange.session).toList.length) :
    ComesTo proxy dynamic environment exchange (bodyCourse proxy dynamic engine exchange)
      (filterExamined proxy dynamic ((stampRequest exchange).setKey (explicitKey exchange.session)))
      world := by
  have inHand := inHand_setKey exchange (explicitKey exchange.session)
  have pending := unseen.pending (explicitKey exchange.session)
  unfold bodyCourse
  cases read : bodyRead exchange with
  | failed error buffer =>
    unfold filterExamined
    rw [readRequestBody_eq, inHand.bodyRead, read]
    exact .here (.unread error _ world (pending.setBuffer buffer))
  | tooLarge buffer =>
    unfold filterExamined
    rw [readRequestBody_eq, inHand.bodyRead, read]
    have refuses : Stage.andThen
        (refusePayload (setBuffer ((stampRequest exchange).setKey (explicitKey exchange.session)) buffer) >>=
          fun outcome => .ret (.done outcome))
        (fun exchange => filterBody proxy dynamic exchange) =
        refusePayload (setBuffer ((stampRequest exchange).setKey (explicitKey exchange.session)) buffer) :=
      (Prog.bind_assoc ..).trans (Prog.bind_ret _)
    dsimp only
    rw [refuses]
    exact .here (.tooLarge _ world (pending.setBuffer buffer))
  | complete buffer =>
    rw [run_filterExamined_of_complete (inHand.bodyRead.trans read)]
    unfold filterBody
    rw [inHand.decodeBody]
    dsimp only
    cases decodes : decodeBody proxy (examined exchange buffer) with
    | none => exact .here (.undecoded _ world (pending.setBuffer buffer))
    | some request =>
      obtain ⟨body, info⟩ := request
      have success : decoded proxy exchange = some (body, info) := (decoded_of_complete read).trans decodes
      have resolved := fun accepts => @resolvedKey_of_accepted proxy dynamic exchange info body success accepts
      -- the key in hand is the client's, or else the fingerprint of a mutation
      refine comesTo_filterDecoded engine (pending.setBuffer buffer)
        (inHand.pipelineVerdict dynamic buffer info body) rfl (fun accepts => ?_) (fun accepts => ?_) ?_
      · rw [resolved accepts]
        cases given : explicitKey exchange.session with
        | none =>
          cases isMutation : info.gql.any GraphQLRequestInfo.isMutation with
          | false => simp [needsFingerprint, setBuffer, Exchange.setKey, isMutation]
          | true => simp [needsFingerprint, setBuffer, Exchange.setKey, isMutation, sameEngine _ given]
        | some key =>
          rw [given] at free
          simpa [needsFingerprint, setBuffer, Exchange.setKey] using free.symm
      · rw [resolved accepts, calls]
        cases explicitKey exchange.session with
        | none => simp [needsFingerprint, setBuffer, Exchange.setKey]
        | some key => simp [needsFingerprint, setBuffer, Exchange.setKey]
      · have own : (setBuffer ((stampRequest exchange).setKey (explicitKey exchange.session))
            buffer).ctx.idempotencyKey = explicitKey exchange.session := rfl
        rw [own, calls]
        omega

end ComesTo

/-- The last stage of every request that the edge lets through. -/
theorem exists_lastStage {proxy : CompositeServiceProxy} {dynamic : DynamicGatewayState}
    {environment : Environment} {exchange : Exchange} {engine : Engine} (unseen : Unseen exchange)
    (noKey : exchange.ctx.idempotencyKey = none)
    (notEdge : isEdge proxy exchange.session.reqHeader = false) :
    ComesTo proxy dynamic environment exchange (Gateway.course proxy dynamic engine exchange)
      (requestFilter proxy dynamic exchange) ⟨engine, []⟩ := by
  unfold Gateway.course keyCourse
  rw [if_neg (by simp [notEdge])]
  -- a key in the header is claimed before the body is looked at
  cases given : explicitKey exchange.session with
  | none =>
    have bare : stampRequest exchange = (stampRequest exchange).setKey (explicitKey exchange.session) := by
      rw [given]
      exact stampRequest_eq_setKey noKey
    rw [requestFilter_of_no_key notEdge given, bare]
    refine comesTo_filterExamined unseen engine (fun _ _ => rfl) ?_ ?_
    · rw [given]
      rfl
    · rw [given]
      rfl
  | some key =>
    rw [requestFilter_of_not_edge notEdge,
      claimExplicitKey_of_some ((explicitKey_stampRequest exchange).trans given)]
    simp only [Option.bind_some]
    cases stored : engine key with
    | some found =>
      exact .here (.keyTaken found _ key _ _ _ _ _
        ⟨rfl, rfl, unseen.noParts, unseen.notReplay, unseen.notModeB⟩ stored)
    | none =>
      refine comesTo_claim_of_free stored ?_
      rw [← given]
      refine comesTo_filterExamined unseen engine (fun _ absent => ?_) ?_ ?_
      · cases given.symm.trans absent
      · rw [given]
        exact stored
      · rw [given]
        rfl

end SpectraGQL.Gateway
