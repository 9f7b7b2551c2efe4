import SpectraGQL.Gateway.Publication

/-! # The course of a request

`Course` is the way that a request takes through the request filter; its content, the
configuration and the engine decide on it.  `takes_requestFilter` says for each course how the
filter ends and what it publishes, and `publications_serve` what is published of the request
as a whole.
-/

namespace SpectraGQL.Gateway

open Interaction SpectraGQL.Core SpectraGQL.Http SpectraGQL.Protocol SpectraGQL.Interceptors
open SpectraGQL.Telemetry SpectraGQL.Idempotency

/-! ## Courses -/

/-- The way of a request through the request filter. -/
inductive Course where
  /-- There is no service for the request. -/
  | unrouted
  | edge
  | keyTaken (found : KeyState)
  | unread
  | undecoded
  | rejected (info : RequestInfo) (rejection : InterceptorRejection)
  | fingerprintTaken (info : RequestInfo) (found : KeyState)
  | disabled (info : RequestInfo) (route : SpectraRouteConfig)
  | command (info : RequestInfo) (route : SpectraRouteConfig)
  | forwarded (info : RequestInfo) (policy : ModeADispatchPolicy)

/-- A key decides by what the engine holds under it. -/
def keyCourse (engine : Engine) (key : Option String) (taken : KeyState → Course) (free : Course) :
    Course :=
  match key.bind engine with
  | some found => taken found
  | none => free

/-- The route decides on an accepted request. -/
def routeCourse (dynamic : DynamicGatewayState) (policy : ModeADispatchPolicy) (info : RequestInfo) :
    Course :=
  match StrategyRouter.matchRoute dynamic.routes info with
  | none => .forwarded info policy
  | some route =>
    if !route.enabled then .disabled info route
    else if route.mode.isAsyncEdgeCommand then .command info route
    else .forwarded info (route.dispatchPolicy.getD policy)

/-- The pipeline and the key decide on a decoded request. -/
def decodedCourse (proxy : CompositeServiceProxy) (dynamic : DynamicGatewayState) (engine : Engine)
    (exchange : Exchange) (info : RequestInfo) (body : String) : Course :=
  match pipelineVerdict dynamic (stampRequest exchange) info body with
  | .reject rejection => .rejected info rejection
  | .pass | .transform _ _ | .audit _ _ _ =>
    keyCourse engine (resolvedKey proxy dynamic exchange) (.fingerprintTaken info)
      (routeCourse dynamic exchange.ctx.dispatchPolicy info)

/-- The body decides on a request whose own key, if it brings one, is free. -/
def bodyCourse (proxy : CompositeServiceProxy) (dynamic : DynamicGatewayState) (engine : Engine)
    (exchange : Exchange) : Course :=
  match bodyRead exchange with
  | .complete buffer =>
    match decodeBody proxy (examined exchange buffer) with
    | some (body, info) => decodedCourse proxy dynamic engine exchange info body
    | none => .undecoded
  | .failed _ _ => .unread
  | .tooLarge _ => .unread

/-- The course of a request that has come through the early filter. -/
def course (proxy : CompositeServiceProxy) (dynamic : DynamicGatewayState) (engine : Engine)
    (exchange : Exchange) : Course :=
  if isEdge proxy exchange.session.reqHeader then .edge
  else keyCourse engine (explicitKey exchange.session) .keyTaken
    (bodyCourse proxy dynamic engine exchange)

def Arrival.course (proxy : CompositeServiceProxy) (dynamic : DynamicGatewayState) (engine : Engine)
    (arrival : Arrival) : Course :=
  match earlyRequestFilter proxy dynamic (arrival.exchange dynamic) with
  | (.error _, _) => .unrouted
  | (.ok (), exchange) => Gateway.course proxy dynamic engine exchange

/-- The topic of a decoded request, within its app. -/
def operationTopic (dynamic : DynamicGatewayState) (exchange : Exchange) (info : RequestInfo) : String :=
  appTopic (appPrefix dynamic exchange.ctx.appId) (TopicResolver.resolveDispatchTopic info)

/-- An exchange as the logging phase finds it, when nothing is known of the request. -/
structure Blank (exchange : Exchange) : Prop where
  topic : exchange.ctx.requestTopic = "spectra"
  operation : exchange.ctx.activeOperation = none
  info : exchange.ctx.requestInfo = none

/-- An exchange whose request was decoded. -/
structure Known (dynamic : DynamicGatewayState) (exchange : Exchange) (info : RequestInfo)
    (body : String) (policy : ModeADispatchPolicy) (after : Exchange) : Prop where
  requestId : after.ctx.requestId = exchange.ctx.requestId
  hlc : after.ctx.hlc = exchange.ctx.hlc
  service : after.ctx.service.isSome
  method : after.session.reqHeader.method = .post
  clientIp : after.session.clientIp = exchange.session.clientIp
  notReplay : after.ctx.isReplay = false
  notModeB : after.ctx.isModeBTerminated = false
  topic : after.ctx.requestTopic = operationTopic dynamic exchange info
  request : after.ctx.requestInfo = some info
  isPolicy : after.ctx.dispatchPolicy = policy
  queryText : after.ctx.queryPreview = queryPreview info body
  variablesText : after.ctx.variablesPreview = variablesPreview info

/-- An exchange whose request was decoded, before there is a response. -/
structure Noted (dynamic : DynamicGatewayState) (exchange : Exchange) (info : RequestInfo)
    (body : String) (policy : ModeADispatchPolicy) (after : Exchange) : Prop
    extends Known dynamic exchange info body policy after where
  noParts : after.ctx.responseParts = none
  noBody : after.ctx.responseBody = none
  plain : after.ctx.hasResponseInterception = false

/-- The audit event of a rejection. -/
def auditPublication (exchange : Exchange) (info : RequestInfo) (rejection : InterceptorRejection)
    (timestamp : Nat) : Publication :=
  .payload (TopicResolver.rejectionTopic (toLowercase (info.operationName.getD "anonymous")))
    (rejectionPayload exchange info rejection timestamp)

/-- What a Mode A request publishes on its way upstream. -/
def ingressPublications (proxy : CompositeServiceProxy) (policy : ModeADispatchPolicy)
    (info : RequestInfo) : List Publication :=
  match policy with
  | .rawAudit => [.request (proxy.sanitize info)]
  | .responseOnly | .responseWithFailure | .none => []

/-- Whether the client takes the answer to a rejection, which comes after the claim, the
    evaluation of the pipeline and the release of the key. -/
def takesRejection (environment : Environment) (exchange : Exchange) : Bool :=
  let calls := 1 + 2 * (explicitKey exchange.session).toList.length
  environment.clientTakes calls && environment.clientTakes (calls + 1)

/-- How the request filter ends on a course, and what it has published. -/
inductive Ends (proxy : CompositeServiceProxy) (dynamic : DynamicGatewayState)
    (environment : Environment) (exchange : Exchange) :
    Course → Outcome → List Publication → Prop where
  | edge (result : Except PingoraError Bool) (answered : result ≠ .ok false) :
      Ends proxy dynamic environment exchange .edge ⟨result, exchange⟩ []
  | keyTaken (found : KeyState) :
      Ends proxy dynamic environment exchange (.keyTaken found)
        (endOfTaken (stampRequest exchange) found) []
  | unread (outcome : Outcome) (answered : outcome.result ≠ .ok false) (blank : Blank outcome.exchange) :
      Ends proxy dynamic environment exchange .unread outcome []
  | undecoded (after : Exchange) (blank : Blank after) :
      Ends proxy dynamic environment exchange .undecoded ⟨.ok false, after⟩ []
  | rejected (info : RequestInfo) (body : String) (rejection : InterceptorRejection) (after : Exchange)
      (noted : Noted dynamic exchange info body exchange.ctx.dispatchPolicy after) :
      Ends proxy dynamic environment exchange (.rejected info rejection) ⟨.ok true, after⟩
        (if takesRejection environment exchange then
          [auditPublication after info rejection environment.nowEpochMs] else [])
  | fingerprintTaken (info : RequestInfo) (body : String) (found : KeyState) (after : Exchange)
      (noted : Noted dynamic exchange info body exchange.ctx.dispatchPolicy after) :
      Ends proxy dynamic environment exchange (.fingerprintTaken info found) (endOfTaken after found) []
  | disabled (info : RequestInfo) (body : String) (route : SpectraRouteConfig) (after : Exchange)
      (noted : Noted dynamic exchange info body exchange.ctx.dispatchPolicy after) :
      Ends proxy dynamic environment exchange (.disabled info route) ⟨.ok true, after⟩ []
  | command (info : RequestInfo) (route : SpectraRouteConfig) (after : Exchange)
      (modeB : after.ctx.isModeBTerminated = true) :
      Ends proxy dynamic environment exchange (.command info route) ⟨.ok true, after⟩
        [.request (proxy.sanitize info)]
  | forwarded (info : RequestInfo) (body : String) (policy : ModeADispatchPolicy) (after : Exchange)
      (noted : Noted dynamic exchange info body policy after) :
      Ends proxy dynamic environment exchange (.forwarded info policy) ⟨.ok false, after⟩
        (ingressPublications proxy policy info)

/-- A program that ends a course, and publishes what the course does. -/
def Takes (proxy : CompositeServiceProxy) (dynamic : DynamicGatewayState) (environment : Environment)
    (exchange : Exchange) (course : Course) (program : GatewayProg Outcome) (world : World) : Prop :=
  ∃ published, Ends proxy dynamic environment exchange course (run environment program world).1 published ∧
    publications (run environment program world).2.trace = publications world.trace ++ published

section Stages

variable {proxy : CompositeServiceProxy} {dynamic : DynamicGatewayState} {environment : Environment}
  {world : World} {exchange current : Exchange} {info : RequestInfo} {body : String}
  {policy : ModeADispatchPolicy} {course : Course}

theorem Takes.of_returns {program : GatewayProg Outcome} {outcome : Outcome}
    {published : List Publication} (returns : program.Returns fun ended => ended = outcome)
    (ends : Ends proxy dynamic environment exchange course outcome published)
    (added : publications (run environment program world).2.trace =
      publications world.trace ++ published) :
    Takes proxy dynamic environment exchange course program world := by
  have ended : (run environment program world).1 = outcome := returns.interp (handle environment) world
  exact ⟨published, ended ▸ ends, added⟩

theorem Takes.of_discreet {program : GatewayProg Outcome}
    (ends : Ends proxy dynamic environment exchange course (run environment program world).1 [])
    (discreet : Prog.Only Discreet program) :
    Takes proxy dynamic environment exchange course program world :=
  ⟨[], ends, (publications_run_of_discreet environment world discreet).trans (List.append_nil _).symm⟩

/-- What is published before a program adds nothing to its course. -/
theorem Takes.after {earlier : World} {program whole : GatewayProg Outcome}
    (same : run environment whole earlier = run environment program world)
    (quiet : publications world.trace = publications earlier.trace)
    (takes : Takes proxy dynamic environment exchange course program world) :
    Takes proxy dynamic environment exchange course whole earlier := by
  obtain ⟨published, ends, added⟩ := takes
  refine ⟨published, ?_, ?_⟩
  · rw [same]
    exact ends
  · rw [same, added, quiet]

theorem Noted.setKey (noted : Noted dynamic exchange info body policy current) (key : Option String) :
    Noted dynamic exchange info body policy (current.setKey key) :=
  { noted with }

theorem Noted.accepted (noted : Noted dynamic exchange info body policy current) (text : String)
    (verdict : InterceptorVerdict) :
    Noted dynamic exchange info body policy (accepted current text verdict).1 := by
  cases verdict with
  | transform headers newBody => cases newBody <;> exact { noted with }
  | pass | audit _ _ _ | reject _ => exact { noted with }

/-! ### Routes -/

theorem takes_forward (noted : Noted dynamic exchange info body policy current) :
    Takes proxy dynamic environment exchange (.forwarded info policy) (forward proxy current info)
      world := by
  refine Takes.of_returns (forward_returns proxy current info) (.forwarded info body policy current noted) ?_
  unfold forward
  rw [run_bind, noted.isPolicy]
  cases policy with
  | rawAudit => exact publications_append ..
  | responseOnly | responseWithFailure | none => exact (List.append_nil _).symm

theorem takes_refuseDisabled
    (noted : Noted dynamic exchange info body exchange.ctx.dispatchPolicy current)
    (route : SpectraRouteConfig) :
    Takes proxy dynamic environment exchange (.disabled info route) (refuseDisabled current info route)
      world := by
  refine Takes.of_returns (refuseDisabled_returns current info route)
    (.disabled info body route current noted) ?_
  rw [publications_run_of_discreet _ _
    ((onlyAnswers_refuseDisabled current info route).mono fun _ => IsAnswer.discreet)]
  exact (List.append_nil _).symm

theorem discreet_settleKey (ctx : ProxyCtx) (dispatchOk : Bool) (body : String) :
    Prog.Only Discreet (StrategyRouter.settleKey ctx dispatchOk body) := by
  unfold StrategyRouter.settleKey
  split
  · exact Prog.Only.ret _
  · split
    · exact Prog.Only.perform rfl
    · exact Prog.Only.perform rfl

theorem takes_command (current : Exchange) (info : RequestInfo) (route : SpectraRouteConfig) :
    Takes proxy dynamic environment exchange (.command info route)
      (do
        let exchange ← StrategyRouter.handleModeBEdge proxy current route info
        recordTrafficEvent exchange
          { operationName := info.operationName, operationType := "Mutation"
            mode := "Async (Receipt)", statusCode := 200, receiptStatus := some route.receiptStatus
            target := "NATS: " ++ exchange.ctx.requestTopic }
        return ⟨.ok true, exchange⟩) world := by
  -- after the notice to the broker nothing more is published
  have rest : ∀ dispatchOk : Bool, Prog.Only Discreet (do
      StrategyRouter.settleKey current.ctx dispatchOk
        (StrategyRouter.receiptBody current.ctx route info dispatchOk)
      let _ ← writeResponse (StrategyRouter.receiptHeader current.ctx
        (StrategyRouter.receiptBody current.ctx route info dispatchOk) dispatchOk)
        (StrategyRouter.receiptBody current.ctx route info dispatchOk)
      return { current with ctx := { current.ctx with isModeBTerminated := true } }) := fun dispatchOk =>
    Prog.Only.bind (discreet_settleKey ..) fun _ =>
      Prog.Only.bind ((onlyAnswers_writeResponse _ _).mono fun _ => IsAnswer.discreet) fun _ =>
        Prog.Only.ret _
  have terminated := handleModeBEdge_returns proxy current route info
  refine Takes.of_returns
    (terminated.bind fun after same => (Prog.returns_true _).bind fun _ _ => Prog.Returns.ret (by rw [same]))
    (.command info route _ rfl) ?_
  rw [run_bind, run_bind]
  refine (publications_append ..).trans ?_
  rw [show (GatewayCall.recordTraffic _).publication?.toList = [] from rfl, List.append_nil]
  unfold StrategyRouter.handleModeBEdge
  rw [run_bind]
  refine (publications_run_of_discreet _ _ (rest _)).trans ?_
  exact publications_append ..

theorem takes_routeRequest
    (noted : Noted dynamic exchange info body exchange.ctx.dispatchPolicy current) :
    Takes proxy dynamic environment exchange (routeCourse dynamic exchange.ctx.dispatchPolicy info)
      (routeRequest proxy dynamic current info) world := by
  unfold routeCourse routeRequest
  cases StrategyRouter.matchRoute dynamic.routes info with
  | none => exact takes_forward noted
  | some route =>
    dsimp only
    split
    · exact takes_refuseDisabled noted route
    · split
      · exact takes_command current info route
      · have overridden : (overrideRoute dynamic current route).ctx.dispatchPolicy =
            route.dispatchPolicy.getD exchange.ctx.dispatchPolicy := by
          rw [← noted.isPolicy]
          rfl
        exact takes_forward { noted with isPolicy := overridden }

/-! ### Keys -/

theorem discreet_claim (key : String) (shownKey : Option String) (mode : String)
    (operationName : Option String) :
    Prog.Only Discreet (claim current key shownKey mode operationName) := by
  refine Prog.Only.bind (Prog.Only.bind (Prog.Only.perform rfl) fun outcome => ?_) fun result => ?_
  · exact (onlyAnswers_answerClaim ..).mono fun _ => IsAnswer.discreet
  · exact (onlyAnswers_afterClaim ..).mono fun _ => IsAnswer.discreet

theorem publications_lock (key : String) (hlc : HlcTimestamp) :
    publications (world.lock key hlc).trace = publications world.trace :=
  (publications_append ..).trans (List.append_nil _)

/-- A program that claims a key first, and finds it taken. -/
theorem takes_claim_of_taken {key : String} {shownKey : Option String} {mode : String}
    {operationName : Option String} {found : KeyState} {rest : Exchange → GatewayProg Outcome}
    (taken : world.engine key = some found)
    (ends : Ends proxy dynamic environment exchange course (endOfTaken current found) []) :
    Takes proxy dynamic environment exchange course
      (Stage.andThen (claim current key shownKey mode operationName) rest) world := by
  have ran := @run_andThen_of_done environment world _ _ rest _
    (@run_claim_of_taken environment world current key shownKey mode operationName found taken)
  refine ⟨[], ?_, ?_⟩
  · rw [ran]
    exact ends
  · rw [ran, List.append_nil]
    exact publications_run_of_discreet _ _ (discreet_claim ..)

/-- A program that claims a key first, and gets it. -/
theorem takes_claim_of_free {key : String} {shownKey : Option String} {mode : String}
    {operationName : Option String} {rest : Exchange → GatewayProg Outcome}
    (free : world.engine key = none)
    (takes : Takes proxy dynamic environment exchange course (rest (current.setKey (some key)))
      (world.lock key current.ctx.hlc)) :
    Takes proxy dynamic environment exchange course
      (Stage.andThen (claim current key shownKey mode operationName) rest) world := by
  refine takes.after ?_ (publications_lock key current.ctx.hlc)
  rw [run_andThen, run_claim_of_free free]

/-- The stages after the pipeline, for the key that a mutation gets for its fingerprint. -/
theorem takes_afterPipeline {request : Exchange × String}
    (noted : Noted dynamic exchange info body exchange.ctx.dispatchPolicy request.1) :
    Takes proxy dynamic environment exchange
      (keyCourse world.engine
        (if needsFingerprint request.1 info then some (fingerprint proxy request.1 info request.2) else none)
        (.fingerprintTaken info) (routeCourse dynamic exchange.ctx.dispatchPolicy info))
      (afterPipeline proxy dynamic info request) world := by
  unfold afterPipeline keyCourse
  rw [claimFingerprint_eq]
  cases needsFingerprint request.1 info with
  | false => exact takes_routeRequest noted
  | true =>
    simp only [if_true, Option.bind_some]
    cases stored : world.engine (fingerprint proxy request.1 info request.2) with
    | some found => exact takes_claim_of_taken stored (.fingerprintTaken info body found request.1 noted)
    | none => exact takes_claim_of_free stored (takes_routeRequest (noted.setKey _))

/-! ### The pipeline -/

theorem publications_of_evaluations {events : List (Event gatewaySignature)}
    (evaluations : ∀ event ∈ events, IsEvaluation event.call) (trace : List (Event gatewaySignature)) :
    publications (trace ++ events) = publications trace := by
  unfold publications
  rw [List.filterMap_append, List.append_right_eq_self, List.filterMap_eq_nil_iff]
  intro event member
  obtain ⟨pipeline, context, parts, text, isCall⟩ := evaluations event member
  rw [isCall]
  rfl

theorem length_releaseKey (ctx : ProxyCtx) :
    (run environment (releaseKey ctx) world).2.trace.length =
      world.trace.length + ctx.idempotencyKey.toList.length := by
  unfold releaseKey
  cases ctx.idempotencyKey with
  | none => rfl
  | some key => exact List.length_append

/-- A rejection is audited once the client has got it. -/
theorem takes_rejectRequest
    (noted : Noted dynamic exchange info body exchange.ctx.dispatchPolicy current)
    (rejection : InterceptorRejection)
    (calls : world.trace.length + current.ctx.idempotencyKey.toList.length =
      1 + 2 * (explicitKey exchange.session).toList.length) :
    Takes proxy dynamic environment exchange (.rejected info rejection)
      (rejectRequest current info rejection) world := by
  have released := publications_run_of_discreet environment world (discreet_releaseKey current.ctx)
  have wrote := fun header body world => publications_run_of_discreet environment world
    ((onlyAnswers_writeResponse header body).mono fun _ => IsAnswer.discreet)
  have length := (@length_releaseKey environment world current.ctx).trans calls
  refine Takes.of_returns (rejectRequest_returns current info rejection)
    (.rejected info body rejection (current.setKey none) (noted.setKey none)) ?_
  unfold rejectRequest takesRejection
  rw [run_bind, ← released, ← length]
  generalize (run environment (releaseKey current.ctx) world).2 = after
  unfold answerRejection
  dsimp only
  rw [run_bind, run_writeResponse_result]
  split
  · rw [run_bind, run_bind, run_bind]
    refine (publications_append ..).trans ?_
    rw [show (GatewayCall.recordTraffic _).publication?.toList = [] from rfl, List.append_nil]
    refine (publications_append ..).trans ?_
    rw [← wrote _ _ after]
    exact congrArg (· ++ _) ((publications_append ..).trans (List.append_nil _))
  · exact (wrote _ _ after).trans (List.append_nil _).symm

/-- The stages that follow a successful decoding; `engine` is as the request has found it. -/
theorem takes_filterDecoded (engine : Engine)
    (noted : Noted dynamic exchange info body exchange.ctx.dispatchPolicy
      (noteRequest dynamic current info body))
    (sameVerdict : pipelineVerdict dynamic current info body =
      pipelineVerdict dynamic (stampRequest exchange) info body)
    (sameKey : (pipelineVerdict dynamic (stampRequest exchange) info body).isReject = false →
      (if needsFingerprint current info then some (fingerprintKey proxy.crates
        (fingerprintText dynamic exchange info body)) else none).bind world.engine =
        (resolvedKey proxy dynamic exchange).bind engine)
    (session : current.session = (stampRequest exchange).session)
    (calls : world.trace.length + current.ctx.idempotencyKey.toList.length =
      2 * (explicitKey exchange.session).toList.length) :
    Takes proxy dynamic environment exchange (decodedCourse proxy dynamic engine exchange info body)
      (filterDecoded proxy dynamic current info body) world := by
  have goesOn : (pipelineVerdict dynamic (stampRequest exchange) info body).isReject = false →
      Takes proxy dynamic environment exchange
        (keyCourse engine (resolvedKey proxy dynamic exchange) (.fingerprintTaken info)
          (routeCourse dynamic exchange.ctx.dispatchPolicy info))
        (filterDecoded proxy dynamic current info body) world := by
    intro accepts
    -- the pipeline publishes nothing, so the course begins after it
    obtain ⟨events, evaluations, -, ran⟩ := run_filterDecoded environment world proxy (sameVerdict ▸ accepts)
    refine Takes.after ran (publications_of_evaluations evaluations _) ?_
    have piped := @takes_afterPipeline proxy dynamic environment ⟨world.engine, world.trace ++ events⟩
      exchange info body _ (noted.accepted body (pipelineVerdict dynamic current info body))
    unfold keyCourse at piped ⊢
    rw [needsFingerprint_accepted, fingerprint_noteRequest proxy session sameVerdict] at piped
    rw [← sameKey accepts]
    exact piped
  unfold decodedCourse
  generalize pipelineVerdict dynamic (stampRequest exchange) info body = verdict at goesOn sameVerdict ⊢
  cases verdict with
  | reject rejection =>
    obtain ⟨event, evaluation, ran⟩ := run_filterDecoded_of_reject environment world proxy sameVerdict
    refine Takes.after ran (publications_of_evaluations (List.forall_mem_singleton.mpr evaluation) _)
      (takes_rejectRequest noted rejection ?_)
    have length : (world.trace ++ [event]).length = world.trace.length + 1 := List.length_append
    have key : (noteRequest dynamic current info body).ctx.idempotencyKey = current.ctx.idempotencyKey := rfl
    rw [length, key, ← calls]
    omega
  | pass | transform _ _ | audit _ _ _ => exact goesOn rfl

/-! ### The body -/

/-- A request of which the gateway has seen nothing but the head, and no response. -/
structure Unseen (exchange : Exchange) : Prop extends Fresh exchange.ctx.hlc exchange where
  noParts : exchange.ctx.responseParts = none
  noBody : exchange.ctx.responseBody = none
  plain : exchange.ctx.hasResponseInterception = false

theorem Unseen.blank (unseen : Unseen exchange) : Blank exchange :=
  ⟨unseen.topic, unseen.operation, unseen.info⟩

theorem noted_noteRequest (unseen : Unseen exchange) (key : Option String) {buffer : Bytes}
    (read : bodyRead exchange = .complete buffer)
    (decodes : decodeBody proxy (examined exchange buffer) = some (body, info)) :
    Noted dynamic exchange info body exchange.ctx.dispatchPolicy
      (noteRequest dynamic (setBuffer ((stampRequest exchange).setKey key) buffer) info body) := by
  have post : exchange.session.reqHeader.method = .post :=
    @method_of_decodeBody proxy (stampRequest exchange) unseen.buffer buffer read _ decodes
  obtain ⟨-, -, service, hasService, -⟩ := decodeBody_eq_some decodes
  have served : exchange.ctx.service = some service := hasService
  exact
    { requestId := rfl
      hlc := rfl
      service := (congrArg Option.isSome served).trans rfl
      method := post
      clientIp := rfl
      notReplay := unseen.notReplay
      notModeB := unseen.notModeB
      topic := rfl
      request := rfl
      isPolicy := rfl
      queryText := rfl
      variablesText := rfl
      noParts := unseen.noParts
      noBody := unseen.noBody
      plain := unseen.plain }

theorem refusePayload_blank (blank : Blank current) :
    (refusePayload current).Returns fun outcome =>
      outcome.result ≠ .ok false ∧ Blank outcome.exchange := by
  refine (refusePayload_returns current).mono ?_
  rintro _ _ ⟨_, rfl⟩
  exact ⟨answered_true, blank.topic, blank.operation, blank.info⟩

theorem discreet_refusePayload (current : Exchange) : Prog.Only Discreet (refusePayload current) := by
  refine Prog.Only.bind ((onlyAnswers_writeResponse _ _).mono fun _ => IsAnswer.discreet) fun written => ?_
  split
  · cases current.ctx.idempotencyKey with
    | none => exact Prog.Only.ret _
    | some key => exact Prog.Only.bind (Prog.Only.perform rfl) fun _ => Prog.Only.ret _
  · exact Prog.Only.ret _

theorem takes_unread {program : GatewayProg Outcome}
    (refused : program.Returns fun outcome => outcome.result ≠ .ok false ∧ Blank outcome.exchange)
    (discreet : Prog.Only Discreet program) :
    Takes proxy dynamic environment exchange .unread program world := by
  obtain ⟨answered, blank⟩ := refused.interp (handle environment) world
  exact Takes.of_discreet (.unread _ answered blank) discreet

/-- From the body on; `engine` is as the request has found it. -/
theorem takes_filterExamined (unseen : Unseen exchange) (engine : Engine) (key : Option String)
    (sameKey : ∀ body info, decoded proxy exchange = some (body, info) →
      (pipelineVerdict dynamic (stampRequest exchange) info body).isReject = false →
      (if key.isNone && info.gql.any GraphQLRequestInfo.isMutation then some (fingerprintKey proxy.crates
        (fingerprintText dynamic exchange info body)) else none).bind world.engine =
        (resolvedKey proxy dynamic exchange).bind engine)
    (calls : world.trace.length + key.toList.length =
      2 * (explicitKey exchange.session).toList.length) :
    Takes proxy dynamic environment exchange (bodyCourse proxy dynamic engine exchange)
      (filterExamined proxy dynamic ((stampRequest exchange).setKey key)) world := by
  have inHand := inHand_setKey exchange key
  have blank : ∀ buffer, Blank (setBuffer ((stampRequest exchange).setKey key) buffer) := fun _ =>
    ⟨unseen.topic, unseen.operation, unseen.info⟩
  unfold bodyCourse
  -- a body is broken off, too large or there as a whole
  cases read : bodyRead exchange with
  | failed error buffer =>
    unfold filterExamined
    rw [readRequestBody_eq, inHand.bodyRead, read]
    refine takes_unread (Prog.Returns.ret ⟨?_, blank buffer⟩) (Prog.Only.ret _)
    intro impossible
    cases impossible
  | tooLarge buffer =>
    unfold filterExamined
    rw [readRequestBody_eq, inHand.bodyRead, read]
    dsimp only
    rw [andThen_bind]
    exact takes_unread ((refusePayload_blank (blank buffer)).bind fun _ refused => refused)
      (Prog.Only.bind (discreet_refusePayload _) fun _ => Prog.Only.ret _)
  | complete buffer =>
    rw [run_filterExamined_of_complete (inHand.bodyRead.trans read)]
    unfold filterBody
    rw [inHand.decodeBody]
    dsimp only
    cases decodes : decodeBody proxy (examined exchange buffer) with
    | none => exact Takes.of_discreet (.undecoded _ (blank buffer)) (Prog.Only.ret _)
    | some request =>
      obtain ⟨body, info⟩ := request
      have success : decoded proxy exchange = some (body, info) := (decoded_of_complete read).trans decodes
      exact takes_filterDecoded engine (noted_noteRequest unseen key read decodes)
        (inHand.pipelineVerdict dynamic buffer info body) (sameKey body info success) rfl calls

theorem stampRequest_eq_setKey (noKey : exchange.ctx.idempotencyKey = none) :
    stampRequest exchange = (stampRequest exchange).setKey none := by
  unfold Exchange.setKey
  rw [← noKey]
  rfl

/-- What the request filter does, for a request that it has seen nothing of. -/
theorem takes_requestFilter (unseen : Unseen exchange) (noKey : exchange.ctx.idempotencyKey = none)
    (first : world.trace = []) :
    Takes proxy dynamic environment exchange (Gateway.course proxy dynamic world.engine exchange)
      (requestFilter proxy dynamic exchange) world := by
  unfold Gateway.course
  cases edge : isEdge proxy exchange.session.reqHeader with
  | true =>
    obtain ⟨result, answered, ended⟩ := run_answerAtEdge_of_edge environment world edge
    refine ⟨[], ?_, ?_⟩
    · unfold requestFilter
      rw [run_andThen_of_done ended]
      exact .edge result answered
    · unfold requestFilter
      rw [run_andThen_of_done ended, List.append_nil]
      exact publications_run_of_discreet _ _
        ((edgeCalls_answerAtEdge proxy exchange).mono fun _ => IsEdgeCall.discreet)
  | false =>
    have resolved : ∀ key, explicitKey exchange.session = some key →
        resolvedKey proxy dynamic exchange = some key := by
      intro key given
      unfold resolvedKey
      rw [given]
      rfl
    unfold keyCourse
    cases given : explicitKey exchange.session with
    | none =>
      rw [requestFilter_of_no_key edge given, stampRequest_eq_setKey noKey]
      refine takes_filterExamined unseen world.engine none (fun body info success accepts => ?_) ?_
      · rw [resolvedKey_of_accepted success accepts, given]
        rfl
      · rw [first, given]
        rfl
    | some key =>
      rw [requestFilter_of_not_edge edge,
        claimExplicitKey_of_some ((explicitKey_stampRequest exchange).trans given)]
      simp only [Bool.false_eq_true, if_false, Option.bind_some]
      cases stored : world.engine key with
      | some found => exact takes_claim_of_taken stored (.keyTaken found)
      | none =>
        -- what the key was bound to is asked of the engine before the claim
        refine takes_claim_of_free stored ?_
        refine takes_filterExamined unseen world.engine (some key) (fun body info _ _ => ?_) ?_
        · rw [resolved key given]
          exact stored.symm
        · have length : (world.lock key exchange.ctx.hlc).trace.length = world.trace.length + 1 :=
            List.length_append
          rw [show (stampRequest exchange).ctx.hlc = exchange.ctx.hlc from rfl, length, first, given]
          rfl

end Stages

/-! ## The end of a request -/

section Concluded

variable {proxy : CompositeServiceProxy} {dynamic : DynamicGatewayState} {environment : Environment}
  {exchange before after : Exchange} {info : RequestInfo} {body : String}
  {policy : ModeADispatchPolicy}

/-- Nothing is published of a request that nothing is known of. -/
theorem Blank.loggedPublications (blank : Blank after) (error : Option PingoraError) :
    loggedPublications proxy after error = [] := by
  have noTopic : loggingTopic after.ctx (loggedRequest after) = none := by
    simp [loggingTopic, loggedRequest, blank.topic, blank.operation, blank.info, RequestInfo.new]
  unfold Gateway.loggedPublications
  rw [noTopic]
  simp

theorem Known.loggedPublications (known : Known dynamic exchange info body policy after)
    (error : Option PingoraError) :
    loggedPublications proxy after error =
      concludedPublications proxy after.ctx (operationTopic dynamic exchange info) info error := by
  have served : after.ctx.service.isNone = false := by
    rw [Option.isNone_eq_false_iff]
    exact known.service
  have isTopic : loggingTopic after.ctx (loggedRequest after) =
      some (operationTopic dynamic exchange info) := by
    have resolved : operationTopic dynamic exchange info ≠ "spectra" :=
      requestTopic_noteRequest dynamic exchange info body
    unfold loggingTopic
    rw [known.topic, if_neg resolved]
  have logged : loggedRequest after = info := by
    unfold loggedRequest
    rw [known.request]
    rfl
  unfold Gateway.loggedPublications
  rw [served, known.notReplay, known.notModeB, known.method, isTopic, logged]
  rfl

theorem Blank.of_core (core : after.ctx.core = before.ctx.core) (blank : Blank before) :
    Blank after where
  topic := (field_of_core ProxyCtx.requestTopic (fun _ => rfl) core).trans blank.topic
  operation := (field_of_core ProxyCtx.activeOperation (fun _ => rfl) core).trans blank.operation
  info := (field_of_core ProxyCtx.requestInfo (fun _ => rfl) core).trans blank.info

/-- What is known of a request does not depend on the response. -/
theorem Known.of_core (session : after.session = before.session)
    (core : after.ctx.core = before.ctx.core)
    (known : Known dynamic exchange info body policy before) :
    Known dynamic exchange info body policy after where
  requestId := (field_of_core ProxyCtx.requestId (fun _ => rfl) core).trans known.requestId
  hlc := (field_of_core ProxyCtx.hlc (fun _ => rfl) core).trans known.hlc
  service := by
    rw [field_of_core ProxyCtx.service (fun _ => rfl) core]
    exact known.service
  method := by
    rw [session]
    exact known.method
  clientIp := by
    rw [session]
    exact known.clientIp
  notReplay := (field_of_core ProxyCtx.isReplay (fun _ => rfl) core).trans known.notReplay
  notModeB := (field_of_core ProxyCtx.isModeBTerminated (fun _ => rfl) core).trans known.notModeB
  topic := (field_of_core ProxyCtx.requestTopic (fun _ => rfl) core).trans known.topic
  request := (field_of_core ProxyCtx.requestInfo (fun _ => rfl) core).trans known.request
  isPolicy := (field_of_core ProxyCtx.dispatchPolicy (fun _ => rfl) core).trans known.isPolicy
  queryText := (field_of_core ProxyCtx.queryPreview (fun _ => rfl) core).trans known.queryText
  variablesText := (field_of_core ProxyCtx.variablesPreview (fun _ => rfl) core).trans known.variablesText

end Concluded

/-- With which error a request ends, and its exchange then, when the request filter has ended
    with an outcome. -/
def concluded (proxy : CompositeServiceProxy) (dynamic : DynamicGatewayState)
    (environment : Environment) (arrival : Arrival) (filtered : Outcome × World) :
    Option PingoraError × Exchange :=
  match filtered.1.result with
  | .error error => (some error, filtered.1.exchange)
  | .ok true => (none, filtered.1.exchange)
  | .ok false => (run environment (proxyUpstream proxy dynamic filtered.1.exchange arrival.upstream
      arrival.elapsedMs) filtered.2).1

theorem publications_afterRequestFilter (proxy : CompositeServiceProxy) (dynamic : DynamicGatewayState)
    (environment : Environment) (arrival : Arrival) (filtered : Outcome × World) :
    publications (run environment (afterRequestFilter proxy dynamic arrival filtered.1) filtered.2).2.trace =
      publications filtered.2.trace ++
        loggedPublications proxy (concluded proxy dynamic environment arrival filtered).2
          (concluded proxy dynamic environment arrival filtered).1 := by
  obtain ⟨outcome, world⟩ := filtered
  unfold afterRequestFilter concluded
  dsimp only
  cases outcome.result with
  | error error => exact publications_logging ..
  | ok answered =>
    cases answered with
    | true => exact publications_logging ..
    | false =>
      dsimp only
      rw [run_bind, publications_logging, publications_run_of_discreet _ _ (discreet_proxyUpstream ..)]

/-- Where a request stands in the end, with the error that it has ended with. -/
def Arrival.concluded (proxy : CompositeServiceProxy) (dynamic : DynamicGatewayState)
    (environment : Environment) (engine : Engine) (arrival : Arrival) :
    Option PingoraError × Exchange :=
  Gateway.concluded proxy dynamic environment arrival
    (filtered proxy dynamic environment engine (admitted proxy dynamic arrival))

theorem unseen_earlyRequestFilter {proxy : CompositeServiceProxy} {dynamic : DynamicGatewayState}
    {arrival : Arrival} {result : Except PingoraError Unit} {exchange : Exchange}
    (early : earlyRequestFilter proxy dynamic (arrival.exchange dynamic) = (result, exchange)) :
    Unseen exchange := by
  obtain ⟨appId, addr, service, same⟩ := ctx_earlyRequestFilter early
  refine ⟨⟨rfl, ?_, ?_, ?_, ?_, ?_, ?_⟩, ?_, ?_, ?_⟩ <;> rw [same] <;> rfl

/-- All that is published of a request: what its course publishes, and what is logged of it. -/
theorem publications_serve (proxy : CompositeServiceProxy) (dynamic : DynamicGatewayState)
    (environment : Environment) (engine : Engine) (arrival : Arrival) :
    (arrival.course proxy dynamic engine = .unrouted ∧
      publications (run environment (serve proxy dynamic arrival) ⟨engine, []⟩).2.trace = []) ∨
    ∃ published,
      Ends proxy dynamic environment (admitted proxy dynamic arrival) (arrival.course proxy dynamic engine)
        (filtered proxy dynamic environment engine (admitted proxy dynamic arrival)).1 published ∧
      publications (run environment (serve proxy dynamic arrival) ⟨engine, []⟩).2.trace =
        published ++ loggedPublications proxy (arrival.concluded proxy dynamic environment engine).2
          (arrival.concluded proxy dynamic environment engine).1 := by
  unfold serve Arrival.course Arrival.concluded admitted
  -- a request that the early filter refuses is logged, and that is all
  cases early : earlyRequestFilter proxy dynamic (arrival.exchange dynamic) with
  | mk result exchange =>
    have unseen := unseen_earlyRequestFilter early
    cases result with
    | error error =>
      refine .inl ⟨rfl, ?_⟩
      dsimp only
      rw [publications_logging, unseen.blank.loggedPublications]
      rfl
    | ok _ =>
      refine .inr ?_
      obtain ⟨published, ends, added⟩ := @takes_requestFilter proxy dynamic environment ⟨engine, []⟩
        exchange unseen (fresh_earlyRequestFilter early).2 rfl
      refine ⟨published, ends, ?_⟩
      dsimp only
      rw [run_bind, publications_afterRequestFilter]
      exact congrArg (· ++ _) added

end SpectraGQL.Gateway
