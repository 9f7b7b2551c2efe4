import SpectraGQL.Gateway.Stages

/-! # Which requests the interceptors see

`forwards_mediated_iff`: the requests that never reach the upstream without the verdict of
their interceptor pipeline are those that are answered first or whose body is decoded.
`replays_unrejected_iff`: the requests that are never answered from the idempotency cache
although their pipeline would reject them are those without a completed record under a key
of the client's own choice.
-/

namespace SpectraGQL.Gateway

open Interaction SpectraGQL.Core SpectraGQL.Http SpectraGQL.Protocol SpectraGQL.Interceptors
open SpectraGQL.Telemetry SpectraGQL.Idempotency

/-! ## Requests that are routed to a service -/

/-- The request has passed the early filter and has a service. -/
def Routed (proxy : CompositeServiceProxy) (dynamic : DynamicGatewayState) (arrival : Arrival)
    (exchange : Exchange) : Prop :=
  earlyRequestFilter proxy dynamic (arrival.exchange dynamic) = (.ok (), exchange) ∧
    exchange.ctx.service.isSome

section Routed

variable {proxy : CompositeServiceProxy} {dynamic : DynamicGatewayState} {arrival : Arrival}
  {exchange : Exchange}

theorem Routed.notEdgePath (routed : Routed proxy dynamic arrival exchange) :
    isEdgePath proxy exchange.session.reqHeader.uri.path = false := by
  obtain ⟨early, service⟩ := routed
  unfold earlyRequestFilter at early
  dsimp only at early
  split at early
  · -- a path at the edge gets no service
    cases early
    simp [Arrival.exchange, newCtx] at service
  · rename_i notEdge
    split at early
    · cases early
      exact Bool.eq_false_iff.mpr notEdge
    · cases early

theorem Routed.session (routed : Routed proxy dynamic arrival exchange) :
    exchange.session = arrival.session := by
  have early := routed.1
  unfold earlyRequestFilter at early
  dsimp only at early
  split at early
  · cases early
    rfl
  · split at early
    · cases early
      rfl
    · cases early

theorem Routed.isEdge_eq (routed : Routed proxy dynamic arrival exchange) :
    isEdge proxy exchange.session.reqHeader =
      isSubscriptionUpgrade proxy exchange.session.reqHeader := by
  simp [isEdge, routed.notEdgePath]

end Routed

/-! ## Mediation -/

/-- The interceptors that the gateway composes for a request. -/
def pipelineFor (proxy : CompositeServiceProxy) (dynamic : DynamicGatewayState)
    (exchange : Exchange) : RequestInterceptorPipeline :=
  dynamic.interceptorManager.getRequestPipeline
    ((decoded proxy exchange).bind fun request => request.2.operationName)

/-- The pipeline was evaluated on the head and the body of the request, and did not reject. -/
def Mediated (pipeline : RequestInterceptorPipeline) (exchange : Exchange)
    (trace : List (Event gatewaySignature)) : Prop :=
  ∃ (context : InterceptorContext) (body : String) (verdict : InterceptorVerdict),
    ⟨.interceptRequest pipeline context (stampRequest exchange).session.reqHeader body, verdict⟩ ∈
      trace ∧ bodyRead exchange = .complete (asBytes body) ∧ verdict.isReject = false

/-- The gateway answers the request before it examines the body, or it decodes the body. -/
def Inspected (proxy : CompositeServiceProxy) (engine : Engine) (exchange : Exchange) : Prop :=
  isSubscriptionUpgrade proxy exchange.session.reqHeader = true ∨
    (∃ key, explicitKey exchange.session = some key ∧ (engine key).isSome) ∨
    (∀ buffer, bodyRead exchange = .complete buffer →
      (decodeBody proxy (examined exchange buffer)).isSome)

section Mediation

variable {environment : Environment} {world : World} {proxy : CompositeServiceProxy}
  {dynamic : DynamicGatewayState} {exchange : Exchange}

theorem rejectRequest_result (info : RequestInfo) (rejection : InterceptorRejection) :
    (run environment (rejectRequest exchange info rejection) world).1.result = .ok true := by
  unfold rejectRequest answerRejection
  rw [run_bind]
  dsimp only
  rw [run_bind]
  split
  · iterate 3 rw [run_bind]
    rfl
  · rfl

/-- A stage that hands on after the pipeline has not seen a rejection. -/
theorem afterVerdict_forwards {info : RequestInfo} {body : String} {verdict : InterceptorVerdict}
    {rest : Exchange × String → GatewayProg Outcome}
    (forwarded : (run environment (Stage.andThen (afterVerdict exchange info body verdict) rest)
      world).1.result = .ok false) : verdict.isReject = false := by
  cases verdict with
  | reject rejection =>
    unfold afterVerdict Stage.andThen at forwarded
    rw [Prog.bind_assoc, run_bind] at forwarded
    simp [run_ret, rejectRequest_result] at forwarded
  | pass | transform _ _ | audit _ _ _ => rfl

/-- A decoded request that goes upstream has been through its pipeline. -/
theorem filterDecoded_mediated {info : RequestInfo} {body : String}
    (nonempty : dynamic.interceptorManager.getRequestPipeline info.operationName ≠ [])
    (forwarded : (run environment (filterDecoded proxy dynamic exchange info body) world).1.result =
      .ok false) :
    ∃ (context : InterceptorContext) (verdict : InterceptorVerdict), verdict.isReject = false ∧
      ⟨.interceptRequest (dynamic.interceptorManager.getRequestPipeline info.operationName) context
        exchange.session.reqHeader body, verdict⟩ ∈
      (run environment (filterDecoded proxy dynamic exchange info body) world).2.trace := by
  have composed : (dynamic.interceptorManager.getRequestPipeline info.operationName).isEmpty = false := by
    simpa using nonempty
  unfold filterDecoded runPipeline at forwarded ⊢
  simp only [composed, Bool.false_eq_true, if_false, andThen_bind] at forwarded ⊢
  rw [run_bind] at forwarded ⊢
  exact ⟨_, _, afterVerdict_forwards forwarded,
    mem_trace_run (List.mem_append_right world.trace (List.mem_singleton.mpr rfl)) _⟩

/-- The gateway has a request in hand when it looks at the body: the exchange of the request,
    with the headers it adds and perhaps a key. -/
structure InHand (exchange current : Exchange) : Prop where
  requestId : current.ctx.requestId = exchange.ctx.requestId
  hlc : current.ctx.hlc = exchange.ctx.hlc
  session : current.session = (stampRequest exchange).session
  bodyRead : bodyRead current = bodyRead exchange
  decodeBody : ∀ proxy buffer,
    decodeBody proxy (setBuffer current buffer) = decodeBody proxy (examined exchange buffer)

theorem inHand_stampRequest (exchange : Exchange) : InHand exchange (stampRequest exchange) :=
  ⟨rfl, rfl, rfl, rfl, fun _ _ => rfl⟩

theorem inHand_setKey (exchange : Exchange) (key : Option String) :
    InHand exchange ((stampRequest exchange).setKey key) :=
  ⟨rfl, rfl, rfl, rfl, fun _ _ => rfl⟩

/-- From the body on, a request cannot slip past its pipeline exactly when a body that is
    read to its end is decoded. -/
theorem filterExamined_mediated_iff {current : Exchange} (inHand : InHand exchange current)
    (nonempty : pipelineFor proxy dynamic exchange ≠ [])
    (unmediated : ∀ event ∈ world.trace, ∀ pipeline context parts body,
      event.call ≠ .interceptRequest pipeline context parts body) :
    ((run environment (filterExamined proxy dynamic current) world).1.result = .ok false →
      Mediated (pipelineFor proxy dynamic exchange) exchange
        (run environment (filterExamined proxy dynamic current) world).2.trace) ↔
    (∀ buffer, bodyRead exchange = .complete buffer →
      (decodeBody proxy (examined exchange buffer)).isSome) := by
  cases read : bodyRead exchange with
  | failed error buffer =>
    unfold filterExamined
    rw [readRequestBody_eq, inHand.bodyRead, read]
    simp [Stage.andThen, Stage.failed, run_ret]
  | tooLarge buffer =>
    unfold filterExamined
    rw [readRequestBody_eq, inHand.bodyRead, read]
    simp only [andThen_bind, run_bind, reduceCtorEq, false_implies, implies_true, iff_true]
    intro forwarded
    obtain ⟨key, answered⟩ : ∃ key, (run environment (refusePayload (setBuffer current buffer)) world).1 =
        ⟨.ok true, (setBuffer current buffer).setKey key⟩ :=
      (refusePayload_returns (setBuffer current buffer)).interp (handle environment) world
    rw [show Stage.andThen (.ret (.done _)) _ = Prog.ret _ from rfl, run_ret] at forwarded
    simp [answered] at forwarded
  | complete buffer =>
    rw [run_filterExamined_of_complete (inHand.bodyRead.trans read)]
    unfold filterBody
    rw [inHand.decodeBody]
    have same : pipelineFor proxy dynamic exchange = dynamic.interceptorManager.getRequestPipeline
        ((decodeBody proxy (examined exchange buffer)).bind fun request => request.2.operationName) := by
      simp only [pipelineFor, decoded, read]
    cases success : decodeBody proxy (examined exchange buffer) with
    | none =>
      -- the body goes upstream as it is, and nothing was evaluated
      simp only [BodyRead.complete.injEq, forall_eq', success, Option.isSome_none, Bool.false_eq_true,
        iff_false, Classical.not_imp]
      refine ⟨rfl, ?_⟩
      rintro ⟨context, body, verdict, member, -⟩
      exact unmediated _ member _ _ _ _ rfl
    | some request =>
      obtain ⟨body, info⟩ := request
      simp only [BodyRead.complete.injEq, forall_eq', success, Option.isSome_some, iff_true]
      intro forwarded
      rw [same, success] at nonempty ⊢
      obtain ⟨context, verdict, accepted, member⟩ := filterDecoded_mediated nonempty forwarded
      have text := (decodeBody_eq_some success).2.1
      refine ⟨context, body, verdict, ?_, ?_, accepted⟩
      · rw [← inHand.session]
        exact member
      · rw [read]
        exact congrArg BodyRead.complete text

end Mediation

/-! ## A small gateway -/

def payBody : String := "\x7b\"query\":\"mutation \x7b pay \x7d\"\x7d"

/-- The crates on the one request that the small gateway knows. -/
def smallCrates : Crates where
  fromStr text :=
    if text = payBody then some (.object [("query", .string "mutation \x7b pay \x7d")]) else none
  parse query :=
    if query = "mutation \x7b pay \x7d" then
      ⟨[], [.operationDefinition ⟨some ⟨false, true, false⟩, none, some [.field (some "pay")]⟩]⟩
    else ⟨["expected a definition"], []⟩
  sha256 _ := ""
  statusText _ := ""

def smallProxy : CompositeServiceProxy where
  crates := smallCrates
  sanitize := id
  serviceByPath path :=
    if path = "/graphql" then some ⟨.graphql [.mutation], "127.0.0.1:4000"⟩ else none
  adminPrefix := some "/admin"
  subscriptionsEnabled := true
  errorCapture := ⟨true, 4096⟩
  faviconSvg := ""

def smallDynamic (pipeline : RequestInterceptorPipeline) (routes : List SpectraRouteConfig) :
    DynamicGatewayState where
  namedUpstreams := []
  dispatchPolicy := .responseWithFailure
  routes := routes
  apps := []
  defaultApp := none
  interceptorManager := ⟨pipeline, [], [], []⟩
  errorCapture := ⟨true, 4096⟩

def denyAll : RequestInterceptor := fun context parts _ =>
  (.reject ⟨.unauthorized, "UNAUTHENTICATED", "Authentication required", none⟩, context, parts)

def passAll : RequestInterceptor := fun context parts _ => (.pass, context, parts)

def smallArrival (method : Method) (headers : HeaderMap) (body : String) : Arrival where
  requestId := "0190163d-8694-739b-aea5-966c26f8ad91"
  hlc := ⟨1000, 0⟩
  session := ⟨⟨method, ⟨"", "/graphql", none⟩, headers⟩, "10.0.0.1", [asBytes body], none⟩
  upstream := .response ⟨.ok, [("content-type", .ofString "application/json")]⟩
    [some (asBytes "\x7b\x7d")] none
  elapsedMs := 5

/-- A request after the early filter. -/
def admitted (proxy : CompositeServiceProxy) (dynamic : DynamicGatewayState) (arrival : Arrival) :
    Exchange :=
  (earlyRequestFilter proxy dynamic (arrival.exchange dynamic)).2

def obliging : Environment := ⟨fun _ => true, fun _ => true, .ok (), 0⟩

/-- The request phase of one request, with the engine as it finds it. -/
def filtered (proxy : CompositeServiceProxy) (dynamic : DynamicGatewayState)
    (environment : Environment) (engine : Engine) (exchange : Exchange) : Outcome × World :=
  run environment (requestFilter proxy dynamic exchange) ⟨engine, []⟩

/-- A request never goes upstream past its interceptors exactly when it is inspected. -/
theorem forwards_mediated_iff (proxy : CompositeServiceProxy) (dynamic : DynamicGatewayState)
    (environment : Environment) (engine : Engine) (arrival : Arrival) (exchange : Exchange)
    (routed : Routed proxy dynamic arrival exchange)
    (nonempty : pipelineFor proxy dynamic exchange ≠ []) :
    ((filtered proxy dynamic environment engine exchange).1.result = .ok false →
      Mediated (pipelineFor proxy dynamic exchange) exchange
        (filtered proxy dynamic environment engine exchange).2.trace) ↔
    Inspected proxy engine exchange := by
  unfold filtered
  -- an upgrade and a key in use are answered without the interceptors, and not forwarded
  cases upgrade : isSubscriptionUpgrade proxy exchange.session.reqHeader with
  | true =>
    have edge := routed.isEdge_eq.trans upgrade
    obtain ⟨result, notForwarded, ended⟩ := run_answerAtEdge_of_edge environment ⟨engine, []⟩ edge
    have answered : (run environment (requestFilter proxy dynamic exchange) ⟨engine, []⟩).1.result =
        result := by
      unfold requestFilter
      rw [run_andThen_of_done ended]
    exact iff_of_true (fun forwarded => absurd (answered.symm.trans forwarded) notForwarded)
      (.inl upgrade)
  | false =>
    have notEdge := routed.isEdge_eq.trans upgrade
    cases given : explicitKey exchange.session with
    | none =>
      rw [requestFilter_of_no_key notEdge given,
        filterExamined_mediated_iff (inHand_stampRequest exchange) nonempty (by simp)]
      simp [Inspected, upgrade, given]
    | some key =>
      cases stored : engine key with
      | some found =>
        rw [run_requestFilter_of_taken notEdge given stored]
        exact iff_of_true (fun forwarded => absurd forwarded (endOfTaken_result_ne found))
          (.inr (.inl ⟨key, given, by simp [stored]⟩))
      | none =>
        rw [run_requestFilter_of_free notEdge given stored,
          filterExamined_mediated_iff (inHand_setKey exchange (some key)) nonempty
            (by simp [World.lock])]
        simp [Inspected, upgrade, given, stored]

/-- The requests of the small gateway after the early filter. -/
abbrev smallPost (pipeline : RequestInterceptorPipeline) : Exchange :=
  admitted smallProxy (smallDynamic pipeline []) (smallArrival .post [] payBody)

theorem forwards_mediated_iff_post :
    Inspected smallProxy (fun _ => none) (smallPost [passAll]) ∧
      (filtered smallProxy (smallDynamic [passAll] []) obliging (fun _ => none)
        (smallPost [passAll])).1.result = .ok false ∧
      Mediated [passAll] (smallPost [passAll])
        (filtered smallProxy (smallDynamic [passAll] []) obliging (fun _ => none)
          (smallPost [passAll])).2.trace := by
  have inspected : Inspected smallProxy (fun _ => none) (smallPost [passAll]) := by
    refine .inr (.inr fun buffer read => ?_)
    cases read
    decide +kernel
  have forwarded : (filtered smallProxy (smallDynamic [passAll] []) obliging (fun _ => none)
      (smallPost [passAll])).1.result = .ok false := by rfl
  exact ⟨inspected, forwarded, (forwards_mediated_iff smallProxy (smallDynamic [passAll] []) obliging
    (fun _ => none) (smallArrival .post [] payBody) _ ⟨rfl, rfl⟩ (by decide)).mpr inspected forwarded⟩

abbrev bareGet : Exchange :=
  admitted smallProxy (smallDynamic [denyAll] []) (smallArrival .get [] "")

/-- A GET request goes upstream although every request is to be rejected. -/
theorem get_forwarded_unmediated :
    Routed smallProxy (smallDynamic [denyAll] []) (smallArrival .get [] "") bareGet ∧
      pipelineFor smallProxy (smallDynamic [denyAll] []) bareGet = [denyAll] ∧
      (filtered smallProxy (smallDynamic [denyAll] []) obliging (fun _ => none)
        bareGet).1.result = .ok false ∧
      ¬ Mediated [denyAll] bareGet
        (filtered smallProxy (smallDynamic [denyAll] []) obliging (fun _ => none) bareGet).2.trace := by
  have silent : (filtered smallProxy (smallDynamic [denyAll] []) obliging (fun _ => none)
      bareGet).2.trace = [] := rfl
  refine ⟨⟨rfl, rfl⟩, rfl, rfl, ?_⟩
  rintro ⟨context, body, verdict, member, -⟩
  rw [silent] at member
  exact absurd member List.not_mem_nil

/-! ## Replays -/

/-- The pipeline of the request would reject it. -/
def WouldReject (proxy : CompositeServiceProxy) (dynamic : DynamicGatewayState)
    (exchange : Exchange) : Prop :=
  ∃ body info, decoded proxy exchange = some (body, info) ∧
    (RequestInterceptorPipeline.interceptRequest
      (dynamic.interceptorManager.getRequestPipeline info.operationName)
      (interceptorContext exchange.ctx info) (stampRequest exchange).session.reqHeader
      body).1.isReject = true

/-- The client was sent the head of a replay. -/
def AnsweredByReplay (trace : List (Event gatewaySignature)) : Prop :=
  ∃ header answer, ⟨.writeResponseHeader header, answer⟩ ∈ trace ∧
    (header.headers.get replayHeader).isSome

/-- A completed record with a status that can be written. -/
def isReplayable : KeyState → Bool
  | .inProgress _ => false
  | .completed _ statusCode _ _ => (StatusCode.fromU16 statusCode).isSome

/-- A call that does not send the head of a replay. -/
def NotReplay : GatewayCall → Prop
  | .writeResponseHeader header => header.headers.get replayHeader = none
  | _ => True

theorem not_answeredByReplay {trace : List (Event gatewaySignature)}
    (none : ∀ event ∈ trace, NotReplay event.call) : ¬ AnsweredByReplay trace := by
  rintro ⟨header, answer, member, replay⟩
  have absent : header.headers.get replayHeader = .none := none _ member
  simp [absent] at replay

section Replay

variable {environment : Environment} {world : World} {proxy : CompositeServiceProxy}
  {dynamic : DynamicGatewayState} {exchange : Exchange}

theorem notReplay_perform {call : GatewayCall} (notReplay : NotReplay call) :
    Prog.Only NotReplay (Prog.perform (S := gatewaySignature) call) :=
  Prog.Only.perform notReplay

theorem notReplay_writeResponse {header : ResponseHeader}
    (absent : header.headers.get replayHeader = none) (body : String) :
    Prog.Only NotReplay (writeResponse header body) := by
  apply Prog.Only.bind (notReplay_perform (show NotReplay (.writeResponseHeader header) from absent))
  intro written
  split
  · exact notReplay_perform trivial
  · exact Prog.Only.ret _

theorem get_conflictHeader (requestId : RequestId) (hlc : HlcTimestamp) (body : String) :
    (IdempotencyFilter.conflictHeader requestId hlc body).headers.get replayHeader = none := by
  unfold IdempotencyFilter.conflictHeader ResponseHeader.insertHeader
  iterate 4 rw [HeaderMap.get_insertStr_of_ne (by decide)]
  rfl

theorem get_replayResponseHeader (requestId : RequestId) (hlc : HlcTimestamp) (status : StatusCode)
    (headers : List (String × String)) (body : String) :
    (IdempotencyFilter.replayResponseHeader requestId hlc status headers body).headers.get
      replayHeader = some (.ofString "true") := by
  unfold IdempotencyFilter.replayResponseHeader ResponseHeader.insertHeader
  iterate 2 rw [HeaderMap.get_insertStr_of_ne (by decide)]
  exact HeaderMap.get_insertStr_self ..

theorem notReplay_rejectRequest (info : RequestInfo) (rejection : InterceptorRejection) :
    Prog.Only NotReplay (rejectRequest exchange info rejection) := by
  have releases : Prog.Only NotReplay (releaseKey exchange.ctx) := by
    unfold releaseKey
    split
    · exact notReplay_perform trivial
    · exact Prog.Only.ret _
  refine Prog.Only.bind releases fun _ => ?_
  unfold answerRejection
  refine Prog.Only.bind (notReplay_writeResponse ?_ _) fun written => ?_
  · unfold ResponseHeader.insertHeader
    iterate 4 rw [HeaderMap.get_insertStr_of_ne (by decide)]
    rfl
  · split
    · exact Prog.Only.bind (notReplay_perform trivial) fun _ =>
        Prog.Only.bind (notReplay_perform trivial) fun _ =>
        Prog.Only.bind (notReplay_perform trivial) fun _ => Prog.Only.ret _
    · exact Prog.Only.ret _

theorem notReplay_afterClaim (exchange : Exchange) (mode : String) (operationName : Option String)
    (result : Except PingoraError IdempotencyFilter.IdempotencyInterceptResult) :
    Prog.Only NotReplay (afterClaim exchange mode operationName result) := by
  cases result with
  | error error => exact Prog.Only.ret _
  | ok result =>
    cases result with
    | replay => exact Prog.Only.bind (notReplay_perform trivial) fun _ => Prog.Only.ret _
    | conflict | newKey _ | none => exact Prog.Only.ret _

/-- A claim that finds no completed record answers without a replay. -/
theorem notReplay_claim {key : String} {shownKey : Option String} {mode : String}
    {operationName : Option String} {found : KeyState} (taken : world.engine key = some found)
    (fresh : world.trace = []) (notReplayable : isReplayable found = false) :
    ¬ AnsweredByReplay
      (run environment (claim exchange key shownKey mode operationName) world).2.trace := by
  apply not_answeredByReplay
  intro event member
  unfold claim IdempotencyFilter.claimKey at member
  rw [Prog.bind_assoc, run_bind, run_checkOrInsert, handle_checkOrInsert_of_taken taken] at member
  have answers : Prog.Only NotReplay
      (IdempotencyFilter.answerClaim exchange.ctx key shownKey found.outcome) := by
    cases found with
    | inProgress holder =>
      exact Prog.Only.bind (notReplay_writeResponse (get_conflictHeader ..) _) fun _ => Prog.Only.ret _
    | completed holder statusCode headers body =>
      have unwritable : StatusCode.fromU16 statusCode = none := by
        simpa [isReplayable] using notReplayable
      unfold KeyState.outcome IdempotencyFilter.answerClaim IdempotencyFilter.writeReplayResponse
      simp only [unwritable]
      exact Prog.Only.ret _
  have only := Prog.Only.bind answers fun result =>
    notReplay_afterClaim exchange mode operationName result
  rcases trace_of_only only event member with earlier | notReplay
  · rw [fresh] at earlier
    rw [List.mem_singleton.mp earlier]
    trivial
  · exact notReplay

/-- The head of a response goes out first. -/
theorem mem_trace_writeResponse (header : ResponseHeader) (body : String) :
    ∃ answer, ⟨.writeResponseHeader header, answer⟩ ∈
      (run environment (writeResponse header body) world).2.trace := by
  unfold writeResponse
  rw [run_bind]
  exact ⟨_, mem_trace_run (List.mem_append_right world.trace (List.mem_singleton.mpr rfl)) _⟩

/-- A claim that finds a completed record is answered by a replay. -/
theorem replay_claim {key : String} {shownKey : Option String} {mode : String}
    {operationName : Option String} {found : KeyState} (taken : world.engine key = some found)
    (replayable : isReplayable found = true) :
    AnsweredByReplay
      (run environment (claim exchange key shownKey mode operationName) world).2.trace := by
  cases found with
  | inProgress holder => simp [isReplayable] at replayable
  | completed holder statusCode headers body =>
    obtain ⟨status, writable⟩ := Option.isSome_iff_exists.mp replayable
    unfold claim IdempotencyFilter.claimKey
    rw [Prog.bind_assoc, run_bind, run_checkOrInsert, handle_checkOrInsert_of_taken taken, run_bind]
    unfold KeyState.outcome IdempotencyFilter.answerClaim IdempotencyFilter.writeReplayResponse
    simp only [writable, Prog.bind_assoc]
    rw [run_bind]
    obtain ⟨answer, member⟩ := mem_trace_writeResponse _ body
    refine ⟨_, answer, mem_trace_run (mem_trace_run member _) _, ?_⟩
    rw [get_replayResponseHeader]
    rfl

theorem decoded_eq_some {body : String} {info : RequestInfo}
    (success : decoded proxy exchange = some (body, info)) :
    ∃ buffer, bodyRead exchange = .complete buffer ∧
      decodeBody proxy (examined exchange buffer) = some (body, info) := by
  unfold decoded at success
  split at success
  · exact ⟨_, ‹_›, success⟩
  · cases success

/-- A request that reaches its pipeline and is rejected there gets no replay. -/
theorem filterExamined_rejected {current : Exchange} (inHand : InHand exchange current)
    (rejects : WouldReject proxy dynamic exchange)
    (earlier : ∀ event ∈ world.trace, NotReplay event.call) :
    ¬ AnsweredByReplay (run environment (filterExamined proxy dynamic current) world).2.trace := by
  obtain ⟨body, info, success, rejected⟩ := rejects
  obtain ⟨buffer, read, decodes⟩ := decoded_eq_some success
  have composed : (dynamic.interceptorManager.getRequestPipeline info.operationName).isEmpty = false := by
    cases pipeline : dynamic.interceptorManager.getRequestPipeline info.operationName with
    | nil =>
      rw [pipeline] at rejected
      cases rejected
    | cons interceptor rest => rfl
  have context : interceptorContext (noteRequest dynamic (setBuffer current buffer) info body).ctx info =
      interceptorContext exchange.ctx info := by
    simp only [interceptorContext, noteRequest, setBuffer, inHand.requestId, inHand.hlc]
  have head : (noteRequest dynamic (setBuffer current buffer) info body).session.reqHeader =
      (stampRequest exchange).session.reqHeader := congrArg Session.reqHeader inHand.session
  rw [run_filterExamined_of_complete (inHand.bodyRead.trans read)]
  unfold filterBody
  rw [inHand.decodeBody, decodes]
  unfold filterDecoded runPipeline
  simp only [composed, Bool.false_eq_true, if_false, andThen_bind]
  rw [run_bind, context, head]
  apply not_answeredByReplay
  intro event member
  -- nothing that a rejection answers is a replay
  cases verdict : (RequestInterceptorPipeline.interceptRequest
      (dynamic.interceptorManager.getRequestPipeline info.operationName)
      (interceptorContext exchange.ctx info) (stampRequest exchange).session.reqHeader body).1 with
  | reject rejection =>
    have answered : (run environment (interceptRequest _ _ _ _) world).1 = .reject rejection := verdict
    rw [answered] at member
    unfold afterVerdict at member
    rw [andThen_bind, run_bind] at member
    rcases trace_of_only (notReplay_rejectRequest info rejection) event member with before | notReplay
    · rcases List.mem_append.mp before with first | evaluation
      · exact earlier event first
      · rw [List.mem_singleton.mp evaluation]
        trivial
    · exact notReplay
  | pass | transform _ _ | audit _ _ _ => simp [verdict, InterceptorVerdict.isReject] at rejected

end Replay

/-- A request that its pipeline would reject is not answered by a replay exactly when no
    completed record is found under a key that it brings along. -/
theorem replays_unrejected_iff (proxy : CompositeServiceProxy) (dynamic : DynamicGatewayState)
    (environment : Environment) (engine : Engine) (arrival : Arrival) (exchange : Exchange)
    (routed : Routed proxy dynamic arrival exchange) (rejects : WouldReject proxy dynamic exchange) :
    ¬ AnsweredByReplay (filtered proxy dynamic environment engine exchange).2.trace ↔
      (isSubscriptionUpgrade proxy exchange.session.reqHeader = true ∨
        ∀ key found, explicitKey exchange.session = some key → engine key = some found →
          isReplayable found = false) := by
  unfold filtered
  cases upgrade : isSubscriptionUpgrade proxy exchange.session.reqHeader with
  | true =>
    refine iff_of_true (not_answeredByReplay fun event member => ?_) (.inl rfl)
    obtain ⟨result, -, ended⟩ :=
      run_answerAtEdge_of_edge environment ⟨engine, []⟩ (routed.isEdge_eq.trans upgrade)
    have only : Prog.Only NotReplay (answerAtEdge proxy exchange) := by
      rw [answerAtEdge_of_upgrade routed.notEdgePath upgrade]
      exact Prog.Only.bind (notReplay_perform trivial) fun ended => Prog.Only.ret _
    unfold requestFilter at member
    rw [run_andThen_of_done ended] at member
    rcases trace_of_only only event member with before | notReplay
    · exact absurd before List.not_mem_nil
    · exact notReplay
  | false =>
    have notEdge := routed.isEdge_eq.trans upgrade
    cases given : explicitKey exchange.session with
    | none =>
      rw [requestFilter_of_no_key notEdge given]
      exact iff_of_true (filterExamined_rejected (inHand_stampRequest exchange) rejects (by simp))
        (.inr (by simp))
    | some key =>
      cases stored : engine key with
      | none =>
        rw [run_requestFilter_of_free notEdge given stored]
        refine iff_of_true (filterExamined_rejected (inHand_setKey exchange (some key)) rejects ?_)
          (.inr ?_)
        · simp [World.lock, NotReplay]
        · rintro _ found ⟨⟩ taken
          simp [stored] at taken
      | some found =>
        rw [run_requestFilter_of_taken notEdge given stored]
        -- the one way to a replay: a completed record under the key of the header
        cases replayable : isReplayable found with
        | true =>
          refine iff_of_false (not_not_intro (replay_claim stored replayable)) ?_
          rintro (impossible | none)
          · cases impossible
          · simp [none key found rfl stored] at replayable
        | false =>
          refine iff_of_true (notReplay_claim stored rfl replayable) (.inr ?_)
          rintro _ found' ⟨⟩ taken
          cases stored.symm.trans taken
          exact replayable

def requireToken : RequestInterceptor := fun context parts body =>
  if (parts.headers.get "authorization").isSome then passAll context parts body
  else denyAll context parts body

def guarded : DynamicGatewayState := smallDynamic [requireToken] []

theorem replays_unrejected_iff_no_key :
    WouldReject smallProxy guarded (admitted smallProxy guarded (smallArrival .post [] payBody)) ∧
      ¬ AnsweredByReplay (filtered smallProxy guarded obliging (fun _ => none)
        (admitted smallProxy guarded (smallArrival .post [] payBody))).2.trace := by
  have rejects : WouldReject smallProxy guarded
      (admitted smallProxy guarded (smallArrival .post [] payBody)) := ⟨payBody, _, rfl, rfl⟩
  refine ⟨rejects, (replays_unrejected_iff smallProxy guarded obliging (fun _ => none)
    (smallArrival .post [] payBody) _ ⟨rfl, rfl⟩ rejects).mpr (.inr ?_)⟩
  intro key found _ taken
  cases taken

def keyHeader : String × HeaderValue := ("idempotency-key", .ofString "order-7")

/-- The engine after a caller with a token has paid under a key of its own. -/
def paidEngine : Engine :=
  (run obliging (serve smallProxy guarded
    (smallArrival .post [keyHeader, ("authorization", .ofString "Bearer t")] payBody))
    ⟨fun _ => none, []⟩).2.engine

abbrev tokenless : Exchange := admitted smallProxy guarded (smallArrival .post [keyHeader] payBody)

/-- The answer goes to another caller who has the key and no token. -/
theorem replay_to_rejected :
    Routed smallProxy guarded (smallArrival .post [keyHeader] payBody) tokenless ∧
      WouldReject smallProxy guarded tokenless ∧
      AnsweredByReplay (filtered smallProxy guarded obliging paidEngine tokenless).2.trace := by
  have given : explicitKey tokenless.session = some "order-7" := by decide +kernel
  have taken : World.engine ⟨paidEngine, []⟩ "order-7" = some (.completed ⟨1000, 0⟩ 200
      [("content-type", "application/json"),
        ("x-spectra-request-id", "0190163d-8694-739b-aea5-966c26f8ad91"),
        ("x-spectra-hlc", "0000000001000-000000")] "\x7b\x7d") := by decide +kernel
  refine ⟨⟨rfl, rfl⟩, ⟨payBody, _, rfl, rfl⟩, ?_⟩
  unfold filtered
  rw [run_requestFilter_of_taken rfl given taken]
  exact replay_claim taken rfl

end SpectraGQL.Gateway
