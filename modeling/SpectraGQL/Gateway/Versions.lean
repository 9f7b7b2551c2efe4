import SpectraGQL.Gateway.Delivery

/-! # A request and the reloads around it

Every phase of a request loads the running configuration anew.  `serveLoading` is a request
whose phases may load different ones, with the decisions that they make.
`one_version_per_request` says when the request is served as by a single configuration: when
each phase finds in the configuration that it loads what it would find in that one.
-/

namespace SpectraGQL.Gateway

open Interaction SpectraGQL.Core SpectraGQL.Http SpectraGQL.Protocol SpectraGQL.Interceptors
open SpectraGQL.Telemetry SpectraGQL.Idempotency

/-! ## Loading -/

/-- Where a request loads the running configuration. -/
inductive LoadPoint where
  | newCtx | earlyRequestFilter | requestFilter | upstreamPeer | responseFilter
  | responseBodyFilter (call : Nat)

def LoadPoint.index : LoadPoint → Nat
  | newCtx => 0
  | earlyRequestFilter => 1
  | requestFilter => 2
  | upstreamPeer => 3
  | responseFilter => 4
  | responseBodyFilter call => 5 + call

abbrev Loads := LoadPoint → DynamicGatewayState

/-- What is running at each point; `reloads` are the configurations that were stored between
    a point and the one before it. -/
def runningAt (initial : DynamicGatewayState) (reloads : Nat → List DynamicGatewayState) :
    Nat → DynamicGatewayState
  | 0 => (reloads 0).getLastD initial
  | index + 1 => (reloads (index + 1)).getLastD (runningAt initial reloads index)

def loadsAmong (initial : DynamicGatewayState) (reloads : Nat → List DynamicGatewayState) : Loads :=
  fun point => runningAt initial reloads point.index

/-! ## Serving -/

/-- How a body has gone through, and the pipeline that has checked it as a whole. -/
structure Streamed where
  error : Option PingoraError
  ctx : ProxyCtx
  checkedBy : Option ResponseInterceptorPipeline

def streamChunksLoading (proxy : CompositeServiceProxy) (loads : Loads) (elapsedMs : Nat)
    (broken : Option PingoraError) (ctx : ProxyCtx) (checkedBy : Option ResponseInterceptorPipeline)
    (call : Nat) : List (Option Bytes) → GatewayProg Streamed
  | [] => return ⟨broken, ctx, checkedBy⟩
  | chunk :: rest =>
    let dynamic := loads (.responseBodyFilter call)
    let endOfStream := rest.isEmpty && broken.isNone
    let filtered := responseBodyFilter proxy dynamic ctx elapsedMs chunk endOfStream
    let checkedBy :=
      if ctx.hasResponseInterception && endOfStream then
        some (dynamic.interceptorManager.getResponsePipeline ctx.activeOperation)
      else checkedBy
    match filtered.2 with
    | none =>
      streamChunksLoading proxy loads elapsedMs broken filtered.1 checkedBy (call + 1) rest
    | some bytes => do
      if ← writeResponseBody bytes then
        streamChunksLoading proxy loads elapsedMs broken filtered.1 checkedBy (call + 1) rest
      else return ⟨some clientGone, filtered.1, checkedBy⟩

/-- How a request was forwarded: the peer, whether its response was held back, and the
    pipeline that has checked it. -/
structure Forwarded where
  error : Option PingoraError
  exchange : Exchange
  peer : Except PingoraError SocketAddr
  buffers : Option Bool := none
  checkedBy : Option ResponseInterceptorPipeline := none

def proxyUpstreamLoading (proxy : CompositeServiceProxy) (loads : Loads) (exchange : Exchange)
    (upstream : Upstream) (elapsedMs : Nat) : GatewayProg Forwarded :=
  match upstreamPeer (loads .upstreamPeer) exchange.ctx with
  | .error error => return { error := some error, exchange := exchange, peer := .error error }
  | .ok peer =>
    let ctx := exchange.session.chunks.foldl requestBodyFilter exchange.ctx
    match upstream with
    | .unreachable error =>
      return { error := some error, exchange := { exchange with ctx := ctx }, peer := .ok peer }
    | .response head chunks broken => do
      let filtered := responseFilter (loads .responseFilter) ctx head
      let buffers := some filtered.1.hasResponseInterception
      if ← writeResponseHeader filtered.2 then
        let streamed ← streamChunksLoading proxy loads elapsedMs broken filtered.1 none 0 chunks
        return ⟨streamed.error, { exchange with ctx := streamed.ctx }, .ok peer, buffers,
          streamed.checkedBy⟩
      else return ⟨some clientGone, { exchange with ctx := filtered.1 }, .ok peer, buffers, none⟩

/-- What was decided for a request, as far as it came. -/
structure Decisions where
  appId : String
  appUpstream : Option SocketAddr
  operation : Option String := none
  requestPipeline : Option RequestInterceptorPipeline := none
  route : Option SpectraRouteConfig := none
  dispatchPolicy : Option ModeADispatchPolicy := none
  upstream : Option SocketAddr := none
  peer : Option (Except PingoraError SocketAddr) := none
  /-- Whether the response is held back to be checked. -/
  buffers : Option Bool := none
  responsePipeline : Option ResponseInterceptorPipeline := none

/-- The decisions up to the end of the request filter. -/
def Decisions.ofFilter (dynamic : DynamicGatewayState) (early : Exchange) (outcome : Outcome) :
    Decisions where
  appId := early.ctx.appId
  appUpstream := early.ctx.targetUpstreamAddr
  operation := outcome.exchange.ctx.activeOperation
  requestPipeline := outcome.exchange.ctx.requestInfo.map fun _ =>
    dynamic.interceptorManager.getRequestPipeline outcome.exchange.ctx.activeOperation
  route := outcome.exchange.ctx.requestInfo.bind (StrategyRouter.matchRoute dynamic.routes)
  dispatchPolicy := some outcome.exchange.ctx.dispatchPolicy
  upstream := outcome.exchange.ctx.targetUpstreamAddr

/-- `serve`, when each phase loads a configuration of its own. -/
def serveLoading (proxy : CompositeServiceProxy) (loads : Loads) (arrival : Arrival) :
    GatewayProg Decisions :=
  match earlyRequestFilter proxy (loads .earlyRequestFilter) (arrival.exchange (loads .newCtx)) with
  | (.error error, exchange) => do
    logging proxy exchange (some error)
    return { appId := exchange.ctx.appId, appUpstream := exchange.ctx.targetUpstreamAddr }
  | (.ok (), exchange) => do
    let outcome ← requestFilter proxy (loads .requestFilter) exchange
    let decisions := Decisions.ofFilter (loads .requestFilter) exchange outcome
    match outcome.result with
    | .error error => do
      logging proxy outcome.exchange (some error)
      return decisions
    | .ok true => do
      logging proxy outcome.exchange none
      return decisions
    | .ok false => do
      let forwarded ← proxyUpstreamLoading proxy loads outcome.exchange arrival.upstream
        arrival.elapsedMs
      logging proxy forwarded.exchange forwarded.error
      return { decisions with
        peer := some forwarded.peer, buffers := forwarded.buffers
        responsePipeline := forwarded.checkedBy }

/-! ## With one configuration -/

section Single

variable (proxy : CompositeServiceProxy) (dynamic : DynamicGatewayState)

theorem streamChunks_eq (elapsedMs : Nat) (broken : Option PingoraError) (ctx : ProxyCtx)
    (checkedBy : Option ResponseInterceptorPipeline) (call : Nat) (chunks : List (Option Bytes)) :
    streamChunks proxy dynamic elapsedMs broken ctx chunks =
      streamChunksLoading proxy (fun _ => dynamic) elapsedMs broken ctx checkedBy call chunks >>=
        fun streamed => .ret (streamed.error, streamed.ctx) := by
  induction chunks generalizing ctx checkedBy call with
  | nil => rfl
  | cons chunk rest inductionHypothesis =>
    unfold streamChunks streamChunksLoading
    dsimp only
    generalize responseBodyFilter proxy dynamic ctx elapsedMs chunk (rest.isEmpty && broken.isNone) =
      filtered
    cases filtered.2 with
    | none => exact inductionHypothesis ..
    | some bytes =>
      dsimp only
      rw [Prog.bind_assoc]
      congr 1
      funext written
      split
      · exact inductionHypothesis ..
      · rfl

theorem proxyUpstream_eq (exchange : Exchange) (upstream : Upstream) (elapsedMs : Nat) :
    proxyUpstream proxy dynamic exchange upstream elapsedMs =
      proxyUpstreamLoading proxy (fun _ => dynamic) exchange upstream elapsedMs >>=
        fun forwarded => .ret (forwarded.error, forwarded.exchange) := by
  unfold proxyUpstream proxyUpstreamLoading
  dsimp only
  cases upstreamPeer dynamic exchange.ctx with
  | error error => rfl
  | ok peer =>
    dsimp only
    cases upstream with
    | unreachable error => rfl
    | response head chunks broken =>
      dsimp only
      rw [Prog.bind_assoc]
      congr 1
      funext written
      cases written with
      | false => rfl
      | true =>
        rw [streamChunks_eq proxy dynamic _ _ _ none 0]
        simp only [if_true, Prog.bind_assoc]
        rfl

/-- A request that loads the same configuration everywhere. -/
theorem serve_eq (arrival : Arrival) :
    serve proxy dynamic arrival =
      serveLoading proxy (fun _ => dynamic) arrival >>= fun _ => .ret () := by
  -- the decisions are only watched, never used
  have erased : ∀ (program : GatewayProg Unit) (decisions : Decisions),
      program = (program >>= fun _ => (.ret decisions : GatewayProg Decisions)) >>= fun _ => .ret () := by
    intro program decisions
    rw [Prog.bind_assoc]
    induction program with
    | ret value => rfl
    | call request rest inductionHypothesis =>
      rw [Prog.call_bind]
      congr 1
      funext answer
      exact inductionHypothesis answer
  unfold serve serveLoading
  dsimp only
  obtain ⟨result, exchange⟩ := earlyRequestFilter proxy dynamic (arrival.exchange dynamic)
  cases result with
  | error error => exact erased ..
  | ok _ =>
    dsimp only
    rw [Prog.bind_assoc]
    congr 1
    funext outcome
    unfold afterRequestFilter
    cases outcome.result with
    | error error => exact erased ..
    | ok answered =>
      cases answered with
      | true => exact erased ..
      | false =>
        dsimp only
        rw [proxyUpstream_eq, Prog.bind_assoc, Prog.bind_assoc]
        congr 1
        funext forwarded
        exact erased ..

end Single

/-! ## What the phases read -/

/-- A phase finds in the configuration that it loads, for a request with this operation, what
    it would find in `version`. -/
def LoadPoint.Finds (operation : Option String) (loaded version : DynamicGatewayState) : LoadPoint → Prop
  | newCtx => loaded.dispatchPolicy = version.dispatchPolicy ∧ loaded.defaultApp = version.defaultApp
  | earlyRequestFilter =>
    loaded.apps = version.apps ∧ loaded.defaultApp = version.defaultApp ∧
      loaded.namedUpstreams = version.namedUpstreams
  | requestFilter =>
    loaded.apps = version.apps ∧ loaded.routes = version.routes ∧
      loaded.namedUpstreams = version.namedUpstreams ∧
      loaded.interceptorManager.getRequestPipeline operation =
        version.interceptorManager.getRequestPipeline operation
  | upstreamPeer => loaded.namedUpstreams.lookup "default" = version.namedUpstreams.lookup "default"
  | responseFilter =>
    loaded.interceptorManager.getResponsePipeline operation =
      version.interceptorManager.getResponsePipeline operation
  | responseBodyFilter _ =>
    if version.interceptorManager.hasResponseInterceptors operation then
      loaded.interceptorManager.getResponsePipeline operation =
        version.interceptorManager.getResponsePipeline operation
    else loaded.errorCapture = version.errorCapture

/-- Every phase finds what it would find in `version`. -/
def FindAlike (operation : Option String) (loads : Loads) (version : DynamicGatewayState) : Prop :=
  ∀ point : LoadPoint, point.Finds operation (loads point) version

section Finds

variable {proxy : CompositeServiceProxy} {operation : Option String}
  {loaded version : DynamicGatewayState}

theorem newCtx_of_finds (finds : LoadPoint.newCtx.Finds operation loaded version)
    (requestId : RequestId) (hlc : HlcTimestamp) :
    newCtx loaded requestId hlc = newCtx version requestId hlc := by
  unfold newCtx
  rw [finds.1, finds.2]

theorem earlyRequestFilter_of_finds (finds : LoadPoint.earlyRequestFilter.Finds operation loaded version)
    (exchange : Exchange) :
    earlyRequestFilter proxy loaded exchange = earlyRequestFilter proxy version exchange := by
  obtain ⟨apps, defaultApp, upstreams⟩ := finds
  unfold earlyRequestFilter resolveApp
  rw [apps, defaultApp, upstreams]

theorem upstreamPeer_of_finds (finds : LoadPoint.upstreamPeer.Finds operation loaded version)
    (ctx : ProxyCtx) : upstreamPeer loaded ctx = upstreamPeer version ctx := by
  unfold upstreamPeer
  rw [show loaded.namedUpstreams.lookup "default" = _ from finds]

theorem hasResponseInterceptors_of_finds (finds : LoadPoint.responseFilter.Finds operation loaded version) :
    loaded.interceptorManager.hasResponseInterceptors operation =
      version.interceptorManager.hasResponseInterceptors operation := by
  rw [Bool.eq_iff_iff, InterceptorManager.hasResponseInterceptors_iff,
    InterceptorManager.hasResponseInterceptors_iff,
    show loaded.interceptorManager.getResponsePipeline operation = _ from finds]

theorem responseFilter_of_finds {ctx : ProxyCtx}
    (finds : LoadPoint.responseFilter.Finds ctx.activeOperation loaded version) (head : ResponseHeader) :
    responseFilter loaded ctx head = responseFilter version ctx head := by
  unfold responseFilter
  dsimp only
  rw [hasResponseInterceptors_of_finds finds]

theorem responseBodyFilter_of_finds {ctx : ProxyCtx} {call : Nat}
    (marked : ctx.hasResponseInterception =
      version.interceptorManager.hasResponseInterceptors ctx.activeOperation)
    (finds : (LoadPoint.responseBodyFilter call).Finds ctx.activeOperation loaded version)
    (elapsedMs : Nat) (body : Option Bytes) (endOfStream : Bool) :
    responseBodyFilter proxy loaded ctx elapsedMs body endOfStream =
      responseBodyFilter proxy version ctx elapsedMs body endOfStream := by
  unfold LoadPoint.Finds at finds
  unfold responseBodyFilter
  cases intercepted : ctx.hasResponseInterception with
  | true =>
    rw [if_pos (marked.symm.trans intercepted)] at finds
    simp only [if_true]
    unfold interceptBody responseVerdict
    dsimp only
    rw [finds]
  | false =>
    rw [if_neg (by rw [← marked, intercepted]; exact Bool.false_ne_true)] at finds
    simp only [Bool.false_eq_true, if_false]
    unfold streamBody capturesError captureLimit capturesError
    rw [finds]

/-- A chunk changes neither the operation nor the marking. -/
theorem responseBodyFilter_keeps (ctx : ProxyCtx) (elapsedMs : Nat) (body : Option Bytes)
    (endOfStream : Bool) :
    (responseBodyFilter proxy version ctx elapsedMs body endOfStream).1.activeOperation =
        ctx.activeOperation ∧
      (responseBodyFilter proxy version ctx elapsedMs body endOfStream).1.hasResponseInterception =
        ctx.hasResponseInterception := by
  have core := core_responseBodyFilter proxy version ctx elapsedMs body endOfStream
  have operation : ∀ ctx : ProxyCtx, ctx.core.activeOperation = ctx.activeOperation := fun _ => rfl
  refine ⟨by rw [← operation, core, operation], ?_⟩
  unfold responseBodyFilter
  split
  · unfold interceptBody
    dsimp only
    split
    · unfold noteResponseBody noteVerdict
      split <;> rfl
    · rfl
  · have previewed : ∀ (captured : Bool) (seen : ProxyCtx) (text : Option String),
        (if captured then { seen with errorPreview := text } else seen).hasResponseInterception =
          seen.hasResponseInterception := by
      intro captured seen text
      cases captured <;> rfl
    unfold streamBody
    cases endOfStream with
    | true => exact (previewed _ _ _).trans (by cases body <;> rfl)
    | false => cases body <;> rfl

/-- A request that loads configurations in which each phase finds the same. -/
theorem streamChunksLoading_of_finds {loads : Loads} (elapsedMs : Nat) (broken : Option PingoraError)
    {ctx : ProxyCtx} (checkedBy : Option ResponseInterceptorPipeline) (call : Nat)
    (chunks : List (Option Bytes))
    (marked : ctx.hasResponseInterception =
      version.interceptorManager.hasResponseInterceptors ctx.activeOperation)
    (finds : ∀ call, (LoadPoint.responseBodyFilter call).Finds ctx.activeOperation
      (loads (.responseBodyFilter call)) version) :
    streamChunksLoading proxy loads elapsedMs broken ctx checkedBy call chunks =
      streamChunksLoading proxy (fun _ => version) elapsedMs broken ctx checkedBy call chunks := by
  induction chunks generalizing ctx checkedBy call with
  | nil => rfl
  | cons chunk rest inductionHypothesis =>
    -- the pipeline is looked up at the last chunk only
    have checked : (if ctx.hasResponseInterception && (rest.isEmpty && broken.isNone) then
          some ((loads (.responseBodyFilter call)).interceptorManager.getResponsePipeline
            ctx.activeOperation)
        else checkedBy) =
        if ctx.hasResponseInterception && (rest.isEmpty && broken.isNone) then
          some (version.interceptorManager.getResponsePipeline ctx.activeOperation)
        else checkedBy := by
      cases intercepted : ctx.hasResponseInterception with
      | false => rfl
      | true =>
        have found := finds call
        unfold LoadPoint.Finds at found
        rw [if_pos (marked.symm.trans intercepted)] at found
        rw [found]
    unfold streamChunksLoading
    dsimp only
    rw [responseBodyFilter_of_finds marked (finds call), checked]
    obtain ⟨operation, marking⟩ := @responseBodyFilter_keeps proxy version ctx
      elapsedMs chunk (rest.isEmpty && broken.isNone)
    generalize responseBodyFilter proxy version ctx elapsedMs chunk (rest.isEmpty && broken.isNone) =
      filtered at operation marking
    have goesOn : ∀ checkedBy,
        streamChunksLoading proxy loads elapsedMs broken filtered.1 checkedBy (call + 1) rest =
          streamChunksLoading proxy (fun _ => version) elapsedMs broken filtered.1 checkedBy (call + 1)
            rest := by
      intro checkedBy
      refine inductionHypothesis _ _ ?_ ?_
      · rw [marking, operation]
        exact marked
      · rw [operation]
        exact finds
    cases filtered.2 with
    | none => exact goesOn _
    | some bytes =>
      dsimp only
      congr 1
      funext written
      cases written with
      | false => rfl
      | true => exact goesOn _

end Finds

/-! ## The request filter -/

/-- The operation of a request that is examined as `exchange`. -/
def operationOf (proxy : CompositeServiceProxy) (exchange : Exchange) : Option String :=
  (decoded proxy exchange).bind fun request => request.2.operationName

/-- The context of a request on its way upstream. -/
structure OnItsWay (operation : Option String) (exchange : Exchange) : Prop where
  operation : exchange.ctx.activeOperation = operation
  unmarked : exchange.ctx.hasResponseInterception = false

/-- A phase that has decoded the request knows it by this operation, above all if it sends the
    request upstream. -/
structure KnownAs (operation : Option String) (outcome : Outcome) : Prop where
  decoded : outcome.exchange.ctx.requestInfo.isSome → outcome.exchange.ctx.activeOperation = operation
  forwarded : outcome.result = .ok false → OnItsWay operation outcome.exchange

/-- A phase that was over before the request was decoded. -/
structure EndedEarly (outcome : Outcome) : Prop where
  answered : outcome.result ≠ .ok false
  undecoded : outcome.exchange.ctx.requestInfo = none

section RequestFilter

variable {proxy : CompositeServiceProxy} {operation : Option String}
  {loaded version dynamic : DynamicGatewayState} {exchange current : Exchange}

theorem routeRequest_of_finds (finds : LoadPoint.requestFilter.Finds operation loaded version)
    (exchange : Exchange) (info : RequestInfo) :
    routeRequest proxy loaded exchange info = routeRequest proxy version exchange info := by
  obtain ⟨-, routes, upstreams, -⟩ := finds
  unfold routeRequest overrideRoute
  rw [routes, upstreams]

theorem filterDecoded_of_finds {info : RequestInfo}
    (finds : LoadPoint.requestFilter.Finds info.operationName loaded version) (exchange : Exchange)
    (body : String) :
    filterDecoded proxy loaded exchange info body = filterDecoded proxy version exchange info body := by
  have noted : noteRequest loaded exchange info body = noteRequest version exchange info body := by
    unfold noteRequest appPrefix
    rw [finds.1]
  have piped : ∀ exchange, runPipeline loaded exchange info body = runPipeline version exchange info body := by
    intro exchange
    unfold runPipeline
    rw [finds.2.2.2]
  unfold filterDecoded
  rw [noted, piped]
  simp only [routeRequest_of_finds finds]

/-- The stages before the body leave the request as it came, less a key. -/
theorem inHand_claimExplicitKey (undecoded : exchange.ctx.requestInfo = none) :
    (claimExplicitKey (stampRequest exchange)).Returns
      (Stage.Ends EndedEarly fun after => InHand exchange after ∧ after.ctx.requestInfo = none ∧
        after.ctx.activeOperation = exchange.ctx.activeOperation ∧
        after.ctx.hasResponseInterception = exchange.ctx.hasResponseInterception) := by
  refine (Prog.returns_true _).bind fun result _ => ?_
  unfold afterClaim
  cases result with
  | error error =>
    refine Prog.Returns.ret ⟨?_, undecoded⟩
    intro impossible
    cases impossible
  | ok claimed =>
    cases claimed with
    | conflict => exact Prog.Returns.ret ⟨answered_true, undecoded⟩
    | replay =>
      exact (Prog.returns_true _).bind fun _ _ => Prog.Returns.ret ⟨answered_true, undecoded⟩
    | newKey key => exact Prog.Returns.ret ⟨inHand_setKey exchange (some key), undecoded, rfl, rfl⟩
    | none => exact Prog.Returns.ret ⟨inHand_stampRequest exchange, undecoded, rfl, rfl⟩

theorem endedEarly_refusePayload (undecoded : current.ctx.requestInfo = none) :
    (refusePayload current).Returns EndedEarly := by
  refine (Prog.returns_true _).bind fun written _ => ?_
  split
  · cases current.ctx.idempotencyKey with
    | none => exact Prog.Returns.ret ⟨answered_true, undecoded⟩
    | some key =>
      exact (Prog.returns_true _).bind fun _ _ => Prog.Returns.ret ⟨answered_true, undecoded⟩
  · exact Prog.Returns.ret ⟨answered_true, undecoded⟩

theorem readRequestBody_returns (undecoded : current.ctx.requestInfo = none) :
    (readRequestBody current).Returns
      (Stage.Ends EndedEarly fun after =>
        ∃ buffer, bodyRead current = .complete buffer ∧ after = setBuffer current buffer) := by
  rw [readRequestBody_eq]
  cases bodyRead current with
  | failed error buffer =>
    refine Prog.Returns.ret ⟨?_, undecoded⟩
    intro impossible
    cases impossible
  | tooLarge buffer =>
    have bare : (setBuffer current buffer).ctx.requestInfo = none := undecoded
    exact (endedEarly_refusePayload bare).bind fun outcome early => Prog.Returns.ret early
  | complete buffer => exact Prog.Returns.ret ⟨buffer, rfl, rfl⟩

theorem decoded_of_inHand (inHand : InHand exchange current) {buffer : Bytes}
    (read : bodyRead current = .complete buffer) :
    decodeBody proxy (setBuffer current buffer) = decoded proxy exchange := by
  rw [decoded_of_complete (inHand.bodyRead.symm.trans read), inHand.decodeBody]

theorem Stage.andThen_congr {α : Type} {post : Outcome → Prop} {handsOn : α → Prop}
    {stage : GatewayProg (Stage α)} {first second : α → GatewayProg Outcome}
    (returns : stage.Returns (Stage.Ends post handsOn))
    (same : ∀ value, handsOn value → first value = second value) :
    Stage.andThen stage first = Stage.andThen stage second :=
  returns.bind_congr fun
    | .done _, _ => rfl
    | .next value, goesOn => same value goesOn

theorem requestFilter_of_finds (undecoded : exchange.ctx.requestInfo = none)
    (finds : LoadPoint.requestFilter.Finds (operationOf proxy exchange) loaded version) :
    requestFilter proxy loaded exchange = requestFilter proxy version exchange := by
  refine Stage.andThen_congr (answerAtEdge_returns proxy exchange) fun after same => ?_
  subst same
  refine Stage.andThen_congr (inHand_claimExplicitKey undecoded) fun current kept => ?_
  obtain ⟨inHand, bare, -, -⟩ := kept
  refine Stage.andThen_congr (readRequestBody_returns bare) fun examined held => ?_
  obtain ⟨buffer, read, rfl⟩ := held
  unfold filterBody
  rw [decoded_of_inHand inHand read]
  unfold operationOf at finds
  cases success : decoded proxy after with
  | none => rfl
  | some request =>
    rw [success] at finds
    exact filterDecoded_of_finds finds _ _

/-! ### On its way -/

theorem OnItsWay.knownAs (onItsWay : OnItsWay operation exchange) (result : Except PingoraError Bool) :
    KnownAs operation ⟨result, exchange⟩ :=
  ⟨fun _ => onItsWay.operation, fun _ => onItsWay⟩

theorem knownAs_routeRequest (onItsWay : OnItsWay operation exchange) (info : RequestInfo) :
    (routeRequest proxy dynamic exchange info).Returns (KnownAs operation) := by
  have forwards : ∀ current, OnItsWay operation current →
      (forward proxy current info).Returns (KnownAs operation) := by
    intro current isOnItsWay
    refine (forward_returns proxy current info).mono fun outcome _ same => ?_
    rw [same]
    exact isOnItsWay.knownAs _
  unfold routeRequest
  split
  · exact forwards exchange onItsWay
  split
  · refine (refuseDisabled_returns exchange info _).mono fun outcome _ same => ?_
    rw [same]
    exact onItsWay.knownAs _
  split
  · have edge : ∀ route, (StrategyRouter.handleModeBEdge proxy exchange route info).Returns
        (OnItsWay operation) := by
      intro route
      refine (handleModeBEdge_returns proxy exchange route info).mono fun after _ same => ?_
      rw [same]
      exact ⟨onItsWay.operation, onItsWay.unmarked⟩
    exact (edge _).bind fun after isOnItsWay =>
      (Prog.returns_true _).bind fun _ _ => Prog.Returns.ret (isOnItsWay.knownAs _)
  · exact forwards _ ⟨onItsWay.operation, onItsWay.unmarked⟩

theorem knownAs_rejectRequest (onItsWay : OnItsWay operation exchange) (info : RequestInfo)
    (rejection : InterceptorRejection) :
    (rejectRequest exchange info rejection).Returns (KnownAs operation) := by
  have keyless : OnItsWay operation (exchange.setKey none) := ⟨onItsWay.operation, onItsWay.unmarked⟩
  refine (rejectRequest_returns exchange info rejection).mono fun outcome _ same => ?_
  rw [same]
  exact keyless.knownAs _

theorem knownAs_filterDecoded (info : RequestInfo) (body : String)
    (unmarked : exchange.ctx.hasResponseInterception = false) :
    (filterDecoded proxy dynamic exchange info body).Returns (KnownAs info.operationName) := by
  have noted : OnItsWay info.operationName (noteRequest dynamic exchange info body) := ⟨rfl, unmarked⟩
  -- the pipeline may change headers and body, but not the operation
  have piped : (runPipeline dynamic (noteRequest dynamic exchange info body) info body).Returns
      (Stage.Ends (KnownAs info.operationName) fun request => OnItsWay info.operationName request.1) := by
    unfold runPipeline
    dsimp only
    split
    · exact Prog.Returns.ret noted
    · refine (Prog.returns_true _).bind fun verdict _ => ?_
      cases verdict with
      | pass => exact Prog.Returns.ret noted
      | audit ruleName tag reason => exact Prog.Returns.ret ⟨noted.operation, noted.unmarked⟩
      | reject rejection =>
        exact (knownAs_rejectRequest noted info rejection).bind fun outcome known =>
          Prog.Returns.ret known
      | transform headers newBody =>
        cases newBody <;> exact Prog.Returns.ret ⟨noted.operation, noted.unmarked⟩
  refine Stage.returns_andThen _ piped fun request isOnItsWay => ?_
  refine Stage.returns_andThen (OnItsWay info.operationName) ?_ fun after isOnItsWay =>
    knownAs_routeRequest isOnItsWay info
  rw [claimFingerprint_eq]
  split
  · refine (Prog.returns_true _).bind fun result _ => ?_
    unfold afterClaim
    cases result with
    | error error => exact Prog.Returns.ret (isOnItsWay.knownAs _)
    | ok claimed =>
      cases claimed with
      | conflict => exact Prog.Returns.ret (isOnItsWay.knownAs _)
      | replay =>
        have replays : OnItsWay info.operationName
            { request.1 with ctx := { request.1.ctx with isReplay := true } } :=
          ⟨isOnItsWay.operation, isOnItsWay.unmarked⟩
        exact (Prog.returns_true _).bind fun _ _ => Prog.Returns.ret (replays.knownAs _)
      | newKey key => exact Prog.Returns.ret ⟨isOnItsWay.operation, isOnItsWay.unmarked⟩
      | none => exact Prog.Returns.ret isOnItsWay
  · exact Prog.Returns.ret isOnItsWay

/-- A stage that comes before the request is decoded. -/
theorem knownAs_andThen {α : Type} (handsOn : α → Prop) {stage : GatewayProg (Stage α)}
    {rest : α → GatewayProg Outcome} (first : stage.Returns (Stage.Ends EndedEarly handsOn))
    (second : ∀ value, handsOn value → (rest value).Returns (KnownAs operation)) :
    (Stage.andThen stage rest).Returns (KnownAs operation) := by
  refine Stage.returns_andThen handsOn (first.mono fun ended _ holds => ?_) second
  cases ended with
  | done outcome =>
    refine ⟨fun isDecoded => ?_, fun forwarded => absurd forwarded holds.answered⟩
    rw [holds.undecoded] at isDecoded
    cases isDecoded
  | next value => exact holds

/-- A request is known by the operation that it was decoded to. -/
theorem knownAs_requestFilter (fresh : OnItsWay none exchange)
    (undecoded : exchange.ctx.requestInfo = none) :
    (requestFilter proxy dynamic exchange).Returns (KnownAs (operationOf proxy exchange)) := by
  refine knownAs_andThen (fun after => after = exchange)
    ((answerAtEdge_returns proxy exchange).mono fun ended _ holds => ?_) fun after same => ?_
  · cases ended with
    | done outcome => exact ⟨holds.2, holds.1 ▸ undecoded⟩
    | next value => exact holds
  subst same
  refine knownAs_andThen _ (inHand_claimExplicitKey undecoded) fun current kept => ?_
  obtain ⟨inHand, bare, operation, unmarked⟩ := kept
  refine knownAs_andThen _ (readRequestBody_returns bare) fun examined held => ?_
  obtain ⟨buffer, read, rfl⟩ := held
  unfold filterBody
  rw [decoded_of_inHand inHand read]
  unfold operationOf
  cases decoded proxy after with
  | none =>
    have passes : OnItsWay none (setBuffer current buffer) :=
      ⟨operation.trans fresh.operation, unmarked.trans fresh.unmarked⟩
    exact Prog.Returns.ret (passes.knownAs _)
  | some request => exact knownAs_filterDecoded request.2 request.1 (unmarked.trans fresh.unmarked)

end RequestFilter

/-! ## The response -/

section Response

variable {proxy : CompositeServiceProxy} {operation : Option String} {version : DynamicGatewayState}
  {loads : Loads} {exchange : Exchange}

theorem operation_responseFilter (ctx : ProxyCtx) (head : ResponseHeader) :
    (responseFilter version ctx head).1.activeOperation = ctx.activeOperation := by
  unfold responseFilter
  dsimp only
  split <;> rfl

theorem proxyUpstreamLoading_of_finds (onItsWay : OnItsWay operation exchange)
    (finds : FindAlike operation loads version) (upstream : Upstream) (elapsedMs : Nat) :
    proxyUpstreamLoading proxy loads exchange upstream elapsedMs =
      proxyUpstreamLoading proxy (fun _ => version) exchange upstream elapsedMs := by
  obtain ⟨isOperation, unmarked⟩ := onItsWay
  subst isOperation
  unfold proxyUpstreamLoading
  rw [upstreamPeer_of_finds (finds .upstreamPeer)]
  -- both load the same at each of the three places
  cases upstreamPeer version exchange.ctx with
  | error error => rfl
  | ok peer =>
    dsimp only
    cases upstream with
    | unreachable error => rfl
    | response head chunks broken =>
      have kept := @operation_responseFilter version exchange.ctx head
      have marked := @responseFilter_plain version exchange.ctx unmarked head
      dsimp only
      rw [responseFilter_requestBodyFilter, responseFilter_requestBodyFilter,
        responseFilter_of_finds (finds .responseFilter)]
      congr 1
      funext written
      cases written with
      | false => rfl
      | true =>
        simp only [if_true]
        congr 1
        refine streamChunksLoading_of_finds elapsedMs broken none 0 chunks (by rw [marked, kept]) ?_
        intro call
        rw [kept]
        exact finds (.responseBodyFilter call)

/-- With one configuration a body is checked by the pipeline of its operation. -/
theorem streamChunksLoading_checks (elapsedMs : Nat) (broken : Option PingoraError) {ctx : ProxyCtx}
    (isOperation : ctx.activeOperation = operation) (checkedBy : Option ResponseInterceptorPipeline)
    (checked : ∀ pipeline ∈ checkedBy,
      pipeline = version.interceptorManager.getResponsePipeline operation)
    (call : Nat) (chunks : List (Option Bytes)) :
    (streamChunksLoading proxy (fun _ => version) elapsedMs broken ctx checkedBy call chunks).Returns
      fun streamed => ∀ pipeline ∈ streamed.checkedBy,
        pipeline = version.interceptorManager.getResponsePipeline operation := by
  induction chunks generalizing ctx checkedBy call with
  | nil => exact Prog.Returns.ret checked
  | cons chunk rest inductionHypothesis =>
    have keeps := (@responseBodyFilter_keeps proxy version ctx elapsedMs chunk
      (rest.isEmpty && broken.isNone)).1.trans isOperation
    -- the interceptors see the body with its last chunk
    have checkedNow : ∀ pipeline ∈
        (if ctx.hasResponseInterception && (rest.isEmpty && broken.isNone) then
          some (version.interceptorManager.getResponsePipeline ctx.activeOperation)
        else checkedBy),
        pipeline = version.interceptorManager.getResponsePipeline operation := by
      intro pipeline member
      split at member
      · rw [isOperation] at member
        exact (Option.mem_some.mp member).symm
      · exact checked pipeline member
    unfold streamChunksLoading
    dsimp only
    generalize responseBodyFilter proxy version ctx elapsedMs chunk (rest.isEmpty && broken.isNone) =
      filtered at keeps
    cases filtered.2 with
    | none => exact inductionHypothesis keeps _ checkedNow _
    | some bytes =>
      refine (Prog.returns_true _).bind fun written _ => ?_
      cases written with
      | false => exact Prog.Returns.ret checkedNow
      | true => exact inductionHypothesis keeps _ checkedNow _

/-- A response is marked for the pipeline of its operation, and checked by it. -/
structure ChecksBy (version : DynamicGatewayState) (operation : Option String) (buffers : Option Bool)
    (checkedBy : Option ResponseInterceptorPipeline) : Prop where
  marked : ∀ marked ∈ buffers, marked = version.interceptorManager.hasResponseInterceptors operation
  checked : ∀ pipeline ∈ checkedBy, pipeline = version.interceptorManager.getResponsePipeline operation

theorem checksBy_none (version : DynamicGatewayState) (operation : Option String) :
    ChecksBy version operation none none :=
  ⟨nofun, nofun⟩

theorem proxyUpstreamLoading_checks (onItsWay : OnItsWay operation exchange) (upstream : Upstream)
    (elapsedMs : Nat) :
    (proxyUpstreamLoading proxy (fun _ => version) exchange upstream elapsedMs).Returns
      fun forwarded => ChecksBy version operation forwarded.buffers forwarded.checkedBy := by
  obtain ⟨isOperation, unmarked⟩ := onItsWay
  subst isOperation
  unfold proxyUpstreamLoading
  cases upstreamPeer version exchange.ctx with
  | error error => exact Prog.Returns.ret (checksBy_none ..)
  | ok peer =>
    dsimp only
    cases upstream with
    | unreachable error => exact Prog.Returns.ret (checksBy_none ..)
    | response head chunks broken =>
      have kept := @operation_responseFilter version exchange.ctx head
      -- the head says whether the body is to be checked
      have marked : ∀ marked ∈ some (responseFilter version exchange.ctx head).1.hasResponseInterception,
          marked = version.interceptorManager.hasResponseInterceptors exchange.ctx.activeOperation := by
        intro marked member
        rw [← responseFilter_plain version unmarked head]
        exact (Option.mem_some.mp member).symm
      dsimp only
      rw [responseFilter_requestBodyFilter]
      refine (Prog.returns_true _).bind fun written _ => ?_
      cases written with
      | false => exact Prog.Returns.ret ⟨marked, nofun⟩
      | true =>
        exact (streamChunksLoading_checks elapsedMs broken kept none nofun 0 chunks).bind
          fun streamed checked => Prog.Returns.ret ⟨marked, checked⟩

end Response

/-! ## One version -/

section Version

variable {proxy : CompositeServiceProxy} {loads : Loads} {version : DynamicGatewayState}
  {arrival : Arrival}

/-- The operation of a request that the version admits. -/
def Arrival.operation (proxy : CompositeServiceProxy) (version : DynamicGatewayState)
    (arrival : Arrival) : Option String :=
  operationOf proxy (admitted proxy version arrival)

theorem fresh_admitted (proxy : CompositeServiceProxy) (version : DynamicGatewayState)
    (arrival : Arrival) :
    OnItsWay none (admitted proxy version arrival) ∧
      (admitted proxy version arrival).ctx.requestInfo = none := by
  unfold admitted
  rcases early : earlyRequestFilter proxy version (arrival.exchange version) with ⟨result, exchange⟩
  obtain ⟨appId, addr, service, same⟩ := ctx_earlyRequestFilter early
  refine ⟨⟨?_, ?_⟩, ?_⟩ <;> rw [same] <;> rfl

theorem early_of_finds (finds : FindAlike (arrival.operation proxy version) loads version) :
    earlyRequestFilter proxy (loads .earlyRequestFilter) (arrival.exchange (loads .newCtx)) =
      earlyRequestFilter proxy version (arrival.exchange version) := by
  unfold Arrival.exchange
  rw [newCtx_of_finds (finds .newCtx), earlyRequestFilter_of_finds (finds .earlyRequestFilter)]

theorem ofFilter_of_finds {operation : Option String} (finds : FindAlike operation loads version)
    (early : Exchange) {outcome : Outcome} (known : KnownAs operation outcome) :
    Decisions.ofFilter (loads .requestFilter) early outcome =
      Decisions.ofFilter version early outcome := by
  obtain ⟨-, routes, -, pipelines⟩ := finds .requestFilter
  unfold Decisions.ofFilter
  rw [routes]
  cases info : outcome.exchange.ctx.requestInfo with
  | none => rfl
  | some decoded =>
    have operation := known.decoded (by rw [info]; rfl)
    simp only [Option.map_some, operation, pipelines]

/-- The request is served as by the one version. -/
theorem serveLoading_of_finds (finds : FindAlike (arrival.operation proxy version) loads version) :
    serveLoading proxy loads arrival = serveLoading proxy (fun _ => version) arrival := by
  obtain ⟨fresh, undecoded⟩ := fresh_admitted proxy version arrival
  unfold serveLoading
  rw [early_of_finds finds]
  unfold Arrival.operation admitted at finds
  unfold admitted at fresh undecoded
  generalize earlyRequestFilter proxy version (arrival.exchange version) = early at finds fresh undecoded ⊢
  obtain ⟨result, exchange⟩ := early
  cases result with
  | error error => rfl
  | ok _ =>
    dsimp only at finds fresh undecoded ⊢
    rw [requestFilter_of_finds undecoded (finds .requestFilter)]
    refine (knownAs_requestFilter fresh undecoded).bind_congr fun outcome known => ?_
    rw [ofFilter_of_finds finds exchange known]
    cases result : outcome.result with
    | error error => rfl
    | ok answered =>
      cases answered with
      | true => rfl
      | false =>
        dsimp only
        rw [proxyUpstreamLoading_of_finds (known.forwarded result) finds]

/-- With one version a marked response is checked by the pipeline of its operation. -/
theorem serveLoading_checks (proxy : CompositeServiceProxy) (version : DynamicGatewayState)
    (arrival : Arrival) :
    (serveLoading proxy (fun _ => version) arrival).Returns fun decisions =>
      ChecksBy version (arrival.operation proxy version) decisions.buffers
        decisions.responsePipeline := by
  obtain ⟨fresh, undecoded⟩ := fresh_admitted proxy version arrival
  unfold serveLoading
  unfold Arrival.operation admitted
  unfold admitted at fresh undecoded
  generalize earlyRequestFilter proxy version (arrival.exchange version) = early at fresh undecoded ⊢
  obtain ⟨result, exchange⟩ := early
  cases result with
  | error error =>
    exact (Prog.returns_true _).bind fun _ _ => Prog.Returns.ret (checksBy_none ..)
  | ok _ =>
    dsimp only at fresh undecoded ⊢
    refine (knownAs_requestFilter fresh undecoded).bind fun outcome known => ?_
    cases result : outcome.result with
    | error error =>
      exact (Prog.returns_true _).bind fun _ _ => Prog.Returns.ret (checksBy_none ..)
    | ok answered =>
      cases answered with
      | true => exact (Prog.returns_true _).bind fun _ _ => Prog.Returns.ret (checksBy_none ..)
      | false =>
        refine (proxyUpstreamLoading_checks (known.forwarded result) ..).bind fun forwarded checked => ?_
        exact (Prog.returns_true _).bind fun _ _ => Prog.Returns.ret checked

end Version

def hideAll : ResponseInterceptor := fun _ parts _ =>
  (.reject ⟨.forbidden, "HIDDEN", "Response withheld", none⟩, parts)

/-- All responses are withheld. -/
def withholding : DynamicGatewayState :=
  { smallDynamic [] [] with interceptorManager := ⟨[], [hideAll], [], []⟩ }

/-- Only the dispatch policy is another. -/
def withholdingQuietly : DynamicGatewayState := { withholding with dispatchPolicy := .none }

/-- One reload, between the response filter and the first chunk of the body. -/
def reloadBeforeBody (stored : DynamicGatewayState) (index : Nat) : List DynamicGatewayState :=
  if index = 5 then [stored] else []

theorem runningAt_reloadBeforeBody (stored : DynamicGatewayState) (index : Nat) :
    runningAt withholding (reloadBeforeBody stored) index = if index < 5 then withholding else stored := by
  induction index with
  | zero => rfl
  | succ index inductionHypothesis =>
    have step : runningAt withholding (reloadBeforeBody stored) (index + 1) =
        (reloadBeforeBody stored (index + 1)).getLastD
          (runningAt withholding (reloadBeforeBody stored) index) := rfl
    rw [step, inductionHypothesis]
    by_cases here : index + 1 = 5
    · have reloaded : reloadBeforeBody stored (index + 1) = [stored] := if_pos here
      have late : ¬ index + 1 < 5 := by omega
      rw [reloaded, if_neg late]
      rfl
    · have kept : reloadBeforeBody stored (index + 1) = [] := if_neg here
      rw [kept, List.getLastD_nil]
      by_cases before : index < 5
      · rw [if_pos before, if_pos (by omega)]
      · rw [if_neg before, if_neg (by omega)]

end SpectraGQL.Gateway
