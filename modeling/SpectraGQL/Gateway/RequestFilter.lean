import SpectraGQL.Gateway.Filters

/-! # The request phase (`gateway/composite_service.rs`, `request_filter`)

The phase is cut into stages.  A stage either answers the request, which ends the phase,
or hands the exchange on to the next stage.  The phase ends with `ok true` when the
gateway has answered the client itself and with `ok false` when the request goes upstream.
-/

namespace SpectraGQL.Gateway

open Interaction SpectraGQL.Core SpectraGQL.Http SpectraGQL.Protocol SpectraGQL.Interceptors
open SpectraGQL.Telemetry SpectraGQL.Idempotency

/-- How a phase ends, and the exchange it leaves. -/
structure Outcome where
  result : Except PingoraError Bool
  exchange : Exchange

/-- The end of a stage. -/
inductive Stage (α : Type) where
  | done (outcome : Outcome)
  | next (value : α)

namespace Stage

def answered {α : Type} (exchange : Exchange) : Stage α := .done ⟨.ok true, exchange⟩

def failed {α : Type} (error : PingoraError) (exchange : Exchange) : Stage α :=
  .done ⟨.error error, exchange⟩

/-- Go on with `rest` unless the stage has ended the phase. -/
def andThen {α : Type} (stage : GatewayProg (Stage α)) (rest : α → GatewayProg Outcome) :
    GatewayProg Outcome :=
  stage >>= fun
    | .done outcome => .ret outcome
    | .next value => rest value

end Stage

/-! ## Requests the gateway answers before it looks at them -/

def isSubscriptionUpgrade (proxy : CompositeServiceProxy) (parts : RequestParts) : Bool :=
  proxy.subscriptionsEnabled && isWebsocketUpgrade parts.headers &&
    (startsWith parts.uri.path "/graphql" || startsWith parts.uri.path "/gql")

/-- Probes, icons, administration and WebSocket upgrades. -/
def answerAtEdge (proxy : CompositeServiceProxy) (exchange : Exchange) :
    GatewayProg (Stage Exchange) := do
  let parts := exchange.session.reqHeader
  if ← HealthFilter.handle parts.uri.path then return .answered exchange
  else if ← FaviconFilter.handle proxy.faviconSvg parts.uri.path then return .answered exchange
  else
    match ← AdminFilter.handle proxy.adminPrefix parts.uri.path with
    | .error error => return .failed error exchange
    | .ok true => return .answered exchange
    | .ok false =>
      if isSubscriptionUpgrade proxy parts then
        match ← handleWebsocketSubscription with
        | .error error => return .failed error exchange
        | .ok () => return .answered exchange
      else return .next exchange

/-- The headers that identify the request upstream. -/
def stampRequest (exchange : Exchange) : Exchange :=
  let headers := ((exchange.session.reqHeader.headers.appendStr
    requestIdHeader exchange.ctx.requestId).appendStr
    hlcHeader exchange.ctx.hlc.toCompactString).appendStr "x-spectra-app" exchange.ctx.appId
  { exchange with session := { exchange.session with
      reqHeader := { exchange.session.reqHeader with headers := headers } } }

/-! ## Idempotency keys -/

/-- What both kinds of key lead to; the traffic record of a replay says which kind. -/
def afterClaim (exchange : Exchange) (mode : String) (operationName : Option String) :
    Except PingoraError IdempotencyFilter.IdempotencyInterceptResult → GatewayProg (Stage Exchange)
  | .error error => return .failed error exchange
  | .ok .conflict => return .answered exchange
  | .ok .replay => do
    let exchange := { exchange with ctx := { exchange.ctx with isReplay := true } }
    recordTrafficEvent exchange
      { operationName := operationName, operationType := "Mutation", mode := mode
        statusCode := 200, receiptStatus := some "REPLAY", target := "Idempotency Cache" }
    return .answered exchange
  | .ok (.newKey key) => return .next (exchange.setKey (some key))
  | .ok .none => return .next exchange

def claimExplicitKey (exchange : Exchange) : GatewayProg (Stage Exchange) :=
  IdempotencyFilter.handleExplicitKey exchange.session.reqHeader.headers exchange.ctx >>=
    afterClaim exchange "Replay (Idempotency)" none

/-- The key of a mutation that came without one; `body` is the body after the pipeline. -/
def claimFingerprint (proxy : CompositeServiceProxy) (exchange : Exchange) (info : RequestInfo)
    (body : String) : GatewayProg (Stage Exchange) :=
  if exchange.ctx.idempotencyKey.isNone && (info.gql.any GraphQLRequestInfo.isMutation) then
    let clientId := (exchange.session.reqHeader.headers.getStr "x-forwarded-for").getD "client"
    IdempotencyFilter.handleFingerprint proxy.crates exchange.ctx clientId info.operationName body >>=
      afterClaim exchange "Replay (Fingerprint)" info.operationName
  else return .next exchange

/-! ## The body -/

def maxGatewayBodyBytes : Nat := 10 * 1024 * 1024

inductive BodyRead where
  | failed (error : PingoraError) (buffer : Bytes)
  | tooLarge (buffer : Bytes)
  | complete (buffer : Bytes)

/-- The loop over the chunks of the body. -/
def readBody (readError : Option PingoraError) (buffer : Bytes) : List Bytes → BodyRead
  | [] =>
    match readError with
    | some error => .failed error buffer
    | none => .complete buffer
  | chunk :: rest =>
    if buffer.length + chunk.length > maxGatewayBodyBytes then .tooLarge buffer
    else readBody readError (buffer ++ chunk) rest

def payloadTooLargeBody : String :=
  "\x7b\"errors\":[\x7b\"message\":\"Payload Too Large: request body exceeds 10MB limit\"\x7d]\x7d"

/-- The answer to a body over the limit; the key is given back once the client has it. -/
def refusePayload (exchange : Exchange) : GatewayProg Outcome := do
  let header := ((((ResponseHeader.build .payloadTooLarge).insertHeader
    "content-type" "application/json").insertHeader
    "content-length" (contentLength payloadTooLargeBody)).insertHeader
    requestIdHeader exchange.ctx.requestId).insertHeader
    hlcHeader exchange.ctx.hlc.toCompactString
  if ← writeResponse header payloadTooLargeBody then
    match exchange.ctx.idempotencyKey with
    | some key => do
      remove key
      return ⟨.ok true, exchange.setKey none⟩
    | none => return ⟨.ok true, exchange⟩
  else return ⟨.ok true, exchange⟩

def setBuffer (exchange : Exchange) (buffer : Bytes) : Exchange :=
  { exchange with ctx := { exchange.ctx with buffer := buffer } }

/-- Only the body of a POST request is read. -/
def readRequestBody (exchange : Exchange) : GatewayProg (Stage Exchange) :=
  if exchange.session.reqHeader.method = .post then
    match readBody exchange.session.readError exchange.ctx.buffer exchange.session.chunks with
    | .failed error buffer => return .failed error (setBuffer exchange buffer)
    | .tooLarge buffer => do return .done (← refusePayload (setBuffer exchange buffer))
    | .complete buffer => return .next (setBuffer exchange buffer)
  else return .next exchange

/-! ## Topics and previews -/

/-- `trim_start_matches`: the text without any leading copies of `pattern`. -/
def trimStartMatches (pattern text : List Char) : Nat → List Char
  | 0 => text
  | fuel + 1 =>
    if pattern.isPrefixOf text then trimStartMatches pattern (text.drop pattern.length) fuel else text

/-- The topic of a request within its app. -/
def appTopic (appPrefix : Option String) (baseTopic : String) : String :=
  match appPrefix with
  | none => baseTopic
  | some topicPrefix =>
    let kind := String.ofList (baseTopic.toList.takeWhile (· ≠ '.'))
    let op := String.ofList ((baseTopic.toList.dropWhile (· ≠ '.')).drop 1)
    if baseTopic.toList.contains '.' then
      if (kind = "query" ∨ kind = "subscription") ∧ startsWith topicPrefix "mutation." then
        kind ++ "." ++ String.ofList (trimStartMatches "mutation.".toList topicPrefix.toList
          topicPrefix.toList.length) ++ "." ++ op
      else topicPrefix ++ "." ++ op
    else topicPrefix ++ "." ++ baseTopic

/-- The subject prefix of the request's app; an app that is not configured is named as it is. -/
def appPrefix (dynamic : DynamicGatewayState) (appId : String) : Option String :=
  ((dynamic.apps.find? fun app => app.id = appId).map SpectraAppConfig.effectiveSubjectPrefix) <|>
    (if appId = "" then none else some ("mutation." ++ appId))

def queryPreview (info : RequestInfo) (body : String) : Option String :=
  match info.gql with
  | some gql => (gql.jsonBody.get "query").bind Json.asStr
  | none => if body = "" then none else some (String.ofList (body.toList.take 500))

def variablesPreview (info : RequestInfo) : Option String :=
  info.gql.bind fun gql => (gql.jsonBody.get "variables").bind fun vars =>
    if vars.isNull || vars.isEmptyObject then none else some vars.toString

/-- What the context learns from a decoded request. -/
def noteRequest (dynamic : DynamicGatewayState) (exchange : Exchange) (info : RequestInfo)
    (body : String) : Exchange :=
  { exchange with ctx := { exchange.ctx with
      requestTopic := appTopic (appPrefix dynamic exchange.ctx.appId)
        (TopicResolver.resolveDispatchTopic info)
      requestInfo := some info
      activeOperation := info.operationName
      queryPreview := queryPreview info body
      variablesPreview := variablesPreview info } }

/-! ## The interceptor pipeline -/

def interceptorContext (ctx : ProxyCtx) (info : RequestInfo) : InterceptorContext where
  requestId := ctx.requestId
  hlc := ctx.hlc
  operationName := info.operationName
  operationType := info.gql.map GraphQLRequestInfo.operationType
  jsonBody := info.gql.map GraphQLRequestInfo.jsonBody

def operationTypeText (info : RequestInfo) : String :=
  (info.gql.map fun gql => gql.operationType.toString).getD "GQL"

def rejectionPayload (exchange : Exchange) (info : RequestInfo) (rejection : InterceptorRejection)
    (timestamp : Nat) : String :=
  let text := fun value : Option String => Json.ofOption (value.map Json.string)
  Json.toString (Json.ofMembers [
    ("requestId", .string exchange.ctx.requestId),
    ("hlc", .string exchange.ctx.hlc.toCompactString),
    ("operationName", text info.operationName),
    ("operationType", .string (operationTypeText info)),
    ("rejectionCode", .string rejection.code),
    ("statusCode", .number (String.ofList (Nat.toDigits 10 rejection.statusCode.code.toNat))),
    ("reason", .string rejection.message),
    ("clientIp", .string exchange.session.clientIp),
    ("timestamp", .number (String.ofList (Nat.toDigits 10 timestamp))),
    ("queryPreview", text exchange.ctx.queryPreview),
    ("variablesPreview", text exchange.ctx.variablesPreview)])

/-- Give the key back, if there is one. -/
def releaseKey (ctx : ProxyCtx) : GatewayProg Unit :=
  match ctx.idempotencyKey with
  | some key => remove key
  | none => return

/-- The client gets the error; an audit event follows if it took it. -/
def answerRejection (exchange : Exchange) (info : RequestInfo) (rejection : InterceptorRejection) :
    GatewayProg Outcome := do
  let body := rejection.toGraphqlResponse
  let header := ((((ResponseHeader.build rejection.statusCode).insertHeader
    "content-type" "application/json").insertHeader
    requestIdHeader exchange.ctx.requestId).insertHeader
    hlcHeader exchange.ctx.hlc.toCompactString).insertHeader
    "content-length" (contentLength body)
  if ← writeResponse header body then do
    let topic := TopicResolver.rejectionTopic (toLowercase (info.operationName.getD "anonymous"))
    let timestamp ← nowEpochMs
    let _ ← dispatchPayload topic (rejectionPayload exchange info rejection timestamp)
    recordTrafficEvent exchange
      { operationName := info.operationName, operationType := operationTypeText info
        mode := "Rejected (Edge)", statusCode := rejection.statusCode.code
        receiptStatus := some "REJECTED", target := "Sink: " ++ topic
        errorPreview := some (rejection.code ++ ": " ++ rejection.message) }
    return ⟨.ok true, exchange⟩
  else return ⟨.ok true, exchange⟩

def rejectRequest (exchange : Exchange) (info : RequestInfo) (rejection : InterceptorRejection) :
    GatewayProg Outcome := do
  releaseKey exchange.ctx
  answerRejection (exchange.setKey none) info rejection

/-- The first value of each name. -/
def firstValues : HeaderMap → HeaderMap
  | [] => []
  | header :: rest => header :: (firstValues rest).filter fun other => other.1 ≠ header.1

/-- Headers of a transformation replace those of the request; iterating over a header map
    names each header only at its first value. -/
def transformHeaders (headers : HeaderMap) : Option HeaderMap → HeaderMap
  | none => headers
  | some new => (firstValues new).foldl
      (fun headers header => headers.insertStr header.1 ((HeaderValue.toStr header.2).getD "")) headers

/-- The exchange and the body text after a transformation; bytes that are no text replace
    the buffer and leave the text. -/
def transformRequest (exchange : Exchange) (body : String) (headers : Option HeaderMap)
    (newBody : Option Bytes) : Exchange × String :=
  let parts := exchange.session.reqHeader
  let exchange := { exchange with session := { exchange.session with
    reqHeader := { parts with headers := transformHeaders parts.headers headers } } }
  match newBody with
  | none => (exchange, body)
  | some bytes => (setBuffer exchange bytes, (fromUtf8 bytes).getD body)

def noteAudit (exchange : Exchange) (ruleName : String) (tag : Option String) : Exchange :=
  { exchange with ctx := { exchange.ctx with auditTag := tag, auditRule := some ruleName } }

/-- What a verdict leads to. -/
def afterVerdict (exchange : Exchange) (info : RequestInfo) (body : String) :
    InterceptorVerdict → GatewayProg (Stage (Exchange × String))
  | .pass => return .next (exchange, body)
  | .audit ruleName tag _ => return .next (noteAudit exchange ruleName tag, body)
  | .reject rejection => do return .done (← rejectRequest exchange info rejection)
  | .transform headers newBody => return .next (transformRequest exchange body headers newBody)

def runPipeline (dynamic : DynamicGatewayState) (exchange : Exchange) (info : RequestInfo)
    (body : String) : GatewayProg (Stage (Exchange × String)) :=
  let pipeline := dynamic.interceptorManager.getRequestPipeline info.operationName
  if pipeline.isEmpty then return .next (exchange, body)
  else
    interceptRequest pipeline (interceptorContext exchange.ctx info) exchange.session.reqHeader body >>=
      afterVerdict exchange info body

/-! ## Routes -/

def refuseDisabled (exchange : Exchange) (info : RequestInfo) (route : SpectraRouteConfig) :
    GatewayProg Outcome := do
  let message := "Operation '" ++ route.operation ++ "' is disabled by gateway policy"
  let body := Json.toString (Json.ofMembers [("errors", .array [Json.ofMembers [
    ("message", .string message),
    ("extensions", Json.ofMembers [("code", .string "ROUTE_DISABLED"),
      ("operation", .string route.operation)])]])])
  let header := ((ResponseHeader.build .forbidden).insertHeader
    "content-type" "application/json").insertHeader "content-length" (contentLength body)
  if ← writeResponse header body then do
    recordTrafficEvent exchange
      { operationName := info.operationName, operationType := "Mutation"
        mode := "Rejected (Disabled Route)", statusCode := 403, receiptStatus := some "DISABLED"
        target := "Route Policy", errorPreview := some message }
    return ⟨.ok true, exchange⟩
  else return ⟨.ok true, exchange⟩

/-- The upstream and the dispatch policy of a Mode A route. -/
def overrideRoute (dynamic : DynamicGatewayState) (exchange : Exchange) (route : SpectraRouteConfig) :
    Exchange :=
  { exchange with ctx := { exchange.ctx with
      targetUpstreamAddr :=
        StrategyRouter.resolveModeAUpstream route dynamic.namedUpstreams <|>
          exchange.ctx.targetUpstreamAddr
      dispatchPolicy := route.dispatchPolicy.getD exchange.ctx.dispatchPolicy } }

def forward (proxy : CompositeServiceProxy) (exchange : Exchange) (info : RequestInfo) :
    GatewayProg Outcome := do
  StrategyRouter.handleModeADispatchPolicy proxy exchange.ctx.dispatchPolicy info
  return ⟨.ok false, exchange⟩

def routeRequest (proxy : CompositeServiceProxy) (dynamic : DynamicGatewayState)
    (exchange : Exchange) (info : RequestInfo) : GatewayProg Outcome :=
  match StrategyRouter.matchRoute dynamic.routes info with
  | none => forward proxy exchange info
  | some route =>
    if !route.enabled then refuseDisabled exchange info route
    else if route.mode.isAsyncEdgeCommand then do
      let exchange ← StrategyRouter.handleModeBEdge proxy exchange route info
      recordTrafficEvent exchange
        { operationName := info.operationName, operationType := "Mutation"
          mode := "Async (Receipt)", statusCode := 200, receiptStatus := some route.receiptStatus
          target := "NATS: " ++ exchange.ctx.requestTopic }
      return ⟨.ok true, exchange⟩
    else forward proxy (overrideRoute dynamic exchange route) info

/-! ## The phase -/

/-- The stages that follow a successful decoding. -/
def filterDecoded (proxy : CompositeServiceProxy) (dynamic : DynamicGatewayState)
    (exchange : Exchange) (info : RequestInfo) (body : String) : GatewayProg Outcome :=
  Stage.andThen (runPipeline dynamic (noteRequest dynamic exchange info body) info body)
    fun (exchange, body) =>
      Stage.andThen (claimFingerprint proxy exchange info body) fun exchange =>
        routeRequest proxy dynamic exchange info

/-- The service of a request decodes its body, when there is a body, it is text and there
    is a service. -/
def decodeBody (proxy : CompositeServiceProxy) (exchange : Exchange) : Option (String × RequestInfo) :=
  if exchange.ctx.buffer = [] then none
  else do
    let body ← fromUtf8 exchange.ctx.buffer
    let service ← exchange.ctx.service
    match service.requestProtocol.decodeRequest proxy.crates exchange.ctx.requestId exchange.ctx.hlc
        exchange.session.reqHeader body with
    | .ok info => some (body, info)
    | .error _ => none

/-- A body that cannot be decoded, for whatever reason, goes upstream as it is. -/
def filterBody (proxy : CompositeServiceProxy) (dynamic : DynamicGatewayState)
    (exchange : Exchange) : GatewayProg Outcome :=
  match decodeBody proxy exchange with
  | some (body, info) => filterDecoded proxy dynamic exchange info body
  | none => return ⟨.ok false, exchange⟩

def requestFilter (proxy : CompositeServiceProxy) (dynamic : DynamicGatewayState)
    (exchange : Exchange) : GatewayProg Outcome :=
  Stage.andThen (answerAtEdge proxy exchange) fun exchange =>
    Stage.andThen (claimExplicitKey (stampRequest exchange)) fun exchange =>
      Stage.andThen (readRequestBody exchange) fun exchange =>
        filterBody proxy dynamic exchange

end SpectraGQL.Gateway
