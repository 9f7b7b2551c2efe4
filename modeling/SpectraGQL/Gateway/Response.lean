import SpectraGQL.Gateway.RequestFilter

/-! # The response phases and the logging phase

`response_filter` and `response_body_filter` of `gateway/composite_service.rs` see the
head and the chunks of an upstream response on their way to the client; `logging`, with
`gateway/filters/telemetry.rs`, ends a request.
-/

namespace SpectraGQL.Gateway

open Interaction SpectraGQL.Core SpectraGQL.Http SpectraGQL.Protocol SpectraGQL.Interceptors
open SpectraGQL.Telemetry SpectraGQL.Idempotency

/-! ## The head of a response -/

/-- The context, and the head as it goes to the client. -/
def responseFilter (dynamic : DynamicGatewayState) (ctx : ProxyCtx) (resp : ResponseHeader) :
    ProxyCtx × ResponseHeader :=
  let resp := (resp.appendHeader requestIdHeader ctx.requestId).appendHeader
    hlcHeader ctx.hlc.toCompactString
  let ctx := { ctx with buffer := [], responseParts := some resp }
  if dynamic.interceptorManager.hasResponseInterceptors ctx.activeOperation then
    ({ ctx with hasResponseInterception := true }, resp.removeHeader "content-length")
  else (ctx, resp)

/-! ## The body of a response -/

def maxTelemetryResponseBytes : Nat := 64 * 1024

/-- Whether the response has an error status and errors are captured. -/
def capturesError (dynamic : DynamicGatewayState) (ctx : ProxyCtx) : Bool :=
  (ctx.responseParts.any fun parts => parts.status.isError) && dynamic.errorCapture.enabled

/-- How much of a response that streams through is kept. -/
def captureLimit (dynamic : DynamicGatewayState) (ctx : ProxyCtx) : Nat :=
  if capturesError dynamic ctx then dynamic.errorCapture.maxBodyBytes
  else if ctx.dispatchPolicy ≠ .responseOnly ∧ ctx.dispatchPolicy ≠ .none then
    maxTelemetryResponseBytes
  else 0

/-- Add of a chunk what fits under the limit. -/
def capture (limit : Nat) (buffer chunk : Bytes) : Bytes := buffer ++ chunk.take (limit - buffer.length)

def responseHeaders (ctx : ProxyCtx) : HeaderMap := (ctx.responseParts.map ResponseHeader.headers).getD []

/-- The body as the logging phase sees it, from the bytes kept of it. -/
def noteResponseBody (proxy : CompositeServiceProxy) (ctx : ProxyCtx) (bytes : Bytes) : ProxyCtx :=
  { ctx with
    responseBody := some (ResponseBody.new proxy.crates (responseHeaders ctx) ((fromUtf8 bytes).getD ""))
    buffer := [] }

/-- Without interceptors every chunk goes through as it is. -/
def streamBody (proxy : CompositeServiceProxy) (dynamic : DynamicGatewayState) (ctx : ProxyCtx)
    (body : Option Bytes) (endOfStream : Bool) : ProxyCtx × Option Bytes :=
  let ctx := match body with
    | some chunk => { ctx with buffer := capture (captureLimit dynamic ctx) ctx.buffer chunk }
    | none => ctx
  if endOfStream then
    let ctx := if capturesError dynamic ctx then
        { ctx with errorPreview := some ((fromUtf8 ctx.buffer).getD "") }
      else ctx
    (noteResponseBody proxy ctx ctx.buffer, body)
  else (ctx, body)

def auditPreview (maxBytes : Nat) (buffer : Bytes) : String :=
  fromUtf8Lossy (buffer.take maxBytes) ++ (if buffer.length > maxBytes then "... [truncated]" else "")

/-- The bytes the client gets for the whole body, by the verdict on it. -/
def finalBytes (buffer : Bytes) : InterceptorVerdict → Bytes
  | .pass => buffer
  | .transform _ body => body.getD buffer
  | .reject rejection => asBytes rejection.toGraphqlResponse
  | .audit _ _ _ => buffer

def noteVerdict (proxy : CompositeServiceProxy) (ctx : ProxyCtx) : InterceptorVerdict → ProxyCtx
  | .pass => ctx
  | .transform _ _ => ctx
  | .reject rejection => { ctx with errorPreview := some (rejection.code ++ ": " ++ rejection.message) }
  | .audit ruleName tag _ =>
    { ctx with
      auditTag := tag, auditRule := some ruleName
      responsePreview := some (auditPreview proxy.errorCapture.maxBodyBytes ctx.buffer) }

/-- The verdict of the response pipeline on the whole body; the head the interceptors
    leave is not used. -/
def responseVerdict (dynamic : DynamicGatewayState) (ctx : ProxyCtx) (elapsedMs : Nat) :
    InterceptorVerdict :=
  let pipeline := dynamic.interceptorManager.getResponsePipeline ctx.activeOperation
  let context : InterceptorContext :=
    { requestId := ctx.requestId, hlc := ctx.hlc, operationName := ctx.activeOperation
      durationMs := elapsedMs }
  (pipeline.interceptResponse context (ctx.responseParts.getD (.build .ok)) ctx.buffer).1

/-- With interceptors the client gets nothing before the end of the stream. -/
def interceptBody (proxy : CompositeServiceProxy) (dynamic : DynamicGatewayState) (ctx : ProxyCtx)
    (elapsedMs : Nat) (body : Option Bytes) (endOfStream : Bool) : ProxyCtx × Option Bytes :=
  let ctx := { ctx with buffer := ctx.buffer ++ body.getD [] }
  if endOfStream then
    let verdict := responseVerdict dynamic ctx elapsedMs
    let bytes := finalBytes ctx.buffer verdict
    (noteResponseBody proxy (noteVerdict proxy ctx verdict) bytes, some bytes)
  else (ctx, none)

def responseBodyFilter (proxy : CompositeServiceProxy) (dynamic : DynamicGatewayState)
    (ctx : ProxyCtx) (elapsedMs : Nat) (body : Option Bytes) (endOfStream : Bool) :
    ProxyCtx × Option Bytes :=
  if ctx.hasResponseInterception then interceptBody proxy dynamic ctx elapsedMs body endOfStream
  else streamBody proxy dynamic ctx body endOfStream

/-! ## Logging -/

def isQuiet (policy : ModeADispatchPolicy) : Bool := policy = .responseOnly || policy = .none

/-- The topic to log under.  A request whose topic was never resolved has none, unless an
    operation is known. -/
def loggingTopic (ctx : ProxyCtx) (info : RequestInfo) : Option String :=
  if ctx.requestTopic = "spectra" then
    match ctx.activeOperation with
    | some operation => some ("operation." ++ toLowercase operation)
    | none => if info.gql.isSome then some (TopicResolver.resolveDispatchTopic info) else none
  else some ctx.requestTopic

def dispatchFailure (proxy : CompositeServiceProxy) (ctx : ProxyCtx) (topic : String)
    (info : RequestInfo) (response : Option ResponseInfo) (error : String) : GatewayProg Unit :=
  if isQuiet ctx.dispatchPolicy then return
  else do
    let _ ← dispatchTerminalEvent (topic ++ ".failed")
      (.failure ctx.requestId ctx.hlc info.operationName (proxy.sanitize info) response error)

def dispatchSuccess (proxy : CompositeServiceProxy) (ctx : ProxyCtx) (topic : String)
    (info : RequestInfo) (response : ResponseInfo) : GatewayProg Unit :=
  if ctx.dispatchPolicy = .none then return
  else do
    let _ ← dispatchTerminalEvent topic
      (.success ctx.requestId ctx.hlc info.operationName (proxy.sanitize info) response)

/-- The body to log; a response of which no chunk was seen has an empty one. -/
def loggedBody (proxy : CompositeServiceProxy) (ctx : ProxyCtx) : ResponseBody :=
  ctx.responseBody.getD (ResponseBody.new proxy.crates (responseHeaders ctx) "")

def completeKey (ctx : ProxyCtx) (status : StatusCode) (headers : HeaderMap) (body : ResponseBody) :
    GatewayProg Unit :=
  match ctx.idempotencyKey with
  | some key => complete key ctx.hlc status.code headers body.recorded
  | none => return

/-- The end of a request that has a topic: an error or an error response releases the key,
    any other response completes it. -/
def concludeRequest (proxy : CompositeServiceProxy) (ctx : ProxyCtx) (topic : String)
    (info : RequestInfo) : Option PingoraError → GatewayProg Unit
  | some error => do
    releaseKey ctx
    dispatchFailure proxy ctx topic info none error.text
  | none =>
    match ctx.responseParts with
    | none => do
      releaseKey ctx
      dispatchFailure proxy ctx topic info
        (some ⟨ctx.requestId, ctx.hlc, loggedBody proxy ctx, []⟩) "No upstream response received"
    | some parts =>
      let response : ResponseInfo := ⟨ctx.requestId, ctx.hlc, loggedBody proxy ctx, parts.headers⟩
      if parts.status.isError then do
        releaseKey ctx
        dispatchFailure proxy ctx topic info (some response)
          ("HTTP " ++ proxy.crates.statusText parts.status)
      else do
        completeKey ctx parts.status parts.headers (loggedBody proxy ctx)
        dispatchSuccess proxy ctx topic info response

/-- What is logged of a request: the decoded request, or else only its head. -/
def loggedRequest (exchange : Exchange) : RequestInfo :=
  exchange.ctx.requestInfo.getD
    (RequestInfo.new exchange.ctx.requestId exchange.ctx.hlc exchange.session.reqHeader)

def isTransportCheck (method : Method) : Bool := method = .options || method = .head

def dispatchLogging (proxy : CompositeServiceProxy) (exchange : Exchange)
    (error : Option PingoraError) : GatewayProg Unit :=
  if exchange.ctx.isReplay then return
  else if exchange.ctx.isModeBTerminated then return
  else if isTransportCheck exchange.session.reqHeader.method then return
  else
    match loggingTopic exchange.ctx (loggedRequest exchange) with
    | none => return
    | some topic => concludeRequest proxy exchange.ctx topic (loggedRequest exchange) error

/-- The traffic record of a request on a GraphQL path that was proxied or failed. -/
def recordProxied (exchange : Exchange) (service : ServiceConfig) (error : Option PingoraError) :
    GatewayProg Unit :=
  let ctx := exchange.ctx
  let gql := ctx.requestInfo.bind RequestInfo.gql
  let uri := ctx.requestInfo.map fun info => info.http.uri
  let exchange := { exchange with ctx := { ctx with
    errorPreview := (error.map PingoraError.text) <|> ctx.errorPreview } }
  recordTrafficEvent exchange
    { operationName := ctx.activeOperation <|> gql.bind GraphQLRequestInfo.operationName
      operationType := (gql.map fun gql => gql.operationType.toString).getD "Query"
      mode := "Sync (Proxy)"
      statusCode := (ctx.responseParts.map fun parts => parts.status.code).getD
        (if error.isSome then 502 else 200)
      receiptStatus := none
      target := "Upstream: " ++ ctx.targetUpstreamAddr.getD service.upstreamAddr
      queryPreview := if ctx.queryPreview.isSome then ctx.queryPreview
        else uri.bind fun uri => if uri.query.getD "" = "" then none else some uri.toString
      variablesPreview := if ctx.queryPreview.isSome then ctx.variablesPreview else none }

/-- Replays and Mode B requests are on record already. -/
def recordLogged (exchange : Exchange) (service : ServiceConfig) (error : Option PingoraError) :
    GatewayProg Unit :=
  let path := exchange.session.reqHeader.uri.path
  if !exchange.ctx.isModeBTerminated && !exchange.ctx.isReplay &&
      (startsWith path "/gql" || startsWith path "/graphql") then
    recordProxied exchange service error
  else return

def logging (proxy : CompositeServiceProxy) (exchange : Exchange) (error : Option PingoraError) :
    GatewayProg Unit :=
  match exchange.ctx.service with
  | none => return
  | some service => do
    recordLogged exchange service error
    dispatchLogging proxy exchange error

end SpectraGQL.Gateway
