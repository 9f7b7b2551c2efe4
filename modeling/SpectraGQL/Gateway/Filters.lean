import SpectraGQL.Gateway.Context

/-! # The filters of the gateway (`gateway/filters/{health,favicon,admin,idempotency,strategy}.rs`) -/

namespace SpectraGQL.Gateway

open Interaction SpectraGQL.Core SpectraGQL.Http SpectraGQL.Protocol SpectraGQL.Interceptors
open SpectraGQL.Telemetry SpectraGQL.Idempotency

def requestIdHeader : String := "x-spectra-request-id"
def hlcHeader : String := "x-spectra-hlc"
def replayHeader : String := "x-spectra-idempotent-replay"

def exposedHeaders : String :=
  "x-spectra-request-id, x-spectra-hlc, x-spectra-dispatch, x-spectra-idempotent-replay"

/-- `text.len().to_string()`. -/
def contentLength (text : String) : String := String.ofList (Nat.toDigits 10 text.utf8ByteSize)

/-! ## Probes, icons, administration -/

namespace HealthFilter

def isHealthProbe (path : String) : Bool := path == "/healthz" || path == "/livez"

def healthzBody : String :=
  Json.toString (Json.ofMembers [("status", .string "ok"), ("service", .string "spectragql"),
    ("version", .string "0.1.0")])

def livezBody : String :=
  Json.toString (Json.ofMembers [("status", .string "live"), ("gateway", .string "ready"),
    ("broker", .string "connected")])

/-- Both probes answer alike, with their own body. -/
def answer (body : String) : GatewayProg Unit := do
  let header := (((ResponseHeader.build .ok).insertHeader "content-type" "application/json").insertHeader
    "content-length" (contentLength body)).insertHeader "cache-control" "no-store"
  let _ ← writeResponse header body

/-- Says whether the request was a probe, and so is answered. -/
def handle (path : String) : GatewayProg Bool :=
  if path = "/healthz" then do answer healthzBody; return true
  else if path = "/livez" then do answer livezBody; return true
  else return false

end HealthFilter

namespace FaviconFilter

def isFaviconRequest (path : String) : Bool :=
  path == "/favicon.ico" || path == "/favicon.svg" || path == "/admin/favicon.ico" ||
    path == "/admin/favicon.svg" || path == "/apple-touch-icon.png" ||
    path == "/apple-touch-icon-precomposed.png"

def handle (faviconSvg path : String) : GatewayProg Bool :=
  if isFaviconRequest path then do
    let header := (((ResponseHeader.build .ok).insertHeader "content-type" "image/svg+xml").insertHeader
      "content-length" (contentLength faviconSvg)).insertHeader
      "cache-control" "public, max-age=86400, immutable"
    let _ ← writeResponse header faviconSvg
    return true
  else return false

end FaviconFilter

namespace AdminFilter

/-- `adminPrefix` is the path prefix of the admin engine, when that is enabled. -/
def isAdminRequest (adminPrefix : Option String) (path : String) : Bool :=
  match adminPrefix with
  | some pathPrefix => path == pathPrefix || startsWith path (pathPrefix ++ "/")
  | none => false

def handle (adminPrefix : Option String) (path : String) : GatewayProg (Except PingoraError Bool) :=
  if isAdminRequest adminPrefix path then do
    match ← handleAdmin with
    | .ok () => return .ok true
    | .error error => return .error error
  else return .ok false

end AdminFilter

/-- An upgrade to a WebSocket (`subscriptions/protocol.rs`). -/
def isWebsocketUpgrade (headers : HeaderMap) : Bool :=
  ((headers.get "upgrade").any fun value =>
    (value.map fun byte => (Char.ofUInt8 byte).toLower) == "websocket".toList) &&
  ((headers.get "connection").any fun value =>
    (splitOn ',' ((HeaderValue.toStr value).getD "")).any fun part =>
      eqIgnoreAsciiCase (trim part) "upgrade")

/-! ## Idempotency -/

namespace IdempotencyFilter

inductive IdempotencyInterceptResult where
  | conflict
  | replay
  | newKey (key : String)
  | none

/-- A header whose value is text with something in it besides blanks. -/
def keyFrom (headers : HeaderMap) (name : String) : Option String :=
  (headers.getStr name).bind fun text => if trim text = "" then none else some (trim text)

def extractIdempotencyKey (headers : HeaderMap) : Option String :=
  keyFrom headers "idempotency-key" <|> keyFrom headers "x-idempotency-key"

def computeFingerprint (crates : Crates) (clientId : String) (operationName : Option String)
    (body : String) : String :=
  "sha256:" ++ crates.sha256
    (asBytes (clientId ++ ":" ++ operationName.getD "anonymous" ++ ":" ++ body))

def conflictHeader (requestId : RequestId) (hlc : HlcTimestamp) (body : String) : ResponseHeader :=
  ((((ResponseHeader.build .conflict).insertHeader "content-type" "application/json").insertHeader
    "content-length" (contentLength body)).insertHeader requestIdHeader requestId).insertHeader
    hlcHeader hlc.toCompactString

/-- The header of a replay: the cached headers in their order, a later one replacing an
    earlier one of its name, then the gateway's own. -/
def replayResponseHeader (requestId : RequestId) (hlc : HlcTimestamp) (status : StatusCode)
    (headers : List (String × String)) (body : String) : ResponseHeader :=
  let cached := headers.foldl (fun header pair => header.insertHeader pair.1 pair.2)
    (ResponseHeader.build status)
  ((((((cached.insertHeader "content-type" "application/json").insertHeader
    "content-length" (contentLength body)).insertHeader
    "access-control-allow-origin" "*").insertHeader
    "access-control-expose-headers" exposedHeaders).insertHeader
    replayHeader "true").insertHeader
    requestIdHeader requestId).insertHeader
    hlcHeader hlc.toCompactString

def invalidStatus : PingoraError := ⟨"invalid status code"⟩

def writeReplayResponse (requestId : RequestId) (hlc : HlcTimestamp) (statusCode : UInt16)
    (headers : List (String × String)) (body : String) : GatewayProg (Except PingoraError Unit) :=
  match StatusCode.fromU16 statusCode with
  | none => return .error invalidStatus
  | some status => do
    let _ ← writeResponse (replayResponseHeader requestId hlc status headers body) body
    return .ok ()

/-- A conflict or a replay is answered here.  The message of a conflict names the key when
    the client chose it. -/
def answerClaim (ctx : ProxyCtx) (key : String) (shownKey : Option String) :
    IdempotencyOutcome → GatewayProg (Except PingoraError IdempotencyInterceptResult)
  | .conflict conflictHlc => do
    let body := conflictResponse shownKey conflictHlc
    let _ ← writeResponse (conflictHeader ctx.requestId ctx.hlc body) body
    return .ok .conflict
  | .replay _ statusCode headers body => do
    match ← writeReplayResponse ctx.requestId ctx.hlc statusCode headers body with
    | .ok () => return .ok .replay
    | .error error => return .error error
  | .new => return .ok (.newKey key)

/-- Claim a key at the engine. -/
def claimKey (ctx : ProxyCtx) (key : String) (shownKey : Option String) :
    GatewayProg (Except PingoraError IdempotencyInterceptResult) :=
  checkOrInsert key ctx.hlc >>= answerClaim ctx key shownKey

def handleExplicitKey (headers : HeaderMap) (ctx : ProxyCtx) :
    GatewayProg (Except PingoraError IdempotencyInterceptResult) :=
  match extractIdempotencyKey headers with
  | some key => claimKey ctx key (some key)
  | none => return .ok .none

def handleFingerprint (crates : Crates) (ctx : ProxyCtx) (clientId : String)
    (operationName : Option String) (body : String) :
    GatewayProg (Except PingoraError IdempotencyInterceptResult) :=
  claimKey ctx (computeFingerprint crates clientId operationName body) none

end IdempotencyFilter

/-! ## Routing -/

namespace StrategyRouter

def matchRoute (routes : List SpectraRouteConfig) (info : RequestInfo) : Option SpectraRouteConfig :=
  info.gql.bind fun gql => routes.find? fun route => gql.matchesOperation route.operation

/-- The receipt of a command; members are in the order of their names. -/
def generateCommandReceipt (fieldOrOp : String) (commandId : RequestId) (hlc : HlcTimestamp)
    (receiptStatus : String) : Json :=
  Json.ofMembers [("data", Json.ofMembers [(fieldOrOp, Json.ofMembers
    [("commandId", .string commandId), ("hlc", .string hlc.toCompactString),
      ("status", .string receiptStatus)])])]

/-- The body of the answer to a Mode B request. -/
def receiptBody (ctx : ProxyCtx) (route : SpectraRouteConfig) (info : RequestInfo)
    (dispatchOk : Bool) : String :=
  let fieldName := ((info.gql.bind fun gql => gql.rootFields.head?) <|> info.operationName).getD
    route.operation
  Json.toString (generateCommandReceipt fieldName ctx.requestId ctx.hlc
    (if dispatchOk then route.receiptStatus else "DISPATCH_FAILED"))

/-- The headers kept with a receipt. -/
def receiptHeaders (ctx : ProxyCtx) : HeaderMap :=
  ((HeaderMap.insertStr [] "content-type" "application/json").insertStr
    requestIdHeader ctx.requestId).insertStr hlcHeader ctx.hlc.toCompactString

def receiptHeader (ctx : ProxyCtx) (body : String) (dispatchOk : Bool) : ResponseHeader :=
  let header := ((((((ResponseHeader.build .ok).insertHeader
    "content-type" "application/json").insertHeader
    "content-length" (contentLength body)).insertHeader
    "access-control-allow-origin" "*").insertHeader
    "access-control-expose-headers" exposedHeaders).insertHeader
    requestIdHeader ctx.requestId).insertHeader
    hlcHeader ctx.hlc.toCompactString
  if dispatchOk then header else header.insertHeader "x-spectra-dispatch" "failed"

/-- Complete the key of a command that was dispatched, release it otherwise. -/
def settleKey (ctx : ProxyCtx) (dispatchOk : Bool) (body : String) : GatewayProg Unit :=
  match ctx.idempotencyKey with
  | none => return
  | some key =>
    if dispatchOk then complete key ctx.hlc 200 (receiptHeaders ctx) body else remove key

/-- Mode B: commit the command to the broker and answer with a receipt. -/
def handleModeBEdge (proxy : CompositeServiceProxy) (exchange : Exchange)
    (route : SpectraRouteConfig) (info : RequestInfo) : GatewayProg Exchange := do
  let dispatchOk ← dispatchRequestInfo (proxy.sanitize info)
  let body := receiptBody exchange.ctx route info dispatchOk
  settleKey exchange.ctx dispatchOk body
  let _ ← writeResponse (receiptHeader exchange.ctx body dispatchOk) body
  return { exchange with ctx := { exchange.ctx with isModeBTerminated := true } }

def resolveModeAUpstream (route : SpectraRouteConfig) (namedUpstreams : List (String × SocketAddr)) :
    Option SocketAddr :=
  route.upstream.bind fun name => namedUpstreams.lookup name

def handleModeADispatchPolicy (proxy : CompositeServiceProxy) (policy : ModeADispatchPolicy)
    (info : RequestInfo) : GatewayProg Unit :=
  match policy with
  | .rawAudit => do let _ ← dispatchRequestInfo (proxy.sanitize info)
  | .responseOnly | .responseWithFailure | .none => return

end StrategyRouter

end SpectraGQL.Gateway
