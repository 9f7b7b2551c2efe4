import SpectraGQL.Interaction.Prog
import SpectraGQL.Interceptors.Pipeline
import SpectraGQL.Telemetry.Event

/-! # The gateway's configuration, its context and the calls it makes

`CompositeServiceProxy` is one gateway, `DynamicGatewayState` the part of its
configuration that is loaded anew for every phase, `ProxyCtx` what it keeps about one
request from phase to phase.  A phase is a program over `gatewaySignature`: it talks to
the idempotency engine, the broker, the client and the interceptors by calls, whose
meaning is given later, and does everything else itself.
-/

namespace SpectraGQL.Gateway

open Interaction SpectraGQL.Core SpectraGQL.Http SpectraGQL.Protocol SpectraGQL.Interceptors
open SpectraGQL.Telemetry SpectraGQL.Idempotency

/-! ## Configuration -/

inductive ModeADispatchPolicy where
  | responseWithFailure | responseOnly | rawAudit | none
  deriving DecidableEq, Repr

inductive ExecutionStrategy where
  | syncUpstreamExecution | asyncCommandReceipt
  deriving DecidableEq, Repr

def ExecutionStrategy.isAsyncEdgeCommand (strategy : ExecutionStrategy) : Bool :=
  strategy = .asyncCommandReceipt

abbrev SocketAddr := String

structure SpectraRouteConfig where
  operation : String
  mode : ExecutionStrategy
  enabled : Bool
  upstream : Option String
  receiptStatus : String
  dispatchPolicy : Option ModeADispatchPolicy
  deriving DecidableEq, Repr

structure SpectraAppConfig where
  id : String
  domains : List String
  pathPrefixes : List String
  upstream : String
  subjectPrefix : Option String
  deriving DecidableEq, Repr

def SpectraAppConfig.effectiveSubjectPrefix (app : SpectraAppConfig) : String :=
  app.subjectPrefix.getD ("mutation." ++ app.id)

structure ErrorCaptureConfig where
  enabled : Bool
  maxBodyBytes : Nat
  deriving DecidableEq, Repr

structure DynamicGatewayState where
  namedUpstreams : List (String × SocketAddr)
  dispatchPolicy : ModeADispatchPolicy
  /-- The values of the route table, in the order in which it is iterated. -/
  routes : List SpectraRouteConfig
  apps : List SpectraAppConfig
  defaultApp : Option String
  interceptorManager : InterceptorManager
  errorCapture : ErrorCaptureConfig

structure ServiceConfig where
  requestProtocol : ProtocolDecoder
  upstreamAddr : SocketAddr

structure CompositeServiceProxy where
  crates : Crates
  /-- `RequestInfo::into_sanitized`. -/
  sanitize : RequestInfo → RequestInfo
  /-- The service that the path router finds. -/
  serviceByPath : String → Option ServiceConfig
  /-- The path prefix of the admin engine, when it is enabled. -/
  adminPrefix : Option String
  subscriptionsEnabled : Bool
  errorCapture : ErrorCaptureConfig
  faviconSvg : String

/-! ## Context -/

/-- A pingora error, as it is printed. -/
structure PingoraError where
  text : String
  deriving DecidableEq, Repr

/-- A request as the client sends it: its head, the chunks of its body, and whether
    reading fails after them. -/
structure Session where
  reqHeader : RequestParts
  clientIp : String
  chunks : List Bytes
  readError : Option PingoraError

structure ProxyCtx where
  requestId : RequestId
  hlc : HlcTimestamp
  requestTopic : String := "spectra"
  requestInfo : Option RequestInfo := none
  responseParts : Option ResponseHeader := none
  responseBody : Option ResponseBody := none
  buffer : Bytes := []
  idempotencyKey : Option String := none
  isReplay : Bool := false
  targetUpstreamAddr : Option SocketAddr := none
  isModeBTerminated : Bool := false
  dispatchPolicy : ModeADispatchPolicy
  activeOperation : Option String := none
  hasResponseInterception : Bool := false
  queryPreview : Option String := none
  variablesPreview : Option String := none
  appId : String
  auditTag : Option String := none
  auditRule : Option String := none
  responsePreview : Option String := none
  errorPreview : Option String := none
  service : Option ServiceConfig := none

/-- A request in the gateway. -/
structure Exchange where
  session : Session
  ctx : ProxyCtx

def Exchange.setKey (exchange : Exchange) (key : Option String) : Exchange :=
  { exchange with ctx := { exchange.ctx with idempotencyKey := key } }

/-- `record_traffic_event`, less its clock readings. -/
structure TrafficRecord where
  id : String
  hlc : String
  clientIp : String
  method : String
  path : String
  appId : String
  operationName : Option String
  operationType : String
  mode : String
  statusCode : UInt16
  receiptStatus : Option String
  target : String
  queryPreview : Option String
  variablesPreview : Option String
  auditTag : Option String
  auditRule : Option String
  responsePreview : Option String
  errorPreview : Option String
  deriving DecidableEq, Repr

structure TrafficEventDetails where
  operationName : Option String
  operationType : String
  mode : String
  statusCode : UInt16
  receiptStatus : Option String
  target : String
  queryPreview : Option String := none
  variablesPreview : Option String := none
  auditTag : Option String := none
  auditRule : Option String := none
  responsePreview : Option String := none
  errorPreview : Option String := none

def trafficRecord (exchange : Exchange) (details : TrafficEventDetails) : TrafficRecord where
  id := exchange.ctx.requestId
  hlc := exchange.ctx.hlc.toCompactString
  clientIp := exchange.session.clientIp
  method := exchange.session.reqHeader.method.toString
  path := exchange.session.reqHeader.uri.path
  appId := exchange.ctx.appId
  operationName := details.operationName
  operationType := details.operationType
  mode := details.mode
  statusCode := details.statusCode
  receiptStatus := details.receiptStatus
  target := details.target
  queryPreview := details.queryPreview <|> exchange.ctx.queryPreview
  variablesPreview := details.variablesPreview <|> exchange.ctx.variablesPreview
  auditTag := details.auditTag <|> exchange.ctx.auditTag
  auditRule := details.auditRule <|> exchange.ctx.auditRule
  responsePreview := details.responsePreview <|> exchange.ctx.responsePreview
  errorPreview := details.errorPreview <|> exchange.ctx.errorPreview

/-! ## Calls -/

inductive GatewayCall where
  | checkOrInsert (key : String) (hlc : HlcTimestamp)
  | complete (key : String) (hlc : HlcTimestamp) (statusCode : UInt16) (headers : HeaderMap)
      (body : String)
  | remove (key : String)
  | interceptRequest (pipeline : RequestInterceptorPipeline) (context : InterceptorContext)
      (parts : RequestParts) (body : String)
  | dispatchRequestInfo (request : RequestInfo)
  | dispatchTerminalEvent (topic : String) (event : TerminalEvent)
  | dispatchPayload (topic payload : String)
  | writeResponseHeader (header : ResponseHeader)
  | writeResponseBody (body : Bytes)
  | handleAdmin
  | handleWebsocketSubscription
  | recordTraffic (record : TrafficRecord)
  | nowEpochMs

/-- Answers: outcomes of the engine, verdicts of the interceptors, whether a write or a
    dispatch went through. -/
def GatewayCall.Answer : GatewayCall → Type
  | .checkOrInsert _ _ => IdempotencyOutcome
  | .complete _ _ _ _ _ => Unit
  | .remove _ => Unit
  | .interceptRequest _ _ _ _ => InterceptorVerdict
  | .dispatchRequestInfo _ => Bool
  | .dispatchTerminalEvent _ _ => Bool
  | .dispatchPayload _ _ => Bool
  | .writeResponseHeader _ => Bool
  | .writeResponseBody _ => Bool
  | .handleAdmin => Except PingoraError Unit
  | .handleWebsocketSubscription => Except PingoraError Unit
  | .recordTraffic _ => Unit
  | .nowEpochMs => Nat

abbrev gatewaySignature : Signature := ⟨GatewayCall, GatewayCall.Answer⟩

abbrev GatewayProg (α : Type) := Prog gatewaySignature α

def checkOrInsert (key : String) (hlc : HlcTimestamp) : GatewayProg IdempotencyOutcome :=
  Prog.perform (S := gatewaySignature) (.checkOrInsert key hlc)

def complete (key : String) (hlc : HlcTimestamp) (statusCode : UInt16) (headers : HeaderMap)
    (body : String) : GatewayProg Unit :=
  Prog.perform (S := gatewaySignature) (.complete key hlc statusCode headers body)

def remove (key : String) : GatewayProg Unit :=
  Prog.perform (S := gatewaySignature) (.remove key)

def interceptRequest (pipeline : RequestInterceptorPipeline) (context : InterceptorContext)
    (parts : RequestParts) (body : String) : GatewayProg InterceptorVerdict :=
  Prog.perform (S := gatewaySignature) (.interceptRequest pipeline context parts body)

def dispatchRequestInfo (request : RequestInfo) : GatewayProg Bool :=
  Prog.perform (S := gatewaySignature) (.dispatchRequestInfo request)

def dispatchTerminalEvent (topic : String) (event : TerminalEvent) : GatewayProg Bool :=
  Prog.perform (S := gatewaySignature) (.dispatchTerminalEvent topic event)

def dispatchPayload (topic payload : String) : GatewayProg Bool :=
  Prog.perform (S := gatewaySignature) (.dispatchPayload topic payload)

def writeResponseHeader (header : ResponseHeader) : GatewayProg Bool :=
  Prog.perform (S := gatewaySignature) (.writeResponseHeader header)

def writeResponseBody (body : Bytes) : GatewayProg Bool :=
  Prog.perform (S := gatewaySignature) (.writeResponseBody body)

def handleAdmin : GatewayProg (Except PingoraError Unit) :=
  Prog.perform (S := gatewaySignature) .handleAdmin

def handleWebsocketSubscription : GatewayProg (Except PingoraError Unit) :=
  Prog.perform (S := gatewaySignature) .handleWebsocketSubscription

def recordTraffic (record : TrafficRecord) : GatewayProg Unit :=
  Prog.perform (S := gatewaySignature) (.recordTraffic record)

def nowEpochMs : GatewayProg Nat := Prog.perform (S := gatewaySignature) .nowEpochMs

def recordTrafficEvent (exchange : Exchange) (details : TrafficEventDetails) : GatewayProg Unit :=
  recordTraffic (trafficRecord exchange details)

/-- Write a response of the gateway's own: a client that is gone gets no body.  Says
    whether all of it was written. -/
def writeResponse (header : ResponseHeader) (body : String) : GatewayProg Bool := do
  if ← writeResponseHeader header then writeResponseBody (asBytes body) else return false

end SpectraGQL.Gateway
