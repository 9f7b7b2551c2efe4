import SpectraGQL.Gateway.Response

/-! # One request from its arrival to its end

The order in which the server calls the phases of the gateway: the early filter, the
request filter, the response filters for a request that is forwarded, and the logging
phase whatever happened before.
-/

namespace SpectraGQL.Gateway

open Interaction SpectraGQL.Core SpectraGQL.Http SpectraGQL.Protocol SpectraGQL.Interceptors
open SpectraGQL.Telemetry SpectraGQL.Idempotency

/-! ## Arrival -/

def newCtx (dynamic : DynamicGatewayState) (requestId : RequestId) (hlc : HlcTimestamp) : ProxyCtx :=
  { requestId := requestId, hlc := hlc, dispatchPolicy := dynamic.dispatchPolicy
    appId := dynamic.defaultApp.getD "default" }

/-- The host without its port. -/
def cleanHost (host : String) : String := trim ((splitOn ':' host).headD host)

def hasPathPrefix (path pathPrefix : String) : Bool :=
  let clean := String.ofList ((pathPrefix.toList.reverse.dropWhile (· = '/')).reverse)
  path == clean || startsWith path (clean ++ "/")

/-- The app of a request: by header, by host, by path, the default one, or the first. -/
def resolveAppWithApps (apps : List SpectraAppConfig) (defaultApp host headerApp : Option String)
    (path : String) : Option SpectraAppConfig :=
  (headerApp.bind fun name => apps.find? fun app => eqIgnoreAsciiCase app.id name) <|>
  (host.bind fun host => apps.find? fun app => app.domains.any fun domain =>
    eqIgnoreAsciiCase (cleanHost domain) (cleanHost host)) <|>
  (apps.find? fun app => app.pathPrefixes.any (hasPathPrefix path)) <|>
  (defaultApp.bind fun name => apps.find? fun app => eqIgnoreAsciiCase app.id name) <|>
  apps.head?

/-- The app of a request and the upstream of that app. -/
def resolveApp (dynamic : DynamicGatewayState) (parts : RequestParts) (ctx : ProxyCtx) : ProxyCtx :=
  let host := parts.headers.getStr "host"
  let headerApp := ((parts.headers.get "x-app-id") <|> (parts.headers.get "x-tenant-id")).bind
    HeaderValue.toStr
  let upstream := fun name : String => dynamic.namedUpstreams.lookup name <|> ctx.targetUpstreamAddr
  match resolveAppWithApps dynamic.apps dynamic.defaultApp host headerApp parts.uri.path with
  | some app => { ctx with appId := app.id, targetUpstreamAddr := upstream app.upstream }
  | none =>
    match dynamic.defaultApp with
    | some name =>
      { ctx with
        appId := name
        targetUpstreamAddr :=
          match dynamic.apps.find? fun app => app.id = name with
          | some app => upstream app.upstream
          | none => ctx.targetUpstreamAddr }
    | none => { ctx with targetUpstreamAddr := upstream "default" }

/-- Paths that need no service. -/
def isEdgePath (proxy : CompositeServiceProxy) (path : String) : Bool :=
  HealthFilter.isHealthProbe path || FaviconFilter.isFaviconRequest path ||
    AdminFilter.isAdminRequest proxy.adminPrefix path

/-- The app and the service of a request; a path without a service is an error. -/
def earlyRequestFilter (proxy : CompositeServiceProxy) (dynamic : DynamicGatewayState)
    (exchange : Exchange) : Except PingoraError Unit × Exchange :=
  let parts := exchange.session.reqHeader
  if isEdgePath proxy parts.uri.path then (.ok (), exchange)
  else
    let ctx := resolveApp dynamic parts exchange.ctx
    match proxy.serviceByPath parts.uri.path with
    | some service => (.ok (), { exchange with ctx := { ctx with service := some service } })
    | none =>
      (.error ⟨"No route configured for " ++ parts.uri.path ++ "."⟩, { exchange with ctx := ctx })

/-! ## Going upstream -/

def upstreamPeer (dynamic : DynamicGatewayState) (ctx : ProxyCtx) : Except PingoraError SocketAddr :=
  match ctx.targetUpstreamAddr <|> dynamic.namedUpstreams.lookup "default" <|>
      ctx.service.map ServiceConfig.upstreamAddr with
  | some addr => .ok addr
  | none => .error ⟨"No upstream peer available."⟩

/-- A body that was not decoded is collected while it goes upstream. -/
def requestBodyFilter (ctx : ProxyCtx) (body : Bytes) : ProxyCtx :=
  if ctx.requestInfo.isSome then ctx else { ctx with buffer := ctx.buffer ++ body }

/-- What comes back from upstream. -/
inductive Upstream where
  /-- No response: the connection, or writing the request, failed. -/
  | unreachable (error : PingoraError)
  /-- A response; the stream of its body ends with the last chunk, or breaks after it. -/
  | response (head : ResponseHeader) (chunks : List (Option Bytes)) (broken : Option PingoraError)

def clientGone : PingoraError := ⟨"downstream write failed"⟩

/-- Send the chunks of a body through the filter to the client.  The last chunk ends the
    stream unless the stream breaks. -/
def streamChunks (proxy : CompositeServiceProxy) (dynamic : DynamicGatewayState) (elapsedMs : Nat)
    (broken : Option PingoraError) (ctx : ProxyCtx) :
    List (Option Bytes) → GatewayProg (Option PingoraError × ProxyCtx)
  | [] => return (broken, ctx)
  | chunk :: rest =>
    let filtered := responseBodyFilter proxy dynamic ctx elapsedMs chunk
      (rest.isEmpty && broken.isNone)
    match filtered.2 with
    | none => streamChunks proxy dynamic elapsedMs broken filtered.1 rest
    | some bytes => do
      if ← writeResponseBody bytes then streamChunks proxy dynamic elapsedMs broken filtered.1 rest
      else return (some clientGone, filtered.1)

/-- Forward a request and its response; says with which error it ended, if any. -/
def proxyUpstream (proxy : CompositeServiceProxy) (dynamic : DynamicGatewayState)
    (exchange : Exchange) (upstream : Upstream) (elapsedMs : Nat) :
    GatewayProg (Option PingoraError × Exchange) :=
  match upstreamPeer dynamic exchange.ctx with
  | .error error => return (some error, exchange)
  | .ok _ =>
    let ctx := exchange.session.chunks.foldl requestBodyFilter exchange.ctx
    match upstream with
    | .unreachable error => return (some error, { exchange with ctx := ctx })
    | .response head chunks broken => do
      let filtered := responseFilter dynamic ctx head
      if ← writeResponseHeader filtered.2 then
        let streamed ← streamChunks proxy dynamic elapsedMs broken filtered.1 chunks
        return (streamed.1, { exchange with ctx := streamed.2 })
      else return (some clientGone, { exchange with ctx := filtered.1 })

/-! ## The whole -/

/-- All that one request depends on besides the configuration and the answers to the
    gateway's calls. -/
structure Arrival where
  requestId : RequestId
  hlc : HlcTimestamp
  session : Session
  upstream : Upstream
  elapsedMs : Nat

def Arrival.exchange (dynamic : DynamicGatewayState) (arrival : Arrival) : Exchange :=
  ⟨arrival.session, newCtx dynamic arrival.requestId arrival.hlc⟩

/-- What follows the request filter. -/
def afterRequestFilter (proxy : CompositeServiceProxy) (dynamic : DynamicGatewayState)
    (arrival : Arrival) (outcome : Outcome) : GatewayProg Unit :=
  match outcome.result with
  | .error error => logging proxy outcome.exchange (some error)
  | .ok true => logging proxy outcome.exchange none
  | .ok false => do
    let forwarded ← proxyUpstream proxy dynamic outcome.exchange arrival.upstream arrival.elapsedMs
    logging proxy forwarded.2 forwarded.1

def serve (proxy : CompositeServiceProxy) (dynamic : DynamicGatewayState) (arrival : Arrival) :
    GatewayProg Unit :=
  match earlyRequestFilter proxy dynamic (arrival.exchange dynamic) with
  | (.error error, exchange) => logging proxy exchange (some error)
  | (.ok (), exchange) => do
    let outcome ← requestFilter proxy dynamic exchange
    afterRequestFilter proxy dynamic arrival outcome

end SpectraGQL.Gateway
