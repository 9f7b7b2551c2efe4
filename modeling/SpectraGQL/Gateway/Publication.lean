import SpectraGQL.Gateway.Delivery

/-! # What is published of a request

The messages that go to the broker while a request is served.  A program that makes no call
to the broker publishes nothing; `publications_logging` says what the logging phase adds,
from the context that it finds.
-/

namespace SpectraGQL.Gateway

open Interaction SpectraGQL.Core SpectraGQL.Http SpectraGQL.Protocol SpectraGQL.Interceptors
open SpectraGQL.Telemetry SpectraGQL.Idempotency

/-! ## Publications -/

/-- A message for the broker. -/
inductive Publication where
  | request (info : RequestInfo)
  | terminal (topic : String) (event : TerminalEvent)
  | payload (topic text : String)

namespace Publication

/-- The topic that a message goes to; every sink resolves the topic of a request itself. -/
def topic : Publication → String
  | request info => TopicResolver.resolveDispatchTopic info
  | terminal topic _ => topic
  | payload topic _ => topic

end Publication

def GatewayCall.publication? : GatewayCall → Option Publication
  | .dispatchRequestInfo info => some (.request info)
  | .dispatchTerminalEvent topic event => some (.terminal topic event)
  | .dispatchPayload topic text => some (.payload topic text)
  | _ => none

def publications (trace : List (Event gatewaySignature)) : List Publication :=
  trace.filterMap fun event => event.call.publication?

/-- A call that publishes nothing. -/
def Discreet (call : GatewayCall) : Prop := call.publication? = none

section Discreet

variable {α β : Type} (environment : Environment) (world : World)

@[simp] theorem publications_append (trace : List (Event gatewaySignature))
    (event : Event gatewaySignature) :
    publications (trace ++ [event]) = publications trace ++ event.call.publication?.toList := by
  unfold publications
  rw [List.filterMap_append]
  congr 1

theorem publications_handle (call : GatewayCall) :
    publications (handle environment call world).2.trace =
      publications world.trace ++ call.publication?.toList :=
  publications_append ..

theorem publications_run_of_discreet {program : GatewayProg α} (discreet : Prog.Only Discreet program) :
    publications (run environment program world).2.trace = publications world.trace := by
  refine Prog.Only.interp (fun world => publications world.trace) discreet (fun call before isDiscreet => ?_) world
  rw [publications_handle, show call.publication? = none from isDiscreet]
  exact List.append_nil _

theorem IsAnswer.discreet {call : GatewayCall} (isAnswer : IsAnswer call) : Discreet call := by
  cases call <;> first | rfl | cases isAnswer

theorem IsEdgeCall.discreet {call : GatewayCall} (isEdgeCall : IsEdgeCall call) : Discreet call := by
  cases call <;> first | rfl | cases isEdgeCall

theorem discreet_releaseKey (ctx : ProxyCtx) : Prog.Only Discreet (releaseKey ctx) := by
  unfold releaseKey
  cases ctx.idempotencyKey with
  | none => exact Prog.Only.ret _
  | some key => exact Prog.Only.perform rfl

theorem discreet_completeKey (ctx : ProxyCtx) (status : StatusCode) (headers : HeaderMap)
    (body : ResponseBody) : Prog.Only Discreet (completeKey ctx status headers body) := by
  unfold completeKey
  cases ctx.idempotencyKey with
  | none => exact Prog.Only.ret _
  | some key => exact Prog.Only.perform rfl

theorem discreet_recordLogged (exchange : Exchange) (service : ServiceConfig)
    (error : Option PingoraError) : Prog.Only Discreet (recordLogged exchange service error) := by
  unfold recordLogged
  dsimp only
  split
  · exact Prog.Only.perform rfl
  · exact Prog.Only.ret _

theorem discreet_streamChunks (proxy : CompositeServiceProxy) (dynamic : DynamicGatewayState)
    (elapsedMs : Nat) (broken : Option PingoraError) (ctx : ProxyCtx) (chunks : List (Option Bytes)) :
    Prog.Only Discreet (streamChunks proxy dynamic elapsedMs broken ctx chunks) := by
  induction chunks generalizing ctx with
  | nil => exact Prog.Only.ret _
  | cons chunk rest inductionHypothesis =>
    unfold streamChunks
    dsimp only
    split
    · exact inductionHypothesis _
    · refine Prog.Only.bind (Prog.Only.perform rfl) fun written => ?_
      split
      · exact inductionHypothesis _
      · exact Prog.Only.ret _

theorem discreet_proxyUpstream (proxy : CompositeServiceProxy) (dynamic : DynamicGatewayState)
    (exchange : Exchange) (upstream : Upstream) (elapsedMs : Nat) :
    Prog.Only Discreet (proxyUpstream proxy dynamic exchange upstream elapsedMs) := by
  unfold proxyUpstream
  split
  · exact Prog.Only.ret _
  · split
    · exact Prog.Only.ret _
    · refine Prog.Only.bind (Prog.Only.perform rfl) fun written => ?_
      split
      · exact Prog.Only.bind (discreet_streamChunks ..) fun _ => Prog.Only.ret _
      · exact Prog.Only.ret _

end Discreet

/-! ## Logging -/

section Logging

variable (proxy : CompositeServiceProxy) (environment : Environment) (world : World)

/-- The event of a request that has failed. -/
def failurePublications (ctx : ProxyCtx) (topic : String) (info : RequestInfo)
    (response : Option ResponseInfo) (error : String) : List Publication :=
  if isQuiet ctx.dispatchPolicy then []
  else [.terminal (topic ++ ".failed")
    (.failure ctx.requestId ctx.hlc info.operationName (proxy.sanitize info) response error)]

/-- The event of a request that has got a response. -/
def successPublications (ctx : ProxyCtx) (topic : String) (info : RequestInfo)
    (response : ResponseInfo) : List Publication :=
  if ctx.dispatchPolicy = .none then []
  else [.terminal topic
    (.success ctx.requestId ctx.hlc info.operationName (proxy.sanitize info) response)]

/-- A response with a status as the logging phase reports it. -/
def loggedResponse (ctx : ProxyCtx) (headers : HeaderMap) : ResponseInfo :=
  ⟨ctx.requestId, ctx.hlc, loggedBody proxy ctx, headers⟩

/-- What the end of a request that has a topic publishes. -/
def concludedPublications (ctx : ProxyCtx) (topic : String) (info : RequestInfo) :
    Option PingoraError → List Publication
  | some error => failurePublications proxy ctx topic info none error.text
  | none =>
    match ctx.responseParts with
    | none => failurePublications proxy ctx topic info (some (loggedResponse proxy ctx []))
        "No upstream response received"
    | some parts =>
      if parts.status.isError then
        failurePublications proxy ctx topic info (some (loggedResponse proxy ctx parts.headers))
          ("HTTP " ++ proxy.crates.statusText parts.status)
      else successPublications proxy ctx topic info (loggedResponse proxy ctx parts.headers)

/-- What the logging phase publishes. -/
def loggedPublications (exchange : Exchange) (error : Option PingoraError) : List Publication :=
  if exchange.ctx.service.isNone || exchange.ctx.isReplay || exchange.ctx.isModeBTerminated ||
      isTransportCheck exchange.session.reqHeader.method then []
  else
    match loggingTopic exchange.ctx (loggedRequest exchange) with
    | none => []
    | some topic => concludedPublications proxy exchange.ctx topic (loggedRequest exchange) error

theorem publications_dispatchFailure (ctx : ProxyCtx) (topic : String) (info : RequestInfo)
    (response : Option ResponseInfo) (error : String) :
    publications (run environment (dispatchFailure proxy ctx topic info response error) world).2.trace =
      publications world.trace ++ failurePublications proxy ctx topic info response error := by
  unfold dispatchFailure failurePublications
  split
  · exact (List.append_nil _).symm
  · exact publications_append ..

theorem publications_dispatchSuccess (ctx : ProxyCtx) (topic : String) (info : RequestInfo)
    (response : ResponseInfo) :
    publications (run environment (dispatchSuccess proxy ctx topic info response) world).2.trace =
      publications world.trace ++ successPublications proxy ctx topic info response := by
  unfold dispatchSuccess successPublications
  split
  · exact (List.append_nil _).symm
  · exact publications_append ..

theorem publications_concludeRequest (ctx : ProxyCtx) (topic : String) (info : RequestInfo)
    (error : Option PingoraError) :
    publications (run environment (concludeRequest proxy ctx topic info error) world).2.trace =
      publications world.trace ++ concludedPublications proxy ctx topic info error := by
  have released := fun world => publications_run_of_discreet environment world (discreet_releaseKey ctx)
  unfold concludeRequest concludedPublications
  cases error with
  | some error =>
    dsimp only
    rw [run_bind, publications_dispatchFailure, released]
  | none =>
    dsimp only
    cases ctx.responseParts with
    | none =>
      dsimp only
      rw [run_bind, publications_dispatchFailure, released]
      rfl
    | some parts =>
      dsimp only
      split
      · rw [run_bind, publications_dispatchFailure, released]
        rfl
      · rw [run_bind, publications_dispatchSuccess,
          publications_run_of_discreet _ _ (discreet_completeKey ..)]
        rfl

/-- The logging phase adds to what was published before it. -/
theorem publications_logging (exchange : Exchange) (error : Option PingoraError) :
    publications (run environment (logging proxy exchange error) world).2.trace =
      publications world.trace ++ loggedPublications proxy exchange error := by
  unfold logging loggedPublications
  cases exchange.ctx.service with
  | none => exact (List.append_nil _).symm
  | some service =>
    dsimp only
    rw [run_bind, Option.isNone_some, Bool.false_or]
    have recorded := publications_run_of_discreet environment world
      (discreet_recordLogged exchange service error)
    unfold dispatchLogging
    cases exchange.ctx.isReplay with
    | true => exact recorded.trans (List.append_nil _).symm
    | false =>
      cases exchange.ctx.isModeBTerminated with
      | true => exact recorded.trans (List.append_nil _).symm
      | false =>
        cases isTransportCheck exchange.session.reqHeader.method with
        | true => exact recorded.trans (List.append_nil _).symm
        | false =>
          cases loggingTopic exchange.ctx (loggedRequest exchange) with
          | none => exact recorded.trans (List.append_nil _).symm
          | some topic =>
            rw [← recorded]
            exact publications_concludeRequest ..

end Logging

end SpectraGQL.Gateway
