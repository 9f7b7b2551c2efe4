import SpectraGQL.Gateway.Brokers
import SpectraGQL.Protocol.JsonText

/-! # What the messages of a request are made of

The report of a request is what its messages hold besides the request itself and the stamps:
the refusal in the audit event, whether the request is sent, and the ending in the terminal
event.  `publications_eq_messages` makes the messages from it, for requests of the GraphQL
protocol.
-/

namespace SpectraGQL.Gateway

open Interaction SpectraGQL.Core SpectraGQL.Http SpectraGQL.Protocol SpectraGQL.Interceptors
open SpectraGQL.Telemetry SpectraGQL.Idempotency

/-! ## Audit events -/

/-- What is different in any two runs. -/
structure Stamps where
  requestId : RequestId
  hlc : HlcTimestamp
  timestamp : Nat

/-- What an audit event has from the interceptors, and from the body that they refuse. -/
structure Refusal where
  code : String
  statusCode : UInt16
  message : String
  variablesPreview : Option String
  deriving DecidableEq, Repr

/-- An audit event, less its stamps. -/
structure Audit where
  operationName : Option String
  operationType : String
  clientIp : String
  query : Option String
  refusal : Refusal
  deriving DecidableEq, Repr

def Audit.value (audit : Audit) (stamps : Stamps) : Json :=
  let text := fun value : Option String => Json.ofOption (value.map Json.string)
  Json.ofMembers [
    ("requestId", .string stamps.requestId),
    ("hlc", .string stamps.hlc.toCompactString),
    ("operationName", text audit.operationName),
    ("operationType", .string audit.operationType),
    ("rejectionCode", .string audit.refusal.code),
    ("statusCode", .number (String.ofList (Nat.toDigits 10 audit.refusal.statusCode.toNat))),
    ("reason", .string audit.refusal.message),
    ("clientIp", .string audit.clientIp),
    ("timestamp", .number (String.ofList (Nat.toDigits 10 stamps.timestamp))),
    ("queryPreview", text audit.query),
    ("variablesPreview", text audit.refusal.variablesPreview)]

def Audit.text (audit : Audit) (stamps : Stamps) : String := (audit.value stamps).toString

/-- The members in the order in which they are printed. -/
theorem Audit.value_eq (audit : Audit) (stamps : Stamps) :
    audit.value stamps = .object [
      ("clientIp", .string audit.clientIp),
      ("hlc", .string stamps.hlc.toCompactString),
      ("operationName", Json.ofOption (audit.operationName.map Json.string)),
      ("operationType", .string audit.operationType),
      ("queryPreview", Json.ofOption (audit.query.map Json.string)),
      ("reason", .string audit.refusal.message),
      ("rejectionCode", .string audit.refusal.code),
      ("requestId", .string stamps.requestId),
      ("statusCode", .number (String.ofList (Nat.toDigits 10 audit.refusal.statusCode.toNat))),
      ("timestamp", .number (String.ofList (Nat.toDigits 10 stamps.timestamp))),
      ("variablesPreview", Json.ofOption (audit.refusal.variablesPreview.map Json.string))] := by
  simp only [value, Json.ofMembers, List.foldl_cons, List.foldl_nil, Json.insertMember, String.reduceLT,
    String.reduceEq, if_true, if_false]

theorem printable_ofOption (text : Option String) :
    (Json.ofOption (text.map Json.string)).Printable := by
  cases text <;> trivial

theorem ofOption_inj {left right : Option String}
    (same : Json.ofOption (left.map Json.string) = Json.ofOption (right.map Json.string)) :
    left = right := by
  cases left <;> cases right <;> cases same <;> rfl

theorem Audit.printable {audit : Audit} {stamps : Stamps} {value : Json}
    (isValue : audit.value stamps = value) : value.Printable := by
  rw [← isValue, value_eq]
  exact ⟨trivial, trivial, printable_ofOption _, trivial, printable_ofOption _, trivial, trivial, trivial,
    Json.isNumber_toDigits _, Json.isNumber_toDigits _, printable_ofOption _, trivial⟩

theorem toDigits_inj {left right : Nat}
    (same : Nat.toDigits 10 left = Nat.toDigits 10 right) : left = right := by
  have values := congrArg (fun digits => Nat.ofDigitChars 10 digits 0) same
  simpa only [Nat.ofDigitChars_ten_toDigits] using values

/-- With the same stamps, different audit events have different texts. -/
theorem Audit.text_inj {left right : Audit} {stamps : Stamps}
    (same : left.text stamps = right.text stamps) : left = right := by
  unfold Audit.text at same
  rw [value_eq, value_eq] at same
  have values := Json.toString_inj (printable (left.value_eq stamps)) (printable (right.value_eq stamps)) same
  obtain ⟨operationName, operationType, clientIp, query, code, statusCode, message, preview⟩ := left
  obtain ⟨otherName, otherType, otherIp, otherQuery, otherCode, otherStatus, otherMessage,
    otherPreview⟩ := right
  simp only [Json.object.injEq, List.cons.injEq, Prod.mk.injEq, true_and, Json.string.injEq,
    Json.number.injEq, String.ofList_inj, and_true] at values
  obtain ⟨rfl, name, rfl, text, rfl, rfl, status, shown⟩ := values
  obtain rfl := ofOption_inj name
  obtain rfl := ofOption_inj text
  obtain rfl := ofOption_inj shown
  obtain rfl := UInt16.toNat_inj.mp (toDigits_inj status)
  rfl

def auditOf (clientIp : String) (info : RequestInfo) (refusal : Refusal) : Audit :=
  ⟨info.operationName, operationTypeText info, clientIp, queryPreview info "", refusal⟩

def refusalOf (info : RequestInfo) (rejection : InterceptorRejection) : Refusal :=
  ⟨rejection.code, rejection.statusCode.code, rejection.message, variablesPreview info⟩

/-! ## Endings -/

deriving instance DecidableEq for ResponseInfo

/-- What a terminal event tells of the end of a request. -/
inductive Ending where
  | untold
  | failed (response : Option ResponseInfo) (error : String)
  | succeeded (response : ResponseInfo)
  deriving DecidableEq

def failedEnding (ctx : ProxyCtx) (response : Option ResponseInfo) (error : String) : Ending :=
  if isQuiet ctx.dispatchPolicy then .untold else .failed response error

/-- How the logging phase tells the end of a request that has a topic. -/
def endingOf (proxy : CompositeServiceProxy) (ctx : ProxyCtx) : Option PingoraError → Ending
  | some error => failedEnding ctx none error.text
  | none =>
    match ctx.responseParts with
    | none => failedEnding ctx (some (loggedResponse proxy ctx [])) "No upstream response received"
    | some parts =>
      if parts.status.isError then
        failedEnding ctx (some (loggedResponse proxy ctx parts.headers))
          ("HTTP " ++ proxy.crates.statusText parts.status)
      else if ctx.dispatchPolicy = .none then .untold
      else .succeeded (loggedResponse proxy ctx parts.headers)

/-- Replays and commands are passed over. -/
def loggedEnding (proxy : CompositeServiceProxy) (ctx : ProxyCtx) (error : Option PingoraError) : Ending :=
  if ctx.isReplay || ctx.isModeBTerminated then .untold else endingOf proxy ctx error

def Ending.messages (proxy : CompositeServiceProxy) (requestId : RequestId) (hlc : HlcTimestamp)
    (topic : String) (info : RequestInfo) : Ending → List Publication
  | untold => []
  | failed response error =>
    [.terminal (topic ++ ".failed")
      (.failure requestId hlc info.operationName (proxy.sanitize info) response error)]
  | succeeded response =>
    [.terminal topic (.success requestId hlc info.operationName (proxy.sanitize info) response)]

theorem messages_failedEnding (proxy : CompositeServiceProxy) (ctx : ProxyCtx) (topic : String)
    (info : RequestInfo) (response : Option ResponseInfo) (error : String) :
    (failedEnding ctx response error).messages proxy ctx.requestId ctx.hlc topic info =
      failurePublications proxy ctx topic info response error := by
  unfold failedEnding failurePublications
  cases isQuiet ctx.dispatchPolicy <;> rfl

theorem messages_endingOf (proxy : CompositeServiceProxy) (ctx : ProxyCtx) (topic : String)
    (info : RequestInfo) (error : Option PingoraError) :
    (endingOf proxy ctx error).messages proxy ctx.requestId ctx.hlc topic info =
      concludedPublications proxy ctx topic info error := by
  unfold endingOf concludedPublications
  cases error with
  | some error => exact messages_failedEnding ..
  | none =>
    cases ctx.responseParts with
    | none => exact messages_failedEnding ..
    | some parts =>
      dsimp only
      cases parts.status.isError with
      | true => exact messages_failedEnding ..
      | false =>
        unfold successPublications
        simp only [Bool.false_eq_true, if_false]
        split <;> rfl

/-! ## Reports -/

structure Report where
  refusal : Option Refusal
  request : Bool
  ending : Ending

def Report.messages (proxy : CompositeServiceProxy) (stamps : Stamps) (clientIp topic : String)
    (info : RequestInfo) (report : Report) : List Publication :=
  (report.refusal.toList.map fun refusal =>
    .payload (auditTopic info) ((auditOf clientIp info refusal).text stamps)) ++
  (if report.request then [.request (proxy.sanitize info)] else []) ++
  report.ending.messages proxy stamps.requestId stamps.hlc topic info

/-- The refusal on a course that ends with one; `audited` says whether the client takes it. -/
def Course.refusal (audited : Bool) : Course → Option Refusal
  | unrouted => none
  | edge => none
  | keyTaken _ => none
  | unread => none
  | undecoded => none
  | rejected info rejection => if audited then some (refusalOf info rejection) else none
  | fingerprintTaken _ _ => none
  | disabled _ _ => none
  | command _ _ => none
  | forwarded _ _ => none

/-- The report of a request: nothing is told of one that was not decoded. -/
def Arrival.report (proxy : CompositeServiceProxy) (dynamic : DynamicGatewayState)
    (environment : Environment) (engine : Engine) (arrival : Arrival) : Report where
  refusal := (arrival.course proxy dynamic engine).refusal
    (takesRejection environment (admitted proxy dynamic arrival))
  request := (arrival.course proxy dynamic engine).sendsRequest
  ending :=
    if (arrival.course proxy dynamic engine).info.isNone then .untold
    else loggedEnding proxy (arrival.concluded proxy dynamic environment engine).2.ctx
      (arrival.concluded proxy dynamic environment engine).1

section Ends

variable {proxy : CompositeServiceProxy} {dynamic : DynamicGatewayState} {environment : Environment}
  {exchange : Exchange} {course : Course} {outcome : Outcome} {published : List Publication}
  {info : RequestInfo}

/-- A request that was decoded is known to the logging phase, unless that passes it over. -/
theorem Ends.known (ends : Ends proxy dynamic environment exchange course outcome published)
    (isInfo : course.info = some info) (arrival : Arrival) (world : World) :
    ((concluded proxy dynamic environment arrival (outcome, world)).2.ctx.isReplay = true ∨
      (concluded proxy dynamic environment arrival (outcome, world)).2.ctx.isModeBTerminated = true) ∨
    ∃ body policy, Known dynamic exchange info body policy
      (concluded proxy dynamic environment arrival (outcome, world)).2 := by
  cases ends with
  | edge _ _ | keyTaken _ | unread _ _ _ | undecoded _ _ => cases isInfo
  | rejected known body rejection after noted | disabled known body route after noted =>
    cases isInfo
    exact .inr ⟨body, _, noted.toKnown⟩
  | fingerprintTaken known body found after noted =>
    cases isInfo
    rw [concluded_of_answered (endOfTaken_result_ne found)]
    -- a replayed answer is passed over by logging, any other leaves the request as it was noted
    cases found with
    | inProgress holder => exact .inr ⟨body, _, noted.toKnown⟩
    | completed holder statusCode headers text =>
      unfold endOfTaken
      dsimp only
      split
      · exact .inl (.inl rfl)
      · exact .inr ⟨body, _, noted.toKnown⟩
  | command known route after modeB => exact .inl (.inr modeB)
  | forwarded known body policy after noted =>
    cases isInfo
    obtain ⟨session, core⟩ := (core_proxyUpstream proxy dynamic after arrival.upstream
      arrival.elapsedMs).interp (handle environment) world
    exact .inr ⟨body, policy, noted.toKnown.of_core session core⟩

/-- What the logging phase publishes of a decoded request is its ending. -/
theorem Ends.logged (ends : Ends proxy dynamic environment exchange course outcome published)
    (isInfo : course.info = some info) (arrival : Arrival) (world : World) :
    let after := concluded proxy dynamic environment arrival (outcome, world)
    loggedPublications proxy after.2 after.1 =
      (loggedEnding proxy after.2.ctx after.1).messages proxy exchange.ctx.requestId exchange.ctx.hlc
        (operationTopic dynamic exchange info) info := by
  have known := ends.known isInfo arrival world
  generalize concluded proxy dynamic environment arrival (outcome, world) = after at known ⊢
  dsimp only
  unfold loggedEnding
  cases known with
  | inl passedOver =>
    rw [loggedPublications_of_passedOver passedOver]
    cases passedOver with
    | inl isReplay =>
      rw [isReplay]
      rfl
    | inr modeB =>
      rw [modeB, Bool.or_true]
      rfl
  | inr known =>
    obtain ⟨body, policy, known⟩ := known
    rw [known.loggedPublications, known.notReplay, known.notModeB, ← known.requestId, ← known.hlc]
    exact (messages_endingOf ..).symm

theorem queryPreview_of_gql (isGraphql : info.gql.isSome) (body : String) :
    queryPreview info body = queryPreview info "" := by
  unfold queryPreview
  obtain ⟨gql, isGql⟩ := Option.isSome_iff_exists.mp isGraphql
  rw [isGql]

theorem rejectionPayload_eq {body : String} {policy : ModeADispatchPolicy} {after : Exchange}
    (noted : Noted dynamic exchange info body policy after) (isGraphql : info.gql.isSome)
    (rejection : InterceptorRejection) (timestamp : Nat) :
    rejectionPayload after info rejection timestamp =
      (auditOf exchange.session.clientIp info (refusalOf info rejection)).text
        ⟨exchange.ctx.requestId, exchange.ctx.hlc, timestamp⟩ := by
  unfold rejectionPayload
  rw [noted.requestId, noted.hlc, noted.clientIp, noted.queryText, noted.variablesText,
    queryPreview_of_gql isGraphql]
  rfl

/-- What the request filter publishes of a decoded request. -/
theorem Ends.published_eq (ends : Ends proxy dynamic environment exchange course outcome published)
    (isInfo : course.info = some info) (isGraphql : info.gql.isSome) :
    published = ((course.refusal (takesRejection environment exchange)).toList.map fun refusal =>
        Publication.payload (auditTopic info) ((auditOf exchange.session.clientIp info refusal).text
          ⟨exchange.ctx.requestId, exchange.ctx.hlc, environment.nowEpochMs⟩)) ++
      (if course.sendsRequest then [.request (proxy.sanitize info)] else []) := by
  cases ends with
  | edge _ _ | keyTaken _ | unread _ _ _ | undecoded _ _ => cases isInfo
  | rejected known body rejection after noted =>
    cases isInfo
    unfold Course.refusal auditPublication
    rw [rejectionPayload_eq noted isGraphql]
    cases takesRejection environment exchange <;> rfl
  | fingerprintTaken known body found after noted | disabled known body route after noted => rfl
  | command known route after modeB =>
    cases isInfo
    rfl
  | forwarded known body policy after noted =>
    cases isInfo
    cases policy <;> rfl

end Ends

theorem session_admitted (proxy : CompositeServiceProxy) (dynamic : DynamicGatewayState)
    (arrival : Arrival) : (admitted proxy dynamic arrival).session = arrival.session := by
  unfold admitted earlyRequestFilter
  dsimp only
  split
  · rfl
  · split <;> rfl

theorem stamp_admitted (proxy : CompositeServiceProxy) (dynamic : DynamicGatewayState)
    (arrival : Arrival) : (admitted proxy dynamic arrival).ctx.requestId = arrival.requestId ∧
      (admitted proxy dynamic arrival).ctx.hlc = arrival.hlc := by
  unfold admitted
  cases early : earlyRequestFilter proxy dynamic (arrival.exchange dynamic) with
  | mk result exchange =>
    obtain ⟨appId, addr, service, same⟩ := ctx_earlyRequestFilter early
    rw [same]
    exact ⟨rfl, rfl⟩

/-- All messages of a GraphQL request, from its report. -/
theorem publications_eq_messages (proxy : CompositeServiceProxy) (dynamic : DynamicGatewayState)
    (environment : Environment) (engine : Engine) (arrival : Arrival) (info : RequestInfo)
    (isInfo : (arrival.course proxy dynamic engine).info = some info) (isGraphql : info.gql.isSome) :
    publications (run environment (serve proxy dynamic arrival) ⟨engine, []⟩).2.trace =
      (arrival.report proxy dynamic environment engine).messages proxy
        ⟨arrival.requestId, arrival.hlc, environment.nowEpochMs⟩ arrival.session.clientIp
        (operationTopic dynamic (admitted proxy dynamic arrival) info) info := by
  obtain ⟨sameId, sameHlc⟩ := stamp_admitted proxy dynamic arrival
  cases publications_serve proxy dynamic environment engine arrival with
  | inl unrouted =>
    rw [unrouted.1] at isInfo
    cases isInfo
  | inr routed =>
    obtain ⟨published, ends, all⟩ := routed
    have logged := ends.logged isInfo arrival
      (filtered proxy dynamic environment engine (admitted proxy dynamic arrival)).2
    rw [sameId, sameHlc] at logged
    rw [all, ends.published_eq isInfo isGraphql, session_admitted, sameId, sameHlc]
    unfold Report.messages Arrival.report
    rw [isInfo]
    exact congrArg _ logged

/-- Nothing is published of a request that was not decoded. -/
theorem publications_of_undecoded (proxy : CompositeServiceProxy) (dynamic : DynamicGatewayState)
    (environment : Environment) (engine : Engine) (arrival : Arrival)
    (notDecoded : (arrival.course proxy dynamic engine).info = none) :
    publications (run environment (serve proxy dynamic arrival) ⟨engine, []⟩).2.trace = [] := by
  cases publications_serve proxy dynamic environment engine arrival with
  | inl unrouted => exact unrouted.2
  | inr routed =>
    obtain ⟨published, ends, all⟩ := routed
    obtain ⟨rfl, blank⟩ := ends.blank (unseen_admitted proxy dynamic arrival) notDecoded arrival
      (filtered proxy dynamic environment engine (admitted proxy dynamic arrival)).2
    rw [all, List.nil_append]
    exact blank.loggedPublications _

end SpectraGQL.Gateway
