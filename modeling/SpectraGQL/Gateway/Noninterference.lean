import SpectraGQL.Gateway.Report
import SpectraGQL.Interceptors.Secrets

/-! # What the broker learns of the secrets

Two requests that differ in their secrets only are served by one gateway.  Their messages are
the same, up to the stamps that every run gets anew, exactly when the differences are
concealed: the parts of a message that no sanitizer has seen are the same in both runs, and the
request is masked alike in both.
-/

namespace SpectraGQL.Gateway

open Interaction SpectraGQL.Core SpectraGQL.Http SpectraGQL.Protocol SpectraGQL.Interceptors
open SpectraGQL.Telemetry SpectraGQL.Idempotency

open Sanitizer (AlikeHeaders AlikeRequest MaskedRequest defaultSanitizer serializedRequest)

/-! ## Messages without their stamps -/

def isStampHeader (name : String) : Bool := name == requestIdHeader || name == hlcHeader

def unstampedHeaders (headers : HeaderMap) : HeaderMap :=
  headers.map fun header => (header.1, if isStampHeader header.1 then [] else header.2)

def unstamped (info : RequestInfo) : RequestInfo :=
  { info with
    requestId := "", hlc := ⟨0, 0⟩
    http := { info.http with headers := unstampedHeaders info.http.headers } }

def unstampedResponse (response : ResponseInfo) : ResponseInfo :=
  { response with
    requestId := "", hlc := ⟨0, 0⟩
    httpResponseHeaders := unstampedHeaders response.httpResponseHeaders }

def unstampedEvent (event : TerminalEvent) : TerminalEvent :=
  { event with
    id := "", hlc := ⟨0, 0⟩
    request := serializedRequest (unstamped event.request)
    response := event.response.map unstampedResponse }

/-- Messages of two runs that are the same but for the stamps of the runs. -/
inductive SameButStamps (left right : Stamps) : Publication → Publication → Prop where
  | request {leftInfo rightInfo : RequestInfo}
      (same : serializedRequest (unstamped leftInfo) = serializedRequest (unstamped rightInfo)) :
      SameButStamps left right (.request leftInfo) (.request rightInfo)
  | terminal (topic : String) {leftEvent rightEvent : TerminalEvent}
      (same : unstampedEvent leftEvent = unstampedEvent rightEvent) :
      SameButStamps left right (.terminal topic leftEvent) (.terminal topic rightEvent)
  | payload (topic : String) (audit : Audit) {leftText rightText : String}
      (isLeft : leftText = audit.text left) (isRight : rightText = audit.text right) :
      SameButStamps left right (.payload topic leftText) (.payload topic rightText)

def Ending.unstamped : Ending → Ending
  | untold => untold
  | failed response error => failed (response.map unstampedResponse) error
  | succeeded response => succeeded (unstampedResponse response)

section Unstamped

variable {patterns : Patterns} {fromStr : String → Option Json}

theorem isSensitiveKey_of_isStampHeader {name : String} (isStamp : isStampHeader name = true) :
    defaultSanitizer.isSensitiveKey name = false := by
  unfold isStampHeader at isStamp
  cases Bool.or_eq_true_iff.mp isStamp with
  | inl isId =>
    rw [beq_iff_eq.mp isId]
    decide +kernel
  | inr isHlc =>
    rw [beq_iff_eq.mp isHlc]
    decide +kernel

theorem lastValues_unstampedHeaders (headers : HeaderMap) :
    Sanitizer.lastValues (unstampedHeaders headers) = unstampedHeaders (Sanitizer.lastValues headers) := by
  unfold Sanitizer.lastValues unstampedHeaders
  induction headers using List.reverseRecOn with
  | nil => rfl
  | append_singleton earlier header inductionHypothesis =>
    rw [List.map_append, List.foldl_append, List.foldl_append, inductionHypothesis]
    simp only [List.map_cons, List.map_nil, List.foldl_cons, List.foldl_nil]
    unfold HeaderMap.insert
    rw [List.map_append, List.filter_map]
    rfl

/-- Stamps are not sensitive, so they may be taken out before or after sanitizing. -/
theorem sanitizeHeaders_unstampedHeaders (headers : HeaderMap) :
    defaultSanitizer.sanitizeHeaders (unstampedHeaders headers) =
      unstampedHeaders (defaultSanitizer.sanitizeHeaders headers) := by
  rw [Sanitizer.sanitizeHeaders_eq_map, Sanitizer.sanitizeHeaders_eq_map, lastValues_unstampedHeaders]
  unfold unstampedHeaders
  rw [List.map_map, List.map_map]
  refine List.map_congr_left fun header _ => Prod.ext rfl ?_
  simp only [Function.comp_apply]
  cases isStamp : isStampHeader header.1 with
  | true => simp [Sanitizer.sanitizeHeader, isSensitiveKey_of_isStampHeader isStamp]
  | false => simp

theorem unstamped_sanitizeRequest (info : RequestInfo) :
    unstamped (defaultSanitizer.sanitizeRequest patterns fromStr info) =
      defaultSanitizer.sanitizeRequest patterns fromStr (unstamped info) := by
  unfold unstamped Sanitizer.sanitizeRequest
  simp only [sanitizeHeaders_unstampedHeaders]

end Unstamped

/-! ## Messages of two reports -/

/-- The request is in one of the messages, sanitized. -/
def Report.carriesRequest (report : Report) : Prop := report.request = true ∨ report.ending ≠ .untold

/-- Of two lists that are each divided by kind, the parts are related. -/
theorem forall₂_append_iff {α : Type} {relation : α → α → Prop} (kind : α → Bool)
    (sameKind : ∀ left right, relation left right → kind left = kind right)
    {firsts seconds others laters : List α} (isFirst : ∀ value ∈ firsts, kind value = true)
    (isOther : ∀ value ∈ others, kind value = true) (isSecond : ∀ value ∈ seconds, kind value = false)
    (isLater : ∀ value ∈ laters, kind value = false) :
    List.Forall₂ relation (firsts ++ seconds) (others ++ laters) ↔
      List.Forall₂ relation firsts others ∧ List.Forall₂ relation seconds laters := by
  constructor
  · intro related
    induction firsts generalizing others with
    | nil =>
      cases others with
      | nil => exact ⟨.nil, related⟩
      | cons other others =>
        -- one of the first kind would be related to one of the second
        cases seconds with
        | nil => cases related
        | cons second seconds =>
          cases related with
          | cons same _ =>
            have kinds := sameKind _ _ same
            rw [isSecond second List.mem_cons_self, isOther other List.mem_cons_self] at kinds
            cases kinds
    | cons first firsts inductionHypothesis =>
      cases others with
      | nil =>
        cases laters with
        | nil => cases related
        | cons later laters =>
          cases related with
          | cons same _ =>
            have kinds := sameKind _ _ same
            rw [isFirst first List.mem_cons_self, isLater later List.mem_cons_self] at kinds
            cases kinds
      | cons other others =>
        cases related with
        | cons same rest =>
          obtain ⟨more, later⟩ := inductionHypothesis
            (fun value member => isFirst value (List.mem_cons_of_mem _ member))
            (fun value member => isOther value (List.mem_cons_of_mem _ member)) rest
          exact ⟨.cons same more, later⟩
  · intro related
    exact List.rel_append related.1 related.2

section Messages

variable {proxy : CompositeServiceProxy} {stamps otherStamps : Stamps} {clientIp topic otherTopic : String}
  {info otherInfo : RequestInfo}

def Publication.isPayload : Publication → Bool
  | request _ => false
  | terminal _ _ => false
  | payload _ _ => true

def Publication.isRequest : Publication → Bool
  | request _ => true
  | terminal _ _ => false
  | payload _ _ => false

theorem SameButStamps.isPayload_eq {left right : Publication}
    (same : SameButStamps stamps otherStamps left right) : left.isPayload = right.isPayload := by
  cases same <;> rfl

theorem SameButStamps.isRequest_eq {left right : Publication}
    (same : SameButStamps stamps otherStamps left right) : left.isRequest = right.isRequest := by
  cases same <;> rfl

theorem SameButStamps.audit {leftTopic rightTopic leftText rightText : String}
    (same : SameButStamps stamps otherStamps (.payload leftTopic leftText)
      (.payload rightTopic rightText)) :
    ∃ audit : Audit, leftText = audit.text stamps ∧ rightText = audit.text otherStamps := by
  cases same with
  | payload _ audit isLeft isRight => exact ⟨audit, isLeft, isRight⟩

theorem isPayload_messages (ending : Ending) (requestId : RequestId) (hlc : HlcTimestamp) :
    ∀ message ∈ ending.messages proxy requestId hlc topic info,
      message.isPayload = false ∧ message.isRequest = false := by
  intro message member
  cases ending with
  | untold => cases member
  | failed response error =>
    cases List.mem_singleton.mp member
    exact ⟨rfl, rfl⟩
  | succeeded response =>
    cases List.mem_singleton.mp member
    exact ⟨rfl, rfl⟩

theorem isPayload_refusals (refusal : Option Refusal) :
    ∀ message ∈ refusal.toList.map fun refusal =>
        Publication.payload (auditTopic info) ((auditOf clientIp info refusal).text stamps),
      message.isPayload = true := by
  intro message member
  obtain ⟨_, _, rfl⟩ := List.mem_map.mp member
  rfl

theorem isRequest_requests (sends : Bool) :
    ∀ message ∈ if sends then [Publication.request info] else [],
      message.isRequest = true ∧ message.isPayload = false := by
  intro message member
  cases sends with
  | false => cases member
  | true =>
    cases List.mem_singleton.mp member
    exact ⟨rfl, rfl⟩

/-- Audit events of one operation are the same when their refusals are. -/
theorem refusals_sameButStamps_iff (sameTopic : auditTopic info = auditTopic otherInfo)
    (sameAudit : ∀ refusal, auditOf clientIp info refusal = auditOf clientIp otherInfo refusal)
    (left right : Option Refusal) :
    List.Forall₂ (SameButStamps stamps otherStamps)
        (left.toList.map fun refusal => .payload (auditTopic info) ((auditOf clientIp info refusal).text stamps))
        (right.toList.map fun refusal =>
          .payload (auditTopic otherInfo) ((auditOf clientIp otherInfo refusal).text otherStamps)) ↔
      left = right := by
  constructor
  · intro related
    cases left with
    | none =>
      cases right with
      | none => rfl
      | some refusal => cases related
    | some refusal =>
      cases right with
      | none => cases related
      | some other =>
        have first : SameButStamps stamps otherStamps
            (.payload (auditTopic info) ((auditOf clientIp info refusal).text stamps))
            (.payload (auditTopic otherInfo) ((auditOf clientIp otherInfo other).text otherStamps)) :=
          (List.forall₂_cons.mp related).1
        obtain ⟨audit, isLeft, isRight⟩ := first.audit
        have sameLeft := Audit.text_inj isLeft
        have sameRight := Audit.text_inj isRight
        exact congrArg some (congrArg Audit.refusal (sameLeft.trans sameRight.symm))
  · rintro rfl
    cases left with
    | none => exact .nil
    | some refusal =>
      simp only [Option.toList_some, List.map_cons, List.map_nil, ← sameTopic, ← sameAudit]
      exact .cons (.payload _ _ rfl rfl) .nil

theorem requests_sameButStamps_iff {masked : Prop}
    (sanitized : serializedRequest (unstamped (proxy.sanitize info)) =
      serializedRequest (unstamped (proxy.sanitize otherInfo)) ↔ masked) (left right : Bool) :
    List.Forall₂ (SameButStamps stamps otherStamps)
        (if left then [.request (proxy.sanitize info)] else [])
        (if right then [.request (proxy.sanitize otherInfo)] else []) ↔
      left = right ∧ (left = true → masked) := by
  cases left with
  | false =>
    cases right with
    | false => simp
    | true => simp
  | true =>
    cases right with
    | false => simp
    | true =>
      simp only [if_true, List.forall₂_cons, List.Forall₂.nil, and_true, true_imp_iff, true_and]
      rw [← sanitized]
      constructor
      · intro same
        cases same with
        | request same => exact same
      · exact .request

theorem endings_sameButStamps_iff {masked : Prop}
    (sanitized : serializedRequest (unstamped (proxy.sanitize info)) =
      serializedRequest (unstamped (proxy.sanitize otherInfo)) ↔ masked)
    (sameName : info.operationName = otherInfo.operationName)
    (sameTopic : topic = otherTopic) (left right : Ending) :
    List.Forall₂ (SameButStamps stamps otherStamps)
        (left.messages proxy stamps.requestId stamps.hlc topic info)
        (right.messages proxy otherStamps.requestId otherStamps.hlc otherTopic otherInfo) ↔
      left.unstamped = right.unstamped ∧ (left ≠ .untold → masked) := by
  subst sameTopic
  rw [← sanitized]
  have events : ∀ {topic otherTopic : String} {event otherEvent : TerminalEvent},
      SameButStamps stamps otherStamps (.terminal topic event) (.terminal otherTopic otherEvent) ↔
        topic = otherTopic ∧ unstampedEvent event = unstampedEvent otherEvent := by
    intro topic otherTopic event otherEvent
    constructor
    · intro same
      cases same with
      | terminal _ same => exact ⟨rfl, same⟩
    · rintro ⟨rfl, same⟩
      exact .terminal _ same
  cases left with
  | untold =>
    cases right with
    | untold => simp [Ending.messages]
    | failed _ _ => simp [Ending.messages, Ending.unstamped]
    | succeeded _ => simp [Ending.messages, Ending.unstamped]
  | failed response error =>
    cases right with
    | untold => simp [Ending.messages, Ending.unstamped]
    | failed otherResponse otherError =>
      refine Iff.trans ?_ and_comm
      simp [Ending.messages, Ending.unstamped, events, unstampedEvent, TerminalEvent.failure, sameName]
    | succeeded otherResponse =>
      simp [Ending.messages, Ending.unstamped, events, unstampedEvent, TerminalEvent.failure,
        TerminalEvent.success]
  | succeeded response =>
    cases right with
    | untold => simp [Ending.messages, Ending.unstamped]
    | failed otherResponse otherError =>
      simp [Ending.messages, Ending.unstamped, events, unstampedEvent, TerminalEvent.failure,
        TerminalEvent.success]
    | succeeded otherResponse =>
      refine Iff.trans ?_ and_comm
      simp [Ending.messages, Ending.unstamped, events, unstampedEvent, TerminalEvent.success, sameName]

end Messages

/-! ## Requests that differ in their secrets -/

/-- The name in one part of a query. -/
def queryName (part : String) : String := (splitOn '=' part).headD ""

/-- The same names in the same order, and the same parts where the name is not sensitive. -/
def AlikeQuery (left right : String) : Prop :=
  List.Forall₂ (fun left right => queryName left = queryName right ∧
    (defaultSanitizer.isSensitiveKey (queryName left) = false → left = right))
    (splitOn '&' left) (splitOn '&' right)

/-- The same bytes, or texts of alike JSON values. -/
inductive AlikeBytes (fromStr : String → Option Json) : Bytes → Bytes → Prop where
  | same (bytes : Bytes) : AlikeBytes fromStr bytes bytes
  | json {leftText rightText : String} {leftValue rightValue : Json}
      (isLeft : fromStr leftText = some leftValue) (isRight : fromStr rightText = some rightValue)
      (alike : Sanitizer.Alike defaultSanitizer leftValue rightValue) :
      AlikeBytes fromStr (asBytes leftText) (asBytes rightText)

inductive AlikeUpstream (fromStr : String → Option Json) : Upstream → Upstream → Prop where
  | unreachable (error : PingoraError) :
      AlikeUpstream fromStr (.unreachable error) (.unreachable error)
  | response (head : ResponseHeader) {left right : List (Option Bytes)} (broken : Option PingoraError)
      (body : AlikeBytes fromStr (left.flatMap fun chunk => chunk.getD [])
        (right.flatMap fun chunk => chunk.getD [])) :
      AlikeUpstream fromStr (.response head left broken) (.response head right broken)

/-- One request, sent twice with other secrets; the stamps of the runs are their own. -/
structure Arrival.DiffersInSecrets (fromStr : String → Option Json) (left right : Arrival) : Prop where
  method : left.session.reqHeader.method = right.session.reqHeader.method
  origin : left.session.reqHeader.uri.origin = right.session.reqHeader.uri.origin
  path : left.session.reqHeader.uri.path = right.session.reqHeader.uri.path
  query : Option.Rel AlikeQuery left.session.reqHeader.uri.query right.session.reqHeader.uri.query
  headers : AlikeHeaders defaultSanitizer left.session.reqHeader.headers right.session.reqHeader.headers
  body : AlikeBytes fromStr left.session.chunks.flatten right.session.chunks.flatten
  clientIp : left.session.clientIp = right.session.clientIp
  readError : left.session.readError = right.session.readError
  upstream : AlikeUpstream fromStr left.upstream right.upstream

/-- A path that is served as GraphQL, if it is served at all. -/
def CompositeServiceProxy.ServesGraphql (proxy : CompositeServiceProxy) (path : String) : Prop :=
  ∀ service, proxy.serviceByPath path = some service → ∃ ops, service.requestProtocol = .graphql ops

section Decoded

variable {proxy : CompositeServiceProxy} {dynamic : DynamicGatewayState} {engine : Engine}
  {arrival left right : Arrival} {info leftInfo rightInfo : RequestInfo}

theorem info_keyCourse {key : Option String} {taken : KeyState → Course} {free : Course}
    (isTaken : ∀ found, (taken found).info = some info) (isFree : free.info = some info) :
    (keyCourse engine key taken free).info = some info := by
  unfold keyCourse
  cases key.bind engine with
  | none => exact isFree
  | some found => exact isTaken found

theorem info_routeCourse (policy : ModeADispatchPolicy) :
    (routeCourse dynamic policy info).info = some info := by
  unfold routeCourse
  cases StrategyRouter.matchRoute dynamic.routes info with
  | none => rfl
  | some route =>
    dsimp only
    split
    · rfl
    · split <;> rfl

theorem info_decodedCourse (exchange : Exchange) (body : String) :
    (decodedCourse proxy dynamic engine exchange info body).info = some info := by
  unfold decodedCourse
  cases pipelineVerdict dynamic (stampRequest exchange) info body with
  | reject rejection => rfl
  | pass | transform _ _ | audit _ _ _ =>
    exact info_keyCourse (fun _ => rfl) (info_routeCourse exchange.ctx.dispatchPolicy)

/-- The request that is known on a course is the one that was decoded. -/
theorem decoded_of_info (isInfo : (arrival.course proxy dynamic engine).info = some info) :
    earlyRequestFilter proxy dynamic (arrival.exchange dynamic) =
        (.ok (), admitted proxy dynamic arrival) ∧
      ∃ body, decoded proxy (admitted proxy dynamic arrival) = some (body, info) := by
  unfold Arrival.course at isInfo
  unfold admitted
  cases early : earlyRequestFilter proxy dynamic (arrival.exchange dynamic) with
  | mk result exchange =>
    rw [early] at isInfo
    cases result with
    | error error => cases isInfo
    | ok _ =>
      dsimp only at isInfo
      unfold course at isInfo
      split at isInfo
      · cases isInfo
      unfold keyCourse at isInfo
      cases held : (explicitKey exchange.session).bind engine with
      | some found =>
        rw [held] at isInfo
        cases isInfo
      | none =>
        rw [held] at isInfo
        unfold decoded
        unfold bodyCourse at isInfo
        cases read : bodyRead exchange with
        | failed _ _ | tooLarge _ =>
          rw [read] at isInfo
          cases isInfo
        | complete buffer =>
          rw [read] at isInfo
          dsimp only at isInfo ⊢
          cases decodes : decodeBody proxy (examined exchange buffer) with
          | none =>
            rw [decodes] at isInfo
            cases isInfo
          | some request =>
            obtain ⟨body, decodedInfo⟩ := request
            rw [decodes] at isInfo
            have same := (info_decodedCourse exchange body).symm.trans isInfo
            cases same
            exact ⟨rfl, body, rfl⟩

theorem Routed.serviceByPath {exchange : Exchange} (routed : Routed proxy dynamic arrival exchange) :
    exchange.ctx.service = proxy.serviceByPath arrival.session.reqHeader.uri.path := by
  obtain ⟨early, served⟩ := routed
  unfold earlyRequestFilter at early
  dsimp only [Arrival.exchange] at early
  split at early
  · cases early
    cases served
  · split at early
    · rename_i service isService
      cases early
      exact isService.symm
    · cases early

/-- A GraphQL request is decoded from the JSON value that its body is the text of. -/
theorem graphql_of_info (graphql : proxy.ServesGraphql arrival.session.reqHeader.uri.path)
    (isInfo : (arrival.course proxy dynamic engine).info = some info) :
    ∃ body value operation gql, arrival.session.chunks.flatten = asBytes body ∧
      proxy.crates.fromStr body = some value ∧
      parseGraphqlOperationWithName proxy.crates (((value.get "query").bind Json.asStr).getD "")
        ((value.get "operationName").bind Json.asStr) = .ok operation ∧
      info = ⟨arrival.requestId, arrival.hlc,
        (stampRequest (admitted proxy dynamic arrival)).session.reqHeader, some gql⟩ ∧
      gql.operationType = operation.operationType ∧ gql.operationName = operation.operationName ∧
      gql.rootFields = operation.rootFields ∧ gql.rawBody = some body ∧ gql.jsonBody = value := by
  obtain ⟨early, body, success⟩ := decoded_of_info isInfo
  obtain ⟨buffer, read, decodes⟩ := decoded_eq_some success
  obtain ⟨-, -, service, hasService, decodedInfo⟩ := decodeBody_eq_some decodes
  have served : (admitted proxy dynamic arrival).ctx.service = some service := hasService
  have routed : Routed proxy dynamic arrival (admitted proxy dynamic arrival) :=
    ⟨early, (congrArg Option.isSome served).trans rfl⟩
  obtain ⟨ops, isGraphql⟩ := graphql service (routed.serviceByPath ▸ served)
  rw [isGraphql] at decodedInfo
  obtain ⟨value, operation, gql, isValue, parsed, sameInfo, parts⟩ :=
    ProtocolDecoder.decodeRequest_graphql decodedInfo
  obtain ⟨sameId, sameHlc⟩ := stamp_admitted proxy dynamic arrival
  have chunks := routed.chunks_of_decoded success
  rw [session_admitted] at chunks
  refine ⟨body, value, operation, gql, chunks, isValue, parsed, ?_, parts⟩
  rw [← sameId, ← sameHlc]
  exact sameInfo

/-! ### The same request -/

theorem AlikeBytes.values {fromStr : String → Option Json} {leftText rightText : String}
    {leftValue rightValue : Json} (alike : AlikeBytes fromStr (asBytes leftText) (asBytes rightText))
    (isLeft : fromStr leftText = some leftValue) (isRight : fromStr rightText = some rightValue) :
    Sanitizer.Alike defaultSanitizer leftValue rightValue := by
  generalize isLeftBytes : asBytes leftText = leftBytes at alike
  generalize isRightBytes : asBytes rightText = rightBytes at alike
  cases alike with
  | same bytes =>
    obtain rfl := asBytes_inj.mp (isLeftBytes.trans isRightBytes.symm)
    obtain rfl := Option.some.inj (isLeft.symm.trans isRight)
    exact .same _
  | json otherLeft otherRight alike =>
    obtain rfl := asBytes_inj.mp isLeftBytes
    obtain rfl := asBytes_inj.mp isRightBytes
    obtain rfl := Option.some.inj (isLeft.symm.trans otherLeft)
    obtain rfl := Option.some.inj (isRight.symm.trans otherRight)
    exact alike

/-- The app of a request is found by its host, its path and headers that are no secrets. -/
theorem appId_resolveApp {leftParts rightParts : RequestParts}
    (headers : AlikeHeaders defaultSanitizer leftParts.headers rightParts.headers)
    (path : leftParts.uri.path = rightParts.uri.path) {leftCtx rightCtx : ProxyCtx}
    (sameApp : leftCtx.appId = rightCtx.appId) :
    (resolveApp dynamic leftParts leftCtx).appId = (resolveApp dynamic rightParts rightCtx).appId := by
  have host : leftParts.headers.getStr "host" = rightParts.headers.getStr "host" := by
    unfold HeaderMap.getStr
    rw [headers.get_eq (by decide +kernel)]
  have appHeader : leftParts.headers.get "x-app-id" = rightParts.headers.get "x-app-id" :=
    headers.get_eq (by decide +kernel)
  have tenantHeader : leftParts.headers.get "x-tenant-id" = rightParts.headers.get "x-tenant-id" :=
    headers.get_eq (by decide +kernel)
  unfold resolveApp
  rw [host, appHeader, tenantHeader, path]
  dsimp only
  split
  · rfl
  · split
    · rfl
    · exact sameApp

theorem appId_admitted (alike : left.DiffersInSecrets proxy.crates.fromStr right) :
    (admitted proxy dynamic left).ctx.appId = (admitted proxy dynamic right).ctx.appId := by
  have resolved := @appId_resolveApp dynamic left.session.reqHeader right.session.reqHeader alike.headers
    alike.path (newCtx dynamic left.requestId left.hlc) (newCtx dynamic right.requestId right.hlc) rfl
  unfold admitted earlyRequestFilter
  dsimp only [Arrival.exchange]
  rw [alike.path]
  split
  · rfl
  · split
    · exact resolved
    · exact resolved

/-- The head of a request as it is decoded. -/
theorem head_stampRequest (proxy : CompositeServiceProxy) (dynamic : DynamicGatewayState)
    (arrival : Arrival) :
    (stampRequest (admitted proxy dynamic arrival)).session.reqHeader =
      { arrival.session.reqHeader with
        headers := ((arrival.session.reqHeader.headers.appendStr requestIdHeader
          arrival.requestId).appendStr hlcHeader arrival.hlc.toCompactString).appendStr "x-spectra-app"
          (admitted proxy dynamic arrival).ctx.appId } := by
  obtain ⟨sameId, sameHlc⟩ := stamp_admitted proxy dynamic arrival
  unfold stampRequest
  rw [session_admitted, sameId, sameHlc]

theorem alikeHeaders_stampRequest (alike : left.DiffersInSecrets proxy.crates.fromStr right) :
    AlikeHeaders defaultSanitizer
      (unstampedHeaders (stampRequest (admitted proxy dynamic left)).session.reqHeader.headers)
      (unstampedHeaders (stampRequest (admitted proxy dynamic right)).session.reqHeader.headers) := by
  have unstampedHeaders_append : ∀ headers more : HeaderMap, unstampedHeaders (headers ++ more) =
      unstampedHeaders headers ++ unstampedHeaders more := fun _ _ => List.map_append
  have client : AlikeHeaders defaultSanitizer (unstampedHeaders left.session.reqHeader.headers)
      (unstampedHeaders right.session.reqHeader.headers) := by
    unfold Sanitizer.AlikeHeaders unstampedHeaders
    rw [List.forall₂_map_left_iff, List.forall₂_map_right_iff]
    refine alike.headers.imp fun leftHeader rightHeader header => ⟨header.1, fun notSensitive => ?_⟩
    rw [header.1, header.2 notSensitive]
  rw [head_stampRequest, head_stampRequest, appId_admitted alike]
  unfold HeaderMap.appendStr HeaderMap.append
  simp only [unstampedHeaders_append]
  refine List.rel_append (List.rel_append (List.rel_append client ?_) ?_) ?_
  · exact .cons ⟨rfl, fun _ => rfl⟩ .nil
  · exact .cons ⟨rfl, fun _ => rfl⟩ .nil
  · exact .cons ⟨rfl, fun _ => rfl⟩ .nil

/-- Both runs decode the same request, but for its secrets. -/
theorem alikeRequest_of_infos (alike : left.DiffersInSecrets proxy.crates.fromStr right)
    (graphql : proxy.ServesGraphql left.session.reqHeader.uri.path)
    (isLeft : (left.course proxy dynamic engine).info = some leftInfo)
    (isRight : (right.course proxy dynamic engine).info = some rightInfo) :
    AlikeRequest defaultSanitizer proxy.crates.fromStr (unstamped leftInfo) (unstamped rightInfo) := by
  obtain ⟨leftBody, leftValue, leftOperation, leftGql, leftChunks, leftReads, leftParsed, rfl, leftParts⟩ :=
    graphql_of_info graphql isLeft
  obtain ⟨rightBody, rightValue, rightOperation, rightGql, rightChunks, rightReads, rightParsed, rfl,
    rightParts⟩ := graphql_of_info (alike.path ▸ graphql) isRight
  have body := alike.body
  rw [leftChunks, rightChunks] at body
  have values := body.values leftReads rightReads
  rw [values.text_eq (by decide +kernel), values.text_eq (by decide +kernel), rightParsed] at leftParsed
  obtain rfl := Except.ok.inj leftParsed
  obtain ⟨leftType, leftName, leftFields, leftRaw, leftJson⟩ := leftParts
  obtain ⟨rightType, rightName, rightFields, rightRaw, rightJson⟩ := rightParts
  refine ⟨rfl, rfl, ?_, alikeHeaders_stampRequest alike, .some ⟨?_, ?_, ?_, ?_, ?_, ?_⟩⟩
  · rw [head_stampRequest, head_stampRequest]
    exact alike.method
  · rw [leftType, rightType]
  · rw [leftName, rightName]
  · rw [leftFields, rightFields]
  · rw [leftRaw, leftJson]
    exact leftReads
  · rw [rightRaw, rightJson]
    exact rightReads
  · rw [leftJson, rightJson]
    exact values

end Decoded

/-! ## Noninterference -/

/-- What no sanitizer has seen is the same in both reports. -/
structure Report.Agrees (left right : Report) : Prop where
  /-- The client is refused for the same reason, over the same preview of the variables. -/
  refusal : left.refusal = right.refusal
  request : left.request = right.request
  /-- The same response is told of, its headers and its body, or the same error. -/
  ending : left.ending.unstamped = right.ending.unstamped

/-- The secrets in which two runs differ are not in their messages. -/
structure Concealed (proxy : CompositeServiceProxy) (dynamic : DynamicGatewayState) (engine : Engine)
    (environment otherEnvironment : Environment) (left right : Arrival) : Prop where
  agrees : (left.report proxy dynamic environment engine).Agrees
    (right.report proxy dynamic otherEnvironment engine)
  masked : (left.report proxy dynamic environment engine).carriesRequest →
    ∀ leftInfo ∈ (left.course proxy dynamic engine).info,
      ∀ rightInfo ∈ (right.course proxy dynamic engine).info,
        MaskedRequest defaultSanitizer (unstamped leftInfo) (unstamped rightInfo)

section Noninterference

variable {patterns : Patterns} {proxy : CompositeServiceProxy} {dynamic : DynamicGatewayState}
  {engine : Engine} {environment otherEnvironment : Environment} {arrival left right : Arrival}
  {info leftInfo rightInfo : RequestInfo} {fromStr : String → Option Json}

theorem report_of_undecoded (notDecoded : (arrival.course proxy dynamic engine).info = none) :
    arrival.report proxy dynamic environment engine = ⟨none, false, .untold⟩ := by
  unfold Arrival.report
  rw [notDecoded]
  generalize arrival.course proxy dynamic engine = course at notDecoded ⊢
  cases course with
  | unrouted | edge | keyTaken _ | unread | undecoded => rfl
  | rejected _ _ | fingerprintTaken _ _ | disabled _ _ | command _ _ | forwarded _ _ =>
    cases notDecoded

theorem messages_eq_nil_iff (stamps : Stamps) (clientIp topic : String) (report : Report) :
    report.messages proxy stamps clientIp topic info = [] ↔ report = ⟨none, false, .untold⟩ := by
  obtain ⟨refusal, request, ending⟩ := report
  unfold Report.messages
  cases refusal with
  | some _ => simp
  | none =>
    cases request with
    | true => simp
    | false => cases ending <;> simp [Ending.messages]

/-- What alike requests have in common. -/
theorem operation_of_alike
    (alike : AlikeRequest defaultSanitizer fromStr (unstamped leftInfo) (unstamped rightInfo))
    (isGraphql : leftInfo.gql.isSome) :
    leftInfo.operationName = rightInfo.operationName ∧
      TopicResolver.resolveDispatchTopic leftInfo = TopicResolver.resolveDispatchTopic rightInfo ∧
      ∀ clientIp refusal, auditOf clientIp leftInfo refusal = auditOf clientIp rightInfo refusal := by
  obtain ⟨leftGql, isLeft⟩ := Option.isSome_iff_exists.mp isGraphql
  have gql : Option.Rel (Sanitizer.AlikeGql defaultSanitizer fromStr) leftInfo.gql rightInfo.gql := alike.gql
  rw [isLeft] at gql
  generalize isRight : rightInfo.gql = otherGql at gql
  cases gql with
  | @some _ rightGql gql =>
    have query : (leftGql.jsonBody.get "query").bind Json.asStr =
        (rightGql.jsonBody.get "query").bind Json.asStr := gql.body.text_eq (by decide +kernel)
    refine ⟨?_, ?_, ?_⟩
    · unfold RequestInfo.operationName
      rw [isLeft, isRight]
      exact gql.operationName
    · unfold TopicResolver.resolveDispatchTopic
      rw [isLeft, isRight]
      dsimp only
      rw [gql.operationName, gql.rootFields, gql.operationType]
    · intro clientIp refusal
      unfold auditOf RequestInfo.operationName operationTypeText queryPreview
      rw [isLeft, isRight]
      simp only [Option.bind_some, Option.map_some, Option.getD_some, gql.operationName,
        gql.operationType, query]

/-- The messages of two reports on alike requests. -/
theorem messages_sameButStamps_iff (stamps otherStamps : Stamps) (clientIp topic : String)
    (alike : AlikeRequest defaultSanitizer proxy.crates.fromStr (unstamped leftInfo) (unstamped rightInfo))
    (isGraphql : leftInfo.gql.isSome) (leftReport rightReport : Report) :
    List.Forall₂ (SameButStamps stamps otherStamps)
        (leftReport.messages (proxy.sanitizing patterns) stamps clientIp topic leftInfo)
        (rightReport.messages (proxy.sanitizing patterns) otherStamps clientIp topic rightInfo) ↔
      leftReport.Agrees rightReport ∧ (leftReport.carriesRequest →
        MaskedRequest defaultSanitizer (unstamped leftInfo) (unstamped rightInfo)) := by
  obtain ⟨sameName, -, sameAudit⟩ := operation_of_alike alike isGraphql
  have sameTopic : auditTopic leftInfo = auditTopic rightInfo := by
    unfold auditTopic
    rw [sameName]
  have sanitized : serializedRequest (unstamped ((proxy.sanitizing patterns).sanitize leftInfo)) =
      serializedRequest (unstamped ((proxy.sanitizing patterns).sanitize rightInfo)) ↔
        MaskedRequest defaultSanitizer (unstamped leftInfo) (unstamped rightInfo) := by
    unfold CompositeServiceProxy.sanitizing
    dsimp only
    rw [unstamped_sanitizeRequest, unstamped_sanitizeRequest]
    exact alike.sanitized_iff
  -- audits and requests come first, then the ending, and each part answers to its own
  have told : ∀ (info : RequestInfo) (stamps : Stamps) (report : Report),
      ∀ message ∈ (report.refusal.toList.map fun refusal => Publication.payload (auditTopic info)
          ((auditOf clientIp info refusal).text stamps)) ++
        (if report.request then [Publication.request ((proxy.sanitizing patterns).sanitize info)] else []),
        (message.isPayload || message.isRequest) = true := by
    intro info stamps report message member
    cases List.mem_append.mp member with
    | inl audit => rw [isPayload_refusals _ message audit, Bool.true_or]
    | inr request => rw [(isRequest_requests _ message request).1, Bool.or_true]
  have ended : ∀ (info : RequestInfo) (stamps : Stamps) (ending : Ending),
      ∀ message ∈ ending.messages (proxy.sanitizing patterns) stamps.requestId stamps.hlc topic info,
        (message.isPayload || message.isRequest) = false := by
    intro info stamps ending message member
    obtain ⟨notPayload, notRequest⟩ := isPayload_messages ending _ _ message member
    rw [notPayload, notRequest]
    rfl
  unfold Report.messages
  rw [forall₂_append_iff (fun message => message.isPayload || message.isRequest)
      (fun _ _ same => by rw [same.isPayload_eq, same.isRequest_eq]) (told _ _ _) (told _ _ _)
      (ended _ _ _) (ended _ _ _),
    forall₂_append_iff Publication.isPayload (fun _ _ same => same.isPayload_eq) (isPayload_refusals _)
      (isPayload_refusals _) (fun message member => (isRequest_requests _ message member).2)
      (fun message member => (isRequest_requests _ message member).2),
    refusals_sameButStamps_iff sameTopic (sameAudit clientIp), requests_sameButStamps_iff sanitized,
    endings_sameButStamps_iff sanitized sameName rfl]
  unfold Report.carriesRequest
  rw [or_imp]
  constructor
  · exact fun parts => ⟨⟨parts.1.1, parts.1.2.1, parts.2.1⟩, parts.1.2.2, parts.2.2⟩
  · exact fun parts => ⟨⟨parts.1.refusal, parts.1.request, parts.2.1⟩, parts.1.ending, parts.2.2⟩

/-- A request that nothing is told of agrees only with another one. -/
theorem agrees_untold_iff (report : Report) :
    Report.Agrees ⟨none, false, .untold⟩ report ↔ report = ⟨none, false, .untold⟩ := by
  constructor
  · intro agrees
    obtain ⟨refusal, request, ending⟩ := report
    obtain ⟨rfl, rfl, same⟩ := agrees
    cases ending with
    | untold => rfl
    | failed _ _ | succeeded _ => cases same
  · rintro rfl
    exact ⟨rfl, rfl, rfl⟩

theorem Report.Agrees.symm {left right : Report} (agrees : left.Agrees right) : right.Agrees left :=
  ⟨agrees.refusal.symm, agrees.request.symm, agrees.ending.symm⟩

theorem isGraphql_of_info (graphql : proxy.ServesGraphql arrival.session.reqHeader.uri.path)
    (isInfo : (arrival.course proxy dynamic engine).info = some info) : info.gql.isSome := by
  obtain ⟨_, _, _, gql, _, _, _, rfl, _⟩ := graphql_of_info graphql isInfo
  rfl

/-- Nothing is published of a request exactly when its report tells nothing. -/
theorem publications_eq_nil_iff (graphql : proxy.ServesGraphql arrival.session.reqHeader.uri.path) :
    publications (run environment (serve proxy dynamic arrival) ⟨engine, []⟩).2.trace = [] ↔
      arrival.report proxy dynamic environment engine = ⟨none, false, .untold⟩ := by
  cases isInfo : (arrival.course proxy dynamic engine).info with
  | none =>
    exact iff_of_true (publications_of_undecoded proxy dynamic environment engine arrival isInfo)
      (report_of_undecoded isInfo)
  | some info =>
    rw [publications_eq_messages proxy dynamic environment engine arrival info isInfo
      (isGraphql_of_info graphql isInfo), messages_eq_nil_iff]

/-- At another time. -/
def Environment.withTime (environment : Environment) (time : Nat) : Environment :=
  { environment with nowEpochMs := time }

end Noninterference

/-- Two runs that have both decoded the request. -/
theorem publications_same_iff_of_decoded (patterns : Patterns) (proxy : CompositeServiceProxy)
    (dynamic : DynamicGatewayState) (environment : Environment) (engine : Engine) (left right : Arrival)
    (time otherTime : Nat) (graphql : proxy.ServesGraphql left.session.reqHeader.uri.path)
    (alike : left.DiffersInSecrets proxy.crates.fromStr right) {leftInfo rightInfo : RequestInfo}
    (isLeft : (left.course (proxy.sanitizing patterns) dynamic engine).info = some leftInfo)
    (isRight : (right.course (proxy.sanitizing patterns) dynamic engine).info = some rightInfo) :
    List.Forall₂ (SameButStamps ⟨left.requestId, left.hlc, time⟩ ⟨right.requestId, right.hlc, otherTime⟩)
        (publications (run (environment.withTime time)
          (serve (proxy.sanitizing patterns) dynamic left) ⟨engine, []⟩).2.trace)
        (publications (run (environment.withTime otherTime)
          (serve (proxy.sanitizing patterns) dynamic right) ⟨engine, []⟩).2.trace) ↔
      (left.report (proxy.sanitizing patterns) dynamic (environment.withTime time) engine).Agrees
          (right.report (proxy.sanitizing patterns) dynamic (environment.withTime otherTime) engine) ∧
        ((left.report (proxy.sanitizing patterns) dynamic (environment.withTime time) engine).carriesRequest →
          MaskedRequest defaultSanitizer (unstamped leftInfo) (unstamped rightInfo)) := by
  have served : (proxy.sanitizing patterns).ServesGraphql left.session.reqHeader.uri.path := graphql
  have otherServed : (proxy.sanitizing patterns).ServesGraphql right.session.reqHeader.uri.path :=
    alike.path ▸ graphql
  have secrets : left.DiffersInSecrets (proxy.sanitizing patterns).crates.fromStr right := alike
  have alikeInfos := alikeRequest_of_infos secrets served isLeft isRight
  have isGraphql := isGraphql_of_info served isLeft
  have sameTopic : operationTopic dynamic (admitted (proxy.sanitizing patterns) dynamic left) leftInfo =
      operationTopic dynamic (admitted (proxy.sanitizing patterns) dynamic right) rightInfo := by
    unfold operationTopic
    rw [appId_admitted secrets, (operation_of_alike alikeInfos isGraphql).2.1]
  rw [publications_eq_messages _ _ _ _ _ leftInfo isLeft isGraphql,
    publications_eq_messages _ _ _ _ _ rightInfo isRight (isGraphql_of_info otherServed isRight),
    ← sameTopic, ← alike.clientIp]
  exact messages_sameButStamps_iff _ _ _ _ alikeInfos isGraphql _ _

def payWithBody (password : String) : String :=
  "\x7b\"query\":\"mutation \x7b pay \x7d\",\"variables\":\x7b\"password\":\"" ++ password ++ "\"\x7d\x7d"

def payWithValue (password : String) : Json :=
  .object [("query", .string "mutation \x7b pay \x7d"),
    ("variables", .object [("password", .string password)])]

/-- The small gateway on a request that brings one of two passwords. -/
def passwordProxy : CompositeServiceProxy :=
  { smallProxy with
    crates := { smallCrates with
      fromStr := fun text => (["hunter2", "letmein"].find? fun password => text = payWithBody password).map
        payWithValue } }

def payWith (password : String) : Arrival := smallArrival .post [] (payWithBody password)

theorem reads_payWithBody : passwordProxy.crates.fromStr (payWithBody "hunter2") = some (payWithValue "hunter2") ∧
    passwordProxy.crates.fromStr (payWithBody "letmein") = some (payWithValue "letmein") :=
  ⟨rfl, rfl⟩

theorem head_payWith (password : String) :
    (payWith password).session.reqHeader = ⟨.post, ⟨"", "/graphql", none⟩, []⟩ := rfl

theorem requestId_payWith (password : String) :
    (payWith password).requestId = "0190163d-8694-739b-aea5-966c26f8ad91" := rfl

theorem hlc_payWith (password : String) : (payWith password).hlc = ⟨1000, 0⟩ := rfl

theorem flatten_payWith (password : String) :
    (payWith password).session.chunks.flatten = asBytes (payWithBody password) :=
  List.append_nil _

theorem payWith_differs :
    (payWith "hunter2").DiffersInSecrets passwordProxy.crates.fromStr (payWith "letmein") where
  method := by rw [head_payWith, head_payWith]
  origin := by rw [head_payWith, head_payWith]
  path := by rw [head_payWith, head_payWith]
  query := by
    rw [head_payWith, head_payWith]
    exact .none
  headers := by
    rw [head_payWith, head_payWith]
    exact .nil
  body := by
    have alike : Sanitizer.Alike defaultSanitizer (payWithValue "hunter2") (payWithValue "letmein") :=
      .object (.cons (.same _) (.cons (.object (.secret (by decide +kernel) .nil)) .nil))
    have bodies := AlikeBytes.json reads_payWithBody.1 reads_payWithBody.2 alike
    rw [flatten_payWith, flatten_payWith]
    exact bodies
  clientIp := rfl
  readError := rfl
  upstream := .response _ _ (.same _)

theorem passwordProxy_servesGraphql : passwordProxy.ServesGraphql "/graphql" := by
  intro service isService
  cases isService
  exact ⟨_, rfl⟩

/-- What the gateway has decoded of the request. -/
theorem info_payWith {password : String} {info : RequestInfo}
    (reads : passwordProxy.crates.fromStr (payWithBody password) = some (payWithValue password))
    (isInfo : ((payWith password).course (passwordProxy.sanitizing nothingToMask) (auditing [])
      fun _ => none).info = some info) :
    info.http = (stampRequest (admitted (passwordProxy.sanitizing nothingToMask) (auditing [])
        (payWith password))).session.reqHeader ∧
      ∀ gql ∈ info.gql, gql.jsonBody = payWithValue password := by
  have graphql : (passwordProxy.sanitizing nothingToMask).ServesGraphql
      (payWith password).session.reqHeader.uri.path := passwordProxy_servesGraphql
  obtain ⟨body, value, _, gql, chunks, isValue, _, rfl, _, _, _, _, isJson⟩ := graphql_of_info graphql isInfo
  obtain rfl := asBytes_inj.mp (chunks.symm.trans (flatten_payWith password))
  refine ⟨rfl, ?_⟩
  rintro _ ⟨⟩
  rw [isJson]
  exact Option.some.inj (isValue.symm.trans reads)

theorem masked_payWith {leftInfo rightInfo : RequestInfo}
    (isLeft : ((payWith "hunter2").course (passwordProxy.sanitizing nothingToMask) (auditing [])
      fun _ => none).info = some leftInfo)
    (isRight : ((payWith "letmein").course (passwordProxy.sanitizing nothingToMask) (auditing [])
      fun _ => none).info = some rightInfo) :
    MaskedRequest defaultSanitizer (unstamped leftInfo) (unstamped rightInfo) := by
  obtain ⟨leftHttp, leftBody⟩ := info_payWith reads_payWithBody.1 isLeft
  obtain ⟨rightHttp, rightBody⟩ := info_payWith reads_payWithBody.2 isRight
  have sameApp : (admitted (passwordProxy.sanitizing nothingToMask) (auditing []) (payWith "hunter2")).ctx.appId =
      (admitted (passwordProxy.sanitizing nothingToMask) (auditing []) (payWith "letmein")).ctx.appId :=
    appId_admitted payWith_differs
  have sameHttp : leftInfo.http = rightInfo.http := by
    rw [leftHttp, rightHttp, head_stampRequest, head_stampRequest, sameApp, head_payWith, head_payWith,
      requestId_payWith, requestId_payWith, hlc_payWith, hlc_payWith]
  unfold unstamped
  rw [sameHttp]
  refine ⟨rfl, List.forall₂_same.mpr fun _ _ _ => rfl, ?_⟩
  intro leftGql isLeftGql rightGql isRightGql
  rw [leftBody leftGql isLeftGql, rightBody rightGql isRightGql]
  have hidden : Sanitizer.Masked defaultSanitizer 1 (.object [("password", .string "hunter2")])
      (.object [("password", .string "letmein")]) :=
    .object (by decide) (.secret (by decide +kernel) (by decide +kernel) (.nil _))
  exact .object (by decide) (.query _ (.cons (by decide +kernel) (by decide +kernel) hidden (.nil _)))

end SpectraGQL.Gateway
