import SpectraGQL.Gateway.Delivery

/-! # What a replay repeats

A Mode A response goes to the client as it comes from upstream.  What a replay answers with
later is another thing: it is put together from what the telemetry keeps of the response, a
limited part of the body, decoded and perhaps printed anew, and a list of headers in which a
name keeps one value.  `replay_repeats_iff` says for which responses the two are the same.
-/

namespace SpectraGQL.Gateway

open Interaction SpectraGQL.Core SpectraGQL.Http SpectraGQL.Protocol SpectraGQL.Interceptors
open SpectraGQL.Telemetry SpectraGQL.Idempotency

/-! ## The same answer again -/

/-- The headers that are meant for one connection only. -/
def hopByHopHeaders : List String :=
  ["connection", "keep-alive", "proxy-authenticate", "proxy-authorization", "proxy-connection", "te",
    "trailer", "transfer-encoding", "upgrade"]

/-- Whether the `connection` header names a header. -/
def isNominated (headers : HeaderMap) (name : String) : Bool :=
  (headers.valuesOf "connection").any fun value =>
    (splitOn ',' ((HeaderValue.toStr value).getD "")).any fun part => toLowercase (trim part) == name

def isEndToEnd (headers : HeaderMap) (name : String) : Bool :=
  !hopByHopHeaders.contains name && !isNominated headers name

/-- The headers that every answer of the gateway has for itself. -/
def isGatewayHeader (name : String) : Bool :=
  ["content-length", requestIdHeader, hlcHeader, replayHeader].contains name ||
    startsWith name "access-control-"

/-- Whether a replay is to repeat the values of a header. -/
def isLasting (headers : HeaderMap) (name : String) : Bool :=
  isEndToEnd headers name && !isGatewayHeader name

/-- The replay has the status, the body and all lasting header values of the original. -/
structure Repeats (original replay : Received) : Prop where
  status : replay.head.map ResponseHeader.status = original.head.map ResponseHeader.status
  body : replay.body = original.body
  headers : ∀ first ∈ original.head, ∀ again ∈ replay.head, ∀ name,
    isLasting first.headers name = true → ∀ value ∈ first.headers.valuesOf name,
      value ∈ again.headers.valuesOf name

section Claim

variable {environment : Environment} (takes : ∀ calls, environment.clientTakes calls = true)

include takes

theorem received_writeResponse (header : ResponseHeader) (body : String) (world : World) :
    received (run environment (writeResponse header body) world).2.trace =
      ⟨some header, (received world.trace).body ++ asBytes body⟩ := by
  unfold writeResponse
  obtain ⟨wrote, got⟩ := received_writeResponseHeader (takes world.trace.length) header
  rw [run_bind, wrote, if_pos rfl, (received_writeResponseBody (takes _) (asBytes body)).2, got]
  rfl

/-- What the client of a completed key receives. -/
theorem received_claimKey {world : World} (fresh : world.trace = []) {key : String}
    {holder : HlcTimestamp} {status : StatusCode} {headers : List (String × String)} {body : String}
    (stored : world.engine key = some (.completed holder status.code headers body)) (ctx : ProxyCtx)
    (shownKey : Option String) :
    received (run environment (IdempotencyFilter.claimKey ctx key shownKey) world).2.trace =
      ⟨some (IdempotencyFilter.replayResponseHeader ctx.requestId ctx.hlc status headers body),
        asBytes body⟩ := by
  have answers : IdempotencyFilter.writeReplayResponse ctx.requestId ctx.hlc status.code headers body =
      writeResponse (IdempotencyFilter.replayResponseHeader ctx.requestId ctx.hlc status headers body) body >>=
        fun _ => pure (.ok ()) := by
    unfold IdempotencyFilter.writeReplayResponse
    rw [StatusCode.fromU16_code]
  unfold IdempotencyFilter.claimKey
  rw [run_bind, run_checkOrInsert, handle_checkOrInsert_of_taken stored]
  unfold KeyState.outcome IdempotencyFilter.answerClaim
  dsimp only
  rw [answers, run_bind, run_bind]
  exact (received_writeResponse takes _ body _).trans (by rw [fresh]; rfl)

end Claim

/-! ## Headers -/

/-- Header names are in lower case, as the `http` crate stores them. -/
def LowerCase (headers : HeaderMap) : Prop := ∀ header ∈ headers, toLowercase header.1 = header.1

section Headers

variable {headers : HeaderMap} {name : String}

/-- The record has the text values of a name in their order. -/
theorem filter_headerPairs (lowerCase : LowerCase headers) (notHop : isHopByHop name = false) :
    ((headerPairs headers).filter fun pair => pair.1 = name) =
      ((headers.valuesOf name).filterMap HeaderValue.toStr).map fun text => (name, text) := by
  induction headers with
  | nil => rfl
  | cons header rest inductionHypothesis =>
    have lower : toLowercase header.1 = header.1 := lowerCase header List.mem_cons_self
    have known := inductionHypothesis fun other member => lowerCase other (List.mem_cons_of_mem _ member)
    unfold headerPairs HeaderMap.valuesOf at known ⊢
    by_cases same : header.1 = name
    · subst same
      cases text : HeaderValue.toStr header.2 with
      | none => simpa [lower, notHop, text] using known
      | some text' => simpa [lower, notHop, text] using known
    · by_cases hop : isHopByHop header.1 = true
      · simpa [lower, hop, same] using known
      · cases text : HeaderValue.toStr header.2 with
        | none => simpa [lower, hop, same, text] using known
        | some text' => simpa [lower, hop, same, text] using known

theorem status_replayResponseHeader (requestId : RequestId) (hlc : HlcTimestamp) (status : StatusCode)
    (pairs : List (String × String)) (body : String) :
    (IdempotencyFilter.replayResponseHeader requestId hlc status pairs body).status = status := by
  unfold IdempotencyFilter.replayResponseHeader
  dsimp only [ResponseHeader.insertHeader]
  exact ResponseHeader.status_foldl_insertHeader pairs (ResponseHeader.build status)

/-- A lasting header is none of those that the gateway writes or drops. -/
theorem ne_of_isLasting (lasting : isLasting headers name = true) :
    isHopByHop name = false ∧ name ≠ "connection" ∧ name ≠ "content-length" ∧ name ≠ requestIdHeader ∧
      name ≠ hlcHeader ∧ name ≠ replayHeader ∧ name ≠ "access-control-allow-origin" ∧
      name ≠ "access-control-expose-headers" := by
  obtain ⟨endToEnd, notOwn⟩ := Bool.and_eq_true_iff.mp lasting
  have notHop := (Bool.and_eq_true_iff.mp endToEnd).1
  have others : ∀ other, (hopByHopHeaders.contains other || isGatewayHeader other) = true →
      name ≠ other := by
    rintro other named rfl
    rw [Bool.not_eq_true'] at notHop notOwn
    rw [notHop, notOwn] at named
    cases named
  refine ⟨?_, others _ (by decide), others _ (by decide), others _ (by decide), others _ (by decide),
    others _ (by decide), others _ (by decide), others _ (by decide)⟩
  simp [isHopByHop, others "connection" (by decide), others "keep-alive" (by decide),
    others "transfer-encoding" (by decide)]

/-- The values of a lasting header in a replay. -/
theorem valuesOf_replayResponseHeader (lasting : isLasting headers name = true) (requestId : RequestId)
    (hlc : HlcTimestamp) (status : StatusCode) (pairs : List (String × String)) (body : String) :
    (IdempotencyFilter.replayResponseHeader requestId hlc status pairs body).headers.valuesOf name =
      if name = "content-type" then [.ofString "application/json"]
      else ((pairs.filter fun pair => pair.1 = name).getLast?.map fun pair =>
        [HeaderValue.ofString pair.2]).getD [] := by
  obtain ⟨-, -, notLength, notId, notHlc, notReplay, notOrigin, notExposed⟩ := ne_of_isLasting lasting
  unfold IdempotencyFilter.replayResponseHeader
  simp only [ResponseHeader.headers_insertHeader]
  rw [HeaderMap.valuesOf_insertStr_of_ne notHlc.symm, HeaderMap.valuesOf_insertStr_of_ne notId.symm,
    HeaderMap.valuesOf_insertStr_of_ne notReplay.symm, HeaderMap.valuesOf_insertStr_of_ne notExposed.symm,
    HeaderMap.valuesOf_insertStr_of_ne notOrigin.symm, HeaderMap.valuesOf_insertStr_of_ne notLength.symm]
  split
  · rename_i contentType
    rw [contentType]
    exact HeaderMap.valuesOf_insertStr_self ..
  · rename_i other
    rw [HeaderMap.valuesOf_insertStr_of_ne (Ne.symm other), ResponseHeader.headers_foldl_insertHeader,
      HeaderMap.valuesOf_foldl_insertStr]
    rfl

end Headers

/-- A header of which a replay has every value: a record keeps one value of a name and only
    text, and every replay says that it is JSON. -/
def OneText (headers : HeaderMap) (name : String) : Prop :=
  if name = "content-type" then ∀ value ∈ headers.valuesOf name, value = .ofString "application/json"
  else ∀ value ∈ headers.valuesOf name,
    (HeaderValue.toStr value).isSome = true ∧ ∀ other ∈ headers.valuesOf name, other = value

/-- The last text of a name is all its values only if they are one text. -/
theorem mem_lastText_iff (values : List HeaderValue) :
    (∀ value ∈ values, value ∈ ((values.filterMap HeaderValue.toStr).getLast?.map fun text =>
        [HeaderValue.ofString text]).getD []) ↔
      ∀ value ∈ values, (HeaderValue.toStr value).isSome = true ∧ ∀ other ∈ values, other = value := by
  -- the last text is the text of one of the values
  have origin : ∀ text, (values.filterMap HeaderValue.toStr).getLast? = some text →
      ∃ value ∈ values, HeaderValue.toStr value = some text := fun text last =>
    List.mem_filterMap.mp (List.mem_of_getLast? last)
  cases last : (values.filterMap HeaderValue.toStr).getLast? with
  | none =>
    have noText : values.filterMap HeaderValue.toStr = [] := List.getLast?_eq_none_iff.mp last
    constructor
    · intro repeated value member
      cases repeated value member
    · intro oneText value member
      obtain ⟨text, isText⟩ := Option.isSome_iff_exists.mp (oneText value member).1
      have listed : text ∈ values.filterMap HeaderValue.toStr := List.mem_filterMap.mpr ⟨value, member, isText⟩
      rw [noText] at listed
      cases listed
  | some text =>
    obtain ⟨source, sourceMember, isText⟩ := origin text last
    have same : HeaderValue.ofString text = source := HeaderValue.ofString_of_toStr isText
    simp only [Option.map_some, Option.getD_some, List.mem_singleton, same]
    constructor
    · intro repeated value member
      rw [repeated value member, isText]
      exact ⟨rfl, repeated⟩
    · intro oneText value member
      exact (oneText source sourceMember).2 value member

/-- A replay has all values of a lasting header exactly when these are one text. -/
theorem repeats_values_iff {headers recorded : HeaderMap} {name : String} (lowerCase : LowerCase recorded)
    (lasting : isLasting headers name = true) (same : recorded.valuesOf name = headers.valuesOf name)
    (requestId : RequestId) (hlc : HlcTimestamp) (status : StatusCode) (body : String) :
    (∀ value ∈ headers.valuesOf name, value ∈ (IdempotencyFilter.replayResponseHeader requestId hlc status
        (headerPairs recorded) body).headers.valuesOf name) ↔ OneText headers name := by
  rw [valuesOf_replayResponseHeader lasting, filter_headerPairs lowerCase (ne_of_isLasting lasting).1, same]
  unfold OneText
  split
  · simp only [List.mem_singleton]
  · rw [← mem_lastText_iff, List.getLast?_map, Option.map_map]
    rfl

/-! ## The body -/

/-- What the record relies on in `serde_json`. -/
structure SerdeFacts (crates : Crates) : Prop where
  /-- The empty text is no value. -/
  empty : crates.fromStr "" = none
  /-- Only short texts, of numbers, can be printed with something added at their end. -/
  notExtended : ∀ text value, crates.fromStr text = some value → 64 ≤ (asBytes text).length →
    asBytes text <+: asBytes value.toString → value.toString = text

/-- A body that the record keeps as it is: it fits, it is text, and where it is taken for
    JSON it is printed as `serde_json` prints it. -/
structure Preserved (crates : Crates) (headers : HeaderMap) (limit : Option Nat) (body : Bytes) : Prop where
  fits : ∀ bytes ∈ limit, body.length ≤ bytes
  printed : ∃ text, fromUtf8 body = some text ∧ (ResponseBody.isJsonCandidate headers text = true →
    ∀ value, crates.fromStr text = some value → value.toString = text)

section Body

variable {crates : Crates} {headers : HeaderMap}

theorem recorded_new (text : String) :
    (ResponseBody.new crates headers text).recorded = text ∨
      ∃ value, ResponseBody.isJsonCandidate headers text = true ∧ crates.fromStr text = some value ∧
        (ResponseBody.new crates headers text).recorded = value.toString := by
  unfold ResponseBody.new
  split
  · rename_i candidate
    cases parsed : crates.fromStr text with
    | none => exact .inl rfl
    | some value => exact .inr ⟨value, candidate, rfl, rfl⟩
  · exact .inl rfl

theorem recorded_new_iff {text : String} :
    (ResponseBody.new crates headers text).recorded = text ↔
      (ResponseBody.isJsonCandidate headers text = true → ∀ value, crates.fromStr text = some value →
        value.toString = text) := by
  unfold ResponseBody.new
  split
  · rename_i candidate
    cases parsed : crates.fromStr text with
    | none => simp [ResponseBody.recorded]
    | some value => simp [ResponseBody.recorded, candidate]
  · rename_i notCandidate
    simp [ResponseBody.recorded, notCandidate]

/-- A start of a body, decoded and perhaps printed anew, is not the body. -/
theorem recorded_ne_of_short (serde : SerdeFacts crates) {bytes : Nat} (large : bytes = 0 ∨ 64 ≤ bytes)
    {body : Bytes} (tooLong : bytes < body.length) :
    asBytes (ResponseBody.new crates headers ((fromUtf8 (body.take bytes)).getD "")).recorded ≠ body := by
  intro same
  have short : (body.take bytes).length = bytes := (List.length_take ..).trans (by omega)
  cases valid : fromUtf8 (body.take bytes) with
  | none =>
    -- what is no text is recorded as the empty text
    rw [valid, Option.getD_none] at same
    cases @recorded_new crates headers "" with
    | inl asItWas =>
      rw [asItWas, show asBytes "" = [] from rfl] at same
      simp [← same] at tooLong
    | inr printed =>
      obtain ⟨value, -, parsed, -⟩ := printed
      simp [serde.empty] at parsed
  | some text =>
    have bytesOf : asBytes text = body.take bytes := asBytes_of_fromUtf8 valid
    rw [valid, Option.getD_some] at same
    cases @recorded_new crates headers text with
    | inl asItWas =>
      rw [asItWas, bytesOf] at same
      rw [same] at short
      omega
    | inr printed =>
      obtain ⟨value, -, parsed, isPrinted⟩ := printed
      rw [isPrinted] at same
      cases large with
      | inl nothing =>
        have empty : fromUtf8 (asBytes text) = fromUtf8 (asBytes "") := by
          rw [bytesOf, nothing]
          rfl
        rw [fromUtf8_asBytes, fromUtf8_asBytes] at empty
        rw [Option.some.inj empty, serde.empty] at parsed
        cases parsed
      | inr long =>
        have again := serde.notExtended text value parsed (by rw [bytesOf, short]; exact long)
          (by rw [bytesOf, same]; exact List.take_prefix ..)
        rw [again, bytesOf] at same
        rw [same] at short
        omega

/-- The record has the body exactly when the body is preserved. -/
theorem recorded_eq_iff (serde : SerdeFacts crates) {limit : Option Nat}
    (large : ∀ bytes ∈ limit, bytes = 0 ∨ 64 ≤ bytes) (body : Bytes) :
    asBytes (ResponseBody.new crates headers ((fromUtf8 (upTo limit body)).getD "")).recorded = body ↔
      Preserved crates headers limit body := by
  have whole : (∀ bytes ∈ limit, body.length ≤ bytes) → upTo limit body = body := by
    intro fits
    cases limit with
    | none => rfl
    | some bytes => exact List.take_of_length_le (fits bytes rfl)
  constructor
  · intro same
    have fits : ∀ bytes ∈ limit, body.length ≤ bytes := by
      rintro bytes rfl
      by_contra tooLong
      -- a body that is cut off leaves a shorter record
      exact recorded_ne_of_short serde (large bytes rfl) (by omega) same
    rw [whole fits] at same
    have valid : fromUtf8 body = some (ResponseBody.new crates headers ((fromUtf8 body).getD "")).recorded :=
      (congrArg fromUtf8 same.symm).trans (fromUtf8_asBytes _)
    cases decoded : fromUtf8 body with
    | none =>
      rw [decoded] at valid
      cases valid
    | some text =>
      rw [decoded, Option.getD_some] at valid
      exact ⟨fits, text, decoded, recorded_new_iff.mp (Option.some.inj valid).symm⟩
  · rintro ⟨fits, text, valid, printed⟩
    rw [whole fits, valid, Option.getD_some, recorded_new_iff.mpr printed]
    exact asBytes_of_fromUtf8 valid

end Body

/-! ## The original -/

/-- The head of a response with the headers of its request. -/
def stampResponse (ctx : ProxyCtx) (head : ResponseHeader) : ResponseHeader :=
  (head.appendHeader requestIdHeader ctx.requestId).appendHeader hlcHeader ctx.hlc.toCompactString

theorem responseParts_responseFilter (dynamic : DynamicGatewayState) (ctx : ProxyCtx)
    (head : ResponseHeader) :
    (responseFilter dynamic ctx head).1.responseParts = some (stampResponse ctx head) := by
  unfold responseFilter
  dsimp only
  split <;> rfl

theorem status_responseFilter (dynamic : DynamicGatewayState) (ctx : ProxyCtx) (head : ResponseHeader) :
    (responseFilter dynamic ctx head).2.status = head.status := by
  unfold responseFilter
  dsimp only
  split <;> rfl

section Stamps

variable {name : String} (notId : name ≠ requestIdHeader) (notHlc : name ≠ hlcHeader) (ctx : ProxyCtx)
  (head : ResponseHeader)

include notId notHlc

theorem valuesOf_stampResponse :
    (stampResponse ctx head).headers.valuesOf name = head.headers.valuesOf name := by
  unfold stampResponse ResponseHeader.appendHeader
  dsimp only
  rw [HeaderMap.valuesOf_appendStr_of_ne notHlc.symm, HeaderMap.valuesOf_appendStr_of_ne notId.symm]

theorem valuesOf_responseFilter (dynamic : DynamicGatewayState) (notLength : name ≠ "content-length") :
    (responseFilter dynamic ctx head).2.headers.valuesOf name = head.headers.valuesOf name := by
  rw [← valuesOf_stampResponse notId notHlc ctx head]
  unfold responseFilter
  dsimp only
  split
  · exact HeaderMap.valuesOf_remove_of_ne notLength.symm
  · rfl

end Stamps

theorem isLasting_responseFilter (dynamic : DynamicGatewayState) (ctx : ProxyCtx) (head : ResponseHeader)
    (name : String) :
    isLasting (responseFilter dynamic ctx head).2.headers name = isLasting head.headers name := by
  unfold isLasting isEndToEnd isNominated
  rw [valuesOf_responseFilter (by decide) (by decide) ctx head dynamic (by decide)]

theorem lowerCase_stampResponse {head : ResponseHeader} (lowerCase : LowerCase head.headers)
    (ctx : ProxyCtx) : LowerCase (stampResponse ctx head).headers := by
  intro header member
  unfold stampResponse ResponseHeader.appendHeader HeaderMap.appendStr HeaderMap.append at member
  simp only [List.append_assoc, List.mem_append, List.mem_singleton] at member
  rcases member with upstream | rfl | rfl
  · exact lowerCase header upstream
  · show toLowercase requestIdHeader = requestIdHeader
    decide
  · show toLowercase hlcHeader = hlcHeader
    decide

/-- The body that is kept of a response. -/
def keptResponse (proxy : CompositeServiceProxy) (dynamic : DynamicGatewayState) (elapsedMs : Nat)
    (ctx : ProxyCtx) (head : ResponseHeader) (chunks : List (Option Bytes)) : ResponseBody :=
  ResponseBody.new proxy.crates (stampResponse ctx head).headers
    ((fromUtf8 (upTo (keptLimit dynamic ctx head)
      (deliveredBody dynamic elapsedMs ctx head chunks))).getD "")

/-- A key that is completed after the request was sent upstream was completed by logging,
    with a response that came to its end. -/
theorem settled_of_completed {proxy : CompositeServiceProxy} {dynamic : DynamicGatewayState}
    {environment : Environment} {exchange : Exchange} {world : World} {key : String}
    {head : ResponseHeader} {chunks : List (Option Bytes)} {broken : Option PingoraError} {elapsedMs : Nat}
    {holder completer : HlcTimestamp} {statusCode : UInt16} {headers : List (String × String)} {body : String}
    (unanswered : Unanswered exchange true) (mine : exchange.ctx.idempotencyKey = some key)
    (nothing : received world.trace = .none) (held : world.engine key = some (.inProgress holder))
    (completed : (run environment
      (proxyUpstream proxy dynamic exchange (.response head chunks broken) elapsedMs >>= fun forwarded =>
        logging proxy forwarded.2 forwarded.1) world).2.engine key =
      some (.completed completer statusCode headers body)) :
    received (run environment
        (proxyUpstream proxy dynamic exchange (.response head chunks broken) elapsedMs >>= fun forwarded =>
          logging proxy forwarded.2 forwarded.1) world).2.trace =
        ⟨some (responseFilter dynamic exchange.ctx head).2,
          deliveredBody dynamic elapsedMs exchange.ctx head chunks⟩ ∧
      head.status.isError = false ∧
      (run environment
        (proxyUpstream proxy dynamic exchange (.response head chunks broken) elapsedMs >>= fun forwarded =>
          logging proxy forwarded.2 forwarded.1) world).2.engine key =
        some (.completed exchange.ctx.hlc head.status.code
          (headerPairs (stampResponse exchange.ctx head).headers)
          (keptResponse proxy dynamic elapsedMs exchange.ctx head chunks).recorded) := by
  have leaves := (leavesEngine_proxyUpstream proxy dynamic exchange (.response head chunks broken)
    elapsedMs).engine_run environment world
  have core : (run environment (proxyUpstream proxy dynamic exchange (.response head chunks broken)
      elapsedMs) world).1.2.ctx.core = exchange.ctx.core :=
    ((core_proxyUpstream proxy dynamic exchange (.response head chunks broken) elapsedMs).interp
      (handle environment) world).2
  have ofEnded := @forwarded_of_ended proxy dynamic environment elapsedMs exchange unanswered.plain
    unanswered.noBody head chunks broken world
  rw [run_bind] at completed ⊢
  revert completed leaves core ofEnded
  generalize run environment (proxyUpstream proxy dynamic exchange (.response head chunks broken)
    elapsedMs) world = forwarded
  intro completed leaves core ofEnded
  have stillMine := (field_of_core ProxyCtx.idempotencyKey (fun _ => rfl) core).trans mine
  -- the key was in flight, so only logging can have completed it
  have loggable : Loggable forwarded.1.2 := by
    by_contra notLoggable
    rw [(onlyReports_logging (.inl notLoggable)).leavesEngine.engine_run, leaves] at completed
    cases held.symm.trans completed
  obtain ⟨state, settled, engineAfter⟩ :=
    engine_logging proxy loggable stillMine forwarded.1.1 environment forwarded.2
  rw [engineAfter, Function.update_self] at completed ⊢
  cases settled with
  | released => cases completed
  | completed parts noError answered success =>
    obtain ⟨got, kept⟩ := ofEnded noError
    have stamped : some (stampResponse exchange.ctx head) = some parts :=
      (responseParts_responseFilter dynamic _ head).symm.trans (kept.parts.symm.trans answered)
    cases stamped
    refine ⟨?_, success, ?_⟩
    · rw [received_run (silent_logging ..), got, nothing]
      rfl
    · have sameHlc : forwarded.1.2.ctx.hlc = exchange.ctx.hlc :=
        field_of_core ProxyCtx.hlc (fun _ => rfl) core
      have sameHeaders : responseHeaders (responseFilter dynamic exchange.ctx head).1 =
          (stampResponse exchange.ctx head).headers := by
        unfold responseHeaders
        rw [responseParts_responseFilter]
        rfl
      rw [kept.body, sameHlc, sameHeaders]
      rfl

/-- A Mode A request with a key: it goes upstream, is answered, and completes the key. -/
structure Original (proxy : CompositeServiceProxy) (dynamic : DynamicGatewayState)
    (environment : Environment) (engine : Engine) (arrival : Arrival) (exchange : Exchange) (key : String)
    (head : ResponseHeader) (chunks : List (Option Bytes)) (broken : Option PingoraError) : Prop where
  early : earlyRequestFilter proxy dynamic (arrival.exchange dynamic) = (.ok (), exchange)
  forwarded : (filtered proxy dynamic environment engine exchange).1.result = .ok false
  mine : (filtered proxy dynamic environment engine exchange).1.exchange.ctx.idempotencyKey = some key
  answer : arrival.upstream = .response head chunks broken
  completed : ∃ holder statusCode headers body,
    (run environment (serve proxy dynamic arrival) ⟨engine, []⟩).2.engine key =
      some (.completed holder statusCode headers body)

section Original

variable {proxy : CompositeServiceProxy} {dynamic : DynamicGatewayState} {environment : Environment}
  {engine : Engine} {arrival : Arrival} {exchange : Exchange} {key : String} {head : ResponseHeader}
  {chunks : List (Option Bytes)} {broken : Option PingoraError}

theorem unanswered_of_early {result : Except PingoraError Unit}
    (early : earlyRequestFilter proxy dynamic (arrival.exchange dynamic) = (result, exchange)) :
    Unanswered exchange true := by
  obtain ⟨appId, addr, service, same⟩ := ctx_earlyRequestFilter early
  refine ⟨rfl, ?_, ?_, ?_⟩ <;> rw [same] <;> rfl

theorem Original.run_serve
    (original : Original proxy dynamic environment engine arrival exchange key head chunks broken) :
    run environment (serve proxy dynamic arrival) ⟨engine, []⟩ =
      run environment (proxyUpstream proxy dynamic
        (filtered proxy dynamic environment engine exchange).1.exchange (.response head chunks broken)
        arrival.elapsedMs >>= fun forwarded => logging proxy forwarded.2 forwarded.1)
        (filtered proxy dynamic environment engine exchange).2 := by
  unfold serve
  rw [original.early]
  dsimp only
  rw [run_bind]
  unfold afterRequestFilter
  rw [show (run environment (requestFilter proxy dynamic exchange) ⟨engine, []⟩).1.result = .ok false from
    original.forwarded, original.answer]
  rfl

/-- What the client has received, and what the key is completed with. -/
theorem Original.settled
    (original : Original proxy dynamic environment engine arrival exchange key head chunks broken)
    {ctx : ProxyCtx} (isCtx : ctx = (filtered proxy dynamic environment engine exchange).1.exchange.ctx) :
    received (run environment (serve proxy dynamic arrival) ⟨engine, []⟩).2.trace =
        ⟨some (responseFilter dynamic ctx head).2,
          deliveredBody dynamic arrival.elapsedMs ctx head chunks⟩ ∧
      head.status.isError = false ∧
      (run environment (serve proxy dynamic arrival) ⟨engine, []⟩).2.engine key =
        some (.completed ctx.hlc head.status.code (headerPairs (stampResponse ctx head).headers)
          (keptResponse proxy dynamic arrival.elapsedMs ctx head chunks).recorded) := by
  subst isCtx
  have unanswered := unanswered_of_early original.early
  obtain ⟨nothing, isUnanswered⟩ := received_of_forwarded unanswered environment rfl original.forwarded
  have held := held_of_forwarded unanswered (fresh_earlyRequestFilter original.early).2 environment
    ⟨engine, []⟩ isUnanswered.notModeB original.mine
  obtain ⟨_, _, _, _, completed⟩ := original.completed
  rw [original.run_serve] at completed ⊢
  exact settled_of_completed isUnanswered original.mine nothing held completed

end Original

/-! ## What is repeated -/

/-- How much of the body of a success the record can hold. -/
def recordLimit (dynamic : DynamicGatewayState) (ctx : ProxyCtx) : Option Nat :=
  if dynamic.interceptorManager.hasResponseInterceptors ctx.activeOperation then none
  else if isQuiet ctx.dispatchPolicy then some 0
  else some maxTelemetryResponseBytes

/-- A response that can be repeated: its body is preserved, and every header to be repeated
    has one value, which is text. -/
structure Repeatable (proxy : CompositeServiceProxy) (dynamic : DynamicGatewayState) (elapsedMs : Nat)
    (ctx : ProxyCtx) (head : ResponseHeader) (chunks : List (Option Bytes)) : Prop where
  body : Preserved proxy.crates head.headers (recordLimit dynamic ctx)
    (deliveredBody dynamic elapsedMs ctx head chunks)
  headers : ∀ name, isLasting head.headers name = true → OneText head.headers name

theorem keptLimit_of_success {dynamic : DynamicGatewayState} {ctx : ProxyCtx} {head : ResponseHeader}
    (success : head.status.isError = false) : keptLimit dynamic ctx head = recordLimit dynamic ctx := by
  have noError : capturesError dynamic (responseFilter dynamic ctx head).1 = false := by
    unfold capturesError
    rw [responseParts_responseFilter]
    simp [stampResponse, ResponseHeader.appendHeader, success]
  have policy := (responseFilter_fields dynamic ctx head).2.2
  unfold keptLimit recordLimit captureLimit isQuiet
  rw [noError, policy]
  cases ctx.dispatchPolicy <;> simp

theorem large_of_recordLimit {dynamic : DynamicGatewayState} {ctx : ProxyCtx} :
    ∀ bytes ∈ recordLimit dynamic ctx, bytes = 0 ∨ 64 ≤ bytes := by
  intro bytes member
  unfold recordLimit at member
  split at member
  · cases member
  · split at member
    · cases member
      exact .inl rfl
    · cases member
      exact .inr (by decide)

/-- The headers of the request do not change what a body is taken for. -/
theorem new_stampResponse (crates : Crates) (ctx : ProxyCtx) (head : ResponseHeader) (text : String) :
    ResponseBody.new crates (stampResponse ctx head).headers text =
      ResponseBody.new crates head.headers text := by
  have sameType : (stampResponse ctx head).headers.getStr "content-type" =
      head.headers.getStr "content-type" := by
    unfold stampResponse ResponseHeader.appendHeader
    dsimp only
    rw [HeaderMap.getStr_appendStr (by decide), HeaderMap.getStr_appendStr (by decide)]
  unfold ResponseBody.new ResponseBody.isJsonCandidate
  rw [sameType]

section Replay

variable {proxy : CompositeServiceProxy} {dynamic : DynamicGatewayState} {environment : Environment}
  {engine : Engine} {arrival : Arrival} {exchange : Exchange} {key : String} {head : ResponseHeader}
  {chunks : List (Option Bytes)} {broken : Option PingoraError} {replaying : Environment} {later : World}

/-- A replay of a Mode A response repeats it exactly when it is repeatable. -/
theorem replay_repeats_iff (serde : SerdeFacts proxy.crates)
    (original : Original proxy dynamic environment engine arrival exchange key head chunks broken)
    (lowerCase : LowerCase head.headers) (takes : ∀ calls, replaying.clientTakes calls = true)
    (fresh : later.trace = [])
    (kept : later.engine key = (run environment (serve proxy dynamic arrival) ⟨engine, []⟩).2.engine key)
    (ctx : ProxyCtx) (shownKey : Option String) :
    Repeats (received (run environment (serve proxy dynamic arrival) ⟨engine, []⟩).2.trace)
        (received (run replaying (IdempotencyFilter.claimKey ctx key shownKey) later).2.trace) ↔
      Repeatable proxy dynamic arrival.elapsedMs
        (filtered proxy dynamic environment engine exchange).1.exchange.ctx head chunks := by
  obtain ⟨got, success, stored⟩ := original.settled rfl
  generalize (filtered proxy dynamic environment engine exchange).1.exchange.ctx = before at got stored ⊢
  rw [got, received_claimKey takes fresh (kept.trans stored)]
  have sameBody : asBytes (keptResponse proxy dynamic arrival.elapsedMs before head chunks).recorded =
      deliveredBody dynamic arrival.elapsedMs before head chunks ↔
      Preserved proxy.crates head.headers (recordLimit dynamic before)
        (deliveredBody dynamic arrival.elapsedMs before head chunks) := by
    unfold keptResponse
    rw [new_stampResponse, keptLimit_of_success success]
    exact recorded_eq_iff serde large_of_recordLimit _
  have sameValues : ∀ name, isLasting head.headers name = true →
      ((∀ value ∈ head.headers.valuesOf name, value ∈
        (IdempotencyFilter.replayResponseHeader ctx.requestId ctx.hlc head.status
          (headerPairs (stampResponse before head).headers)
          (keptResponse proxy dynamic arrival.elapsedMs before head chunks).recorded).headers.valuesOf name) ↔
        OneText head.headers name) := by
    intro name lasting
    -- the stamps of the gateway are not among the lasting headers
    obtain ⟨-, -, -, notId, notHlc, -⟩ := ne_of_isLasting lasting
    exact repeats_values_iff (lowerCase_stampResponse lowerCase before) lasting
      (valuesOf_stampResponse notId notHlc before head) _ _ _ _
  constructor
  · intro repeats
    refine ⟨sameBody.mp repeats.body, fun name lasting => (sameValues name lasting).mp ?_⟩
    have headers := repeats.headers _ rfl _ rfl name ((isLasting_responseFilter ..).trans lasting)
    obtain ⟨-, -, notLength, notId, notHlc, -⟩ := ne_of_isLasting lasting
    rw [valuesOf_responseFilter notId notHlc before head dynamic notLength] at headers
    exact headers
  · intro repeatable
    refine ⟨?_, sameBody.mpr repeatable.body, ?_⟩
    · rw [Option.map_some, Option.map_some, status_replayResponseHeader, status_responseFilter]
    · intro first isFirst again isAgain name lasting
      cases isFirst
      cases isAgain
      rw [isLasting_responseFilter] at lasting
      obtain ⟨-, -, notLength, notId, notHlc, -⟩ := ne_of_isLasting lasting
      rw [valuesOf_responseFilter notId notHlc before head dynamic notLength]
      exact (sameValues name lasting).mpr (repeatable.headers name lasting)

end Replay

/-- The crates of the small gateway, on its response too. -/
def replayCrates : Crates :=
  { smallCrates with
    fromStr := fun text => if text = "\x7b\x7d" then some (.object []) else smallCrates.fromStr text }

/-- The small gateway under a dispatch policy. -/
def replayProxy : CompositeServiceProxy := { smallProxy with crates := replayCrates }

def replayDynamic (policy : ModeADispatchPolicy) : DynamicGatewayState :=
  { smallDynamic [] [] with dispatchPolicy := policy }

def keyedArrival : Arrival := smallArrival .post [keyHeader] payBody

/-- The world after a request with a key of its own was answered. -/
def answered (policy : ModeADispatchPolicy) : World :=
  (run obliging (serve replayProxy (replayDynamic policy) keyedArrival) ⟨fun _ => none, []⟩).2

/-- What the client of a later request with the key receives. -/
def replayed (policy : ModeADispatchPolicy) : Received :=
  received (run obliging (IdempotencyFilter.claimKey
    (newCtx (replayDynamic policy) "0190163d-8694-739b-aea5-966c26f8ad92" ⟨2000, 0⟩) "order-7"
    (some "order-7")) ⟨(answered policy).engine, []⟩).2.trace

theorem serdeFacts_replayCrates : SerdeFacts replayCrates := by
  constructor
  · rfl
  · intro text value parsed _ _
    unfold replayCrates smallCrates at parsed
    dsimp only at parsed
    split at parsed
    · rename_i isEmpty
      cases parsed
      rw [isEmpty]
      rfl
    · split at parsed
      · rename_i isPay
        cases parsed
        rw [isPay]
        decide +kernel
      · cases parsed

/-- A JSON body that is printed as it came is repeated. -/
theorem replay_repeats_iff_small :
    Repeats (received (answered .responseWithFailure).trace) (replayed .responseWithFailure) := by
  have original : Original replayProxy (replayDynamic .responseWithFailure) obliging (fun _ => none)
      keyedArrival (admitted replayProxy (replayDynamic .responseWithFailure) keyedArrival) "order-7"
      ⟨.ok, [("content-type", .ofString "application/json")]⟩ [some (asBytes "\x7b\x7d")] none := by
    refine ⟨rfl, rfl, by decide +kernel, rfl, ⟨1000, 0⟩, 200, [("content-type", "application/json"),
      ("x-spectra-request-id", "0190163d-8694-739b-aea5-966c26f8ad91"),
      ("x-spectra-hlc", "0000000001000-000000")], "\x7b\x7d", by decide +kernel⟩
  have lowerCase : LowerCase [("content-type", HeaderValue.ofString "application/json")] := by
    intro header member
    rw [List.mem_singleton.mp member]
    decide
  refine (@replay_repeats_iff _ _ _ _ _ _ _ _ _ _ obliging ⟨(answered .responseWithFailure).engine, []⟩
    serdeFacts_replayCrates original lowerCase (fun _ => rfl) rfl rfl _ _).mpr ⟨⟨?_, ?_⟩, ?_⟩
  · rintro bytes ⟨⟩
    decide +kernel
  · refine ⟨"\x7b\x7d", by decide +kernel, ?_⟩
    rintro - value ⟨⟩
    rfl
  · intro name _
    unfold OneText
    split
    · rename_i isType
      subst isType
      decide
    · rename_i notType
      simp [HeaderMap.valuesOf, Ne.symm notType]

/-- Under `responseOnly` nothing of the body is kept, and a replay has none. -/
theorem replay_drops_body :
    Original replayProxy (replayDynamic .responseOnly) obliging (fun _ => none) keyedArrival
        (admitted replayProxy (replayDynamic .responseOnly) keyedArrival) "order-7"
        ⟨.ok, [("content-type", .ofString "application/json")]⟩ [some (asBytes "\x7b\x7d")] none ∧
      ¬ Repeats (received (answered .responseOnly).trace) (replayed .responseOnly) := by
  constructor
  · refine ⟨rfl, rfl, by decide +kernel, rfl, ⟨1000, 0⟩, 200, [("content-type", "application/json"),
      ("x-spectra-request-id", "0190163d-8694-739b-aea5-966c26f8ad91"),
      ("x-spectra-hlc", "0000000001000-000000")], "", by decide +kernel⟩
  · intro repeats
    have different : (replayed .responseOnly).body ≠ (received (answered .responseOnly).trace).body := by
      decide +kernel
    exact different repeats.body

end SpectraGQL.Gateway
