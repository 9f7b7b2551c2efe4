import SpectraGQL.Gateway.Delivery

/-! # A response body and the chunks it comes in

`response_body_filter` is called with one chunk after the other.  However the body is split, what
is let through is what the composed pipeline makes of the whole of it
(`filterResponse_chunk_independent`): the chunks are held back as long as there are interceptors,
and pass as they are, with a start of the body kept, when there are none.
-/

namespace SpectraGQL.Gateway

open SpectraGQL.Core SpectraGQL.Http SpectraGQL.Protocol SpectraGQL.Interceptors

/-- A call of `responseBodyFilter`, with the time since the request came. -/
structure BodyCall where
  chunk : Option Bytes
  elapsedMs : Nat

section Calls

variable (proxy : CompositeServiceProxy) (dynamic : DynamicGatewayState)

/-- The calls before the end of the stream, and what they let through. -/
def filterChunks : ProxyCtx → List BodyCall → ProxyCtx × List (Option Bytes)
  | ctx, [] => (ctx, [])
  | ctx, call :: calls =>
    let filtered := responseBodyFilter proxy dynamic ctx call.elapsedMs call.chunk false
    let later := filterChunks filtered.1 calls
    (later.1, filtered.2 :: later.2)

/-- A whole response: its head, the chunks before the last call, and the last call. -/
def filterResponse (ctx : ProxyCtx) (head : ResponseHeader) (calls : List BodyCall) (last : BodyCall) :
    ProxyCtx × List (Option Bytes) :=
  let before := filterChunks proxy dynamic (responseFilter dynamic ctx head).1 calls
  let ended := responseBodyFilter proxy dynamic before.1 last.elapsedMs last.chunk true
  (ended.1, before.2 ++ [ended.2])

/-- The body that comes from upstream. -/
def upstreamBody (calls : List BodyCall) (last : BodyCall) : Bytes :=
  wholeBody ((calls ++ [last]).map BodyCall.chunk)

/-- The head that interceptors get to see. -/
def identifiedHead (ctx : ProxyCtx) (head : ResponseHeader) : ResponseHeader :=
  (head.appendHeader requestIdHeader ctx.requestId).appendHeader hlcHeader ctx.hlc.toCompactString

/-- What the composed pipeline says of a response as a whole. -/
def wholeVerdict (ctx : ProxyCtx) (head : ResponseHeader) (elapsedMs : Nat) (body : Bytes) :
    InterceptorVerdict :=
  ((dynamic.interceptorManager.getResponsePipeline ctx.activeOperation).interceptResponse
    { requestId := ctx.requestId, hlc := ctx.hlc, operationName := ctx.activeOperation
      durationMs := elapsedMs } (identifiedHead ctx head) body).1

/-- How much of a response is kept when it streams through. -/
def responseLimit (ctx : ProxyCtx) (head : ResponseHeader) : Nat :=
  captureLimit dynamic (responseFilter dynamic ctx head).1

/-- What is let through of a response, and what is kept of it, from its body as a whole. -/
structure ChunkIndependent (ctx : ProxyCtx) (head : ResponseHeader) (calls : List BodyCall)
    (last : BodyCall) : Prop where
  delivered : wholeBody (filterResponse proxy dynamic ctx head calls last).2 =
    finalBytes (upstreamBody calls last)
      (wholeVerdict dynamic ctx head last.elapsedMs (upstreamBody calls last))
  intercepts_iff : dynamic.interceptorManager.hasResponseInterceptors ctx.activeOperation = false ↔
    dynamic.interceptorManager.getResponsePipeline ctx.activeOperation = []
  silent : dynamic.interceptorManager.hasResponseInterceptors ctx.activeOperation = true →
    ∀ out ∈ (filterChunks proxy dynamic (responseFilter dynamic ctx head).1 calls).2, out = none
  unmodified : dynamic.interceptorManager.hasResponseInterceptors ctx.activeOperation = false →
    (filterResponse proxy dynamic ctx head calls last).2 = (calls ++ [last]).map BodyCall.chunk
  buffered : dynamic.interceptorManager.hasResponseInterceptors ctx.activeOperation = false →
    (filterChunks proxy dynamic (responseFilter dynamic ctx head).1 calls).1.buffer =
      (wholeBody (calls.map BodyCall.chunk)).take (responseLimit dynamic ctx head)
  captured : dynamic.interceptorManager.hasResponseInterceptors ctx.activeOperation = false →
    (filterResponse proxy dynamic ctx head calls last).1.responseBody =
      some (ResponseBody.new proxy.crates (identifiedHead ctx head).headers
        ((fromUtf8 ((upstreamBody calls last).take (responseLimit dynamic ctx head))).getD ""))
  previewed : dynamic.interceptorManager.hasResponseInterceptors ctx.activeOperation = false →
    capturesError dynamic (responseFilter dynamic ctx head).1 = true →
    (filterResponse proxy dynamic ctx head calls last).1.errorPreview =
      some ((fromUtf8 ((upstreamBody calls last).take (responseLimit dynamic ctx head))).getD "")

variable {proxy dynamic} {ctx : ProxyCtx}

theorem capture_empty (limit : Nat) (body : Bytes) : capture limit [] body = body.take limit := by
  simp [capture]

theorem upstreamBody_eq (calls : List BodyCall) (last : BodyCall) :
    upstreamBody calls last = wholeBody (calls.map BodyCall.chunk) ++ last.chunk.getD [] := by
  simp [upstreamBody, wholeBody]

theorem responseFilter_eq (plain : ctx.hasResponseInterception = false) (head : ResponseHeader) :
    (responseFilter dynamic ctx head).1 =
      { ctx with
        buffer := [], responseParts := some (identifiedHead ctx head)
        hasResponseInterception :=
          dynamic.interceptorManager.hasResponseInterceptors ctx.activeOperation } := by
  unfold responseFilter
  dsimp only
  split
  · rename_i intercepts
    rw [intercepts]
    rfl
  · rename_i passes
    have unset : dynamic.interceptorManager.hasResponseInterceptors ctx.activeOperation =
        ctx.hasResponseInterception := by
      rw [plain, Bool.eq_false_iff]
      exact passes
    rw [unset]
    rfl

/-- Without interceptors the chunks pass, and what fits is added to the buffer. -/
theorem filterChunks_of_plain (plain : ctx.hasResponseInterception = false) (calls : List BodyCall) :
    filterChunks proxy dynamic ctx calls =
      ({ ctx with
          buffer := capture (captureLimit dynamic ctx) ctx.buffer (wholeBody (calls.map BodyCall.chunk)) },
        calls.map BodyCall.chunk) := by
  induction calls generalizing ctx with
  | nil => simp [filterChunks, capture]
  | cons call calls inductionHypothesis =>
    have stillPlain : ({ ctx with
        buffer := capture (captureLimit dynamic ctx) ctx.buffer (call.chunk.getD []) } :
          ProxyCtx).hasResponseInterception = false := plain
    rw [filterChunks, responseBodyFilter_of_plain proxy dynamic _ plain, streamBody_of_more,
      inductionHypothesis stillPlain, List.map_cons, wholeBody_cons, ← capture_append]
    rfl

/-- With interceptors nothing passes, and all is added to the buffer. -/
theorem filterChunks_of_intercepted (intercepted : ctx.hasResponseInterception = true)
    (calls : List BodyCall) :
    filterChunks proxy dynamic ctx calls =
      ({ ctx with buffer := ctx.buffer ++ wholeBody (calls.map BodyCall.chunk) },
        calls.map fun _ => none) := by
  induction calls generalizing ctx with
  | nil => simp [filterChunks]
  | cons call calls inductionHypothesis =>
    have stillIntercepted : ({ ctx with buffer := ctx.buffer ++ call.chunk.getD [] } :
        ProxyCtx).hasResponseInterception = true := intercepted
    have held : responseBodyFilter proxy dynamic ctx call.elapsedMs call.chunk false =
        ({ ctx with buffer := ctx.buffer ++ call.chunk.getD [] }, none) := by
      rw [responseBodyFilter_of_intercepted proxy dynamic _ intercepted]
      rfl
    rw [filterChunks, held, inductionHypothesis stillIntercepted, List.map_cons, wholeBody_cons,
      ← List.append_assoc]
    rfl

/-- The last call for a response that streams through. -/
theorem streamBody_ended (ctx : ProxyCtx) (chunk : Option Bytes) {kept : Bytes}
    (isKept : kept = capture (captureLimit dynamic ctx) ctx.buffer (chunk.getD [])) :
    streamBody proxy dynamic ctx chunk true =
      (noteResponseBody proxy
        (if capturesError dynamic ctx then
          { ctx with buffer := kept, errorPreview := some ((fromUtf8 kept).getD "") }
        else { ctx with buffer := kept }) kept, chunk) := by
  have streamed : ∀ seen : ProxyCtx, seen = { ctx with buffer := kept } →
      (noteResponseBody proxy
        (if capturesError dynamic seen then
          { seen with errorPreview := some ((fromUtf8 seen.buffer).getD "") } else seen)
        (if capturesError dynamic seen then
          { seen with errorPreview := some ((fromUtf8 seen.buffer).getD "") } else seen).buffer, chunk) =
      (noteResponseBody proxy
        (if capturesError dynamic ctx then
          { ctx with buffer := kept, errorPreview := some ((fromUtf8 kept).getD "") }
        else { ctx with buffer := kept }) kept, chunk) := by
    rintro seen rfl
    have sameHead : capturesError dynamic { ctx with buffer := kept } = capturesError dynamic ctx := rfl
    rw [sameHead]
    cases capturesError dynamic ctx <;> rfl
  cases chunk with
  | none =>
    have unchanged : kept = ctx.buffer := by simp [isKept, capture]
    exact streamed ctx (by rw [unchanged])
  | some bytes => exact streamed _ (by rw [isKept]; rfl)

/-- A response without interceptors, as a whole. -/
theorem filterResponse_of_plain (plain : ctx.hasResponseInterception = false) (head : ResponseHeader)
    (passes : dynamic.interceptorManager.hasResponseInterceptors ctx.activeOperation = false)
    (calls : List BodyCall) (last : BodyCall) {started : ProxyCtx} {kept : Bytes}
    (isStarted : started = (responseFilter dynamic ctx head).1)
    (isKept : kept = (upstreamBody calls last).take (responseLimit dynamic ctx head)) :
    filterResponse proxy dynamic ctx head calls last =
      (noteResponseBody proxy
        (if capturesError dynamic started then
          { started with buffer := kept, errorPreview := some ((fromUtf8 kept).getD "") }
        else { started with buffer := kept }) kept, (calls ++ [last]).map BodyCall.chunk) := by
  have stillPlain : started.hasResponseInterception = false := by
    rw [isStarted, responseFilter_plain dynamic plain, passes]
  have empty : started.buffer = [] := by
    rw [isStarted]
    exact (responseFilter_fields dynamic ctx head).1
  -- what each chunk adds to the capture is what the whole body has
  have atEnd : kept = capture (captureLimit dynamic started)
      (capture (captureLimit dynamic started) started.buffer (wholeBody (calls.map BodyCall.chunk)))
      (last.chunk.getD []) := by
    rw [capture_append, empty, capture_empty, isKept, upstreamBody_eq, isStarted]
    rfl
  have ended : ∀ seen : ProxyCtx, seen = { started with
        buffer := capture (captureLimit dynamic started) started.buffer (wholeBody (calls.map BodyCall.chunk)) } →
      responseBodyFilter proxy dynamic seen last.elapsedMs last.chunk true =
        (noteResponseBody proxy
          (if capturesError dynamic started then
            { started with buffer := kept, errorPreview := some ((fromUtf8 kept).getD "") }
          else { started with buffer := kept }) kept, last.chunk) := by
    rintro seen rfl
    rw [responseBodyFilter_of_plain proxy dynamic last.elapsedMs (by exact stillPlain)]
    exact streamBody_ended _ last.chunk atEnd
  rw [filterResponse, ← isStarted, filterChunks_of_plain stillPlain]
  dsimp only
  rw [ended _ rfl, List.map_append, List.map_singleton]

/-- A response with interceptors gives its bytes in the last call. -/
theorem filterResponse_of_intercepted (plain : ctx.hasResponseInterception = false)
    (head : ResponseHeader)
    (intercepts : dynamic.interceptorManager.hasResponseInterceptors ctx.activeOperation = true)
    (calls : List BodyCall) (last : BodyCall) :
    (filterResponse proxy dynamic ctx head calls last).2 =
      (calls.map fun _ => none) ++
        [some (finalBytes (upstreamBody calls last)
          (wholeVerdict dynamic ctx head last.elapsedMs (upstreamBody calls last)))] := by
  rw [filterResponse, responseFilter_eq plain head, intercepts, filterChunks_of_intercepted rfl]
  dsimp only
  rw [responseBodyFilter_of_intercepted proxy dynamic last.elapsedMs rfl,
    (interceptBody_of_last proxy dynamic last.elapsedMs _ last.chunk).2, upstreamBody_eq]
  rfl

/-- However a body is split, what the client gets is what the pipeline makes of the whole. -/
theorem filterResponse_chunk_independent (plain : ctx.hasResponseInterception = false)
    (head : ResponseHeader) (calls : List BodyCall) (last : BodyCall) :
    ChunkIndependent proxy dynamic ctx head calls last := by
  have emptyPipeline : dynamic.interceptorManager.hasResponseInterceptors ctx.activeOperation = false ↔
      dynamic.interceptorManager.getResponsePipeline ctx.activeOperation = [] := by
    rw [Bool.eq_false_iff, ne_eq, InterceptorManager.hasResponseInterceptors_iff, not_not]
  have marked := responseFilter_plain dynamic plain head
  have whole passes := @filterResponse_of_plain proxy dynamic ctx plain head passes calls last _ _ rfl rfl
  constructor
  case intercepts_iff => exact emptyPipeline
  case delivered =>
    cases intercepts : dynamic.interceptorManager.hasResponseInterceptors ctx.activeOperation with
    | true =>
      rw [filterResponse_of_intercepted plain head intercepts]
      simp [wholeBody]
    | false =>
      -- an empty pipeline passes, whatever the body
      have nothing : wholeVerdict dynamic ctx head last.elapsedMs (upstreamBody calls last) = .pass := by
        rw [wholeVerdict, emptyPipeline.mp intercepts]
        rfl
      rw [whole intercepts, nothing]
      rfl
  case silent =>
    intro intercepts out member
    rw [filterChunks_of_intercepted (marked.trans intercepts)] at member
    obtain ⟨_, -, rfl⟩ := List.mem_map.mp member
    rfl
  case unmodified =>
    intro passes
    rw [whole passes]
  case buffered =>
    intro passes
    rw [filterChunks_of_plain (marked.trans passes)]
    dsimp only
    rw [(responseFilter_fields dynamic ctx head).1, capture_empty]
    rfl
  case captured =>
    intro passes
    have headers : responseHeaders (responseFilter dynamic ctx head).1 = (identifiedHead ctx head).headers := by
      rw [responseFilter_eq plain head]
      rfl
    rw [whole passes, noteResponseBody, ← headers]
    cases capturesError dynamic (responseFilter dynamic ctx head).1 <;> rfl
  case previewed =>
    intro passes captures
    rw [whole passes, captures]
    rfl

/-- Answers for the upstream. -/
def answerOk : ResponseInterceptor := fun _ parts _ => (.transform none (some (asBytes "OK")), parts)

/-- A small response in two chunks, held back until it is complete and then replaced. -/
theorem filterResponse_chunk_independent_small :
    (filterResponse smallProxy
        { smallDynamic [] [] with interceptorManager := ⟨[], [answerOk], [], []⟩ }
        ((smallArrival .post [] "").exchange (smallDynamic [] [])).ctx (.build .ok)
        [⟨some (asBytes "o"), 0⟩, ⟨none, 1⟩] ⟨some (asBytes "k"), 2⟩).2 =
      [none, none, some (asBytes "OK")] ∧
    ChunkIndependent smallProxy
      { smallDynamic [] [] with interceptorManager := ⟨[], [answerOk], [], []⟩ }
      ((smallArrival .post [] "").exchange (smallDynamic [] [])).ctx (.build .ok)
      [⟨some (asBytes "o"), 0⟩, ⟨none, 1⟩] ⟨some (asBytes "k"), 2⟩ :=
  ⟨rfl, filterResponse_chunk_independent rfl _ _ _⟩

end Calls

end SpectraGQL.Gateway
