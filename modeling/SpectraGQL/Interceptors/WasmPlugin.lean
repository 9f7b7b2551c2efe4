import SpectraGQL.Interceptors.Instantiation

/-! # Verdicts of a plugin (`interceptors/evaluators/wasm.rs`)

An interception asks the breaker of the plugin, runs the guest in an instance of its own and
reads the JSON that it leaves in its memory.  A plugin that fails closed is to let a message
pass only if the guest has said so.

Whatever keeps the guest from answering ends in a rejection.  An answer that is JSON but no
verdict does not: `parse_verdict` takes a verdict that is missing or unknown for `pass`, and a
transformation it cannot read for an empty one.
-/

namespace SpectraGQL.Interceptors

open Interaction SpectraGQL.Core SpectraGQL.Http SpectraGQL.Protocol

/-! ## Plugins -/

/-- A module as Wasmtime runs it, with the text that `{:#}` prints of an error; `σ` is the state
    of an instance. -/
structure WasmModule (σ : Type) where
  /-- `Instance::new`, with the limit of the memory and the deadline in ticks. -/
  instantiate : Nat → Nat → Except String σ
  getMemory : σ → Bool
  getTypedFunc : σ → String → Bool
  allocate : UInt32 → σ → Except String UInt32 × σ
  /-- Its errors are dropped. -/
  deallocate : UInt32 → UInt32 → σ → σ
  handler : String → UInt32 → UInt32 → σ → Except String UInt64 × σ
  write : UInt32 → Bytes → σ → Except String σ
  read : UInt32 → UInt32 → σ → Except String Bytes

/-- The crates that read what a guest has answered. -/
structure VerdictCrates where
  /-- `serde_json::from_slice::<Value>`. -/
  fromSlice : Bytes → Option Json
  /-- `HeaderName::from_bytes`, the name as it is stored. -/
  headerName : Bytes → Option String

structure WasmInterceptorEvaluator (σ : Type) where
  crates : VerdictCrates
  epochTickIntervalMs : Nat
  plugins : List (RegisteredPlugin (WasmModule σ))

/-! ## The guest -/

/-- `Option::ok_or_else`. -/
def okOr {α : Type} (text : String) : Option α → Except String α
  | some value => .ok value
  | none => .error text

def requireFunc {σ : Type} (module : WasmModule σ) (instance' : σ) (name : String) :
    Except String Unit :=
  if module.getTypedFunc instance' name then .ok ()
  else .error ("WASM plugin does not export '" ++ name ++ "'")

namespace WasmInterceptorEvaluator

variable {σ : Type}

def plugin (evaluator : WasmInterceptorEvaluator σ) (pluginName : String) :
    Option (RegisteredPlugin (WasmModule σ)) :=
  evaluator.plugins.find? fun plugin => plugin.name = pluginName

def deadlineTicks (evaluator : WasmInterceptorEvaluator σ) (config : WasmPluginConfig) : Nat :=
  max (config.timeoutMs / max evaluator.epochTickIntervalMs 1) 1

def invokeGuest (evaluator : WasmInterceptorEvaluator σ) (plugin : RegisteredPlugin (WasmModule σ))
    (exportName : String) (input : Json) : Except String Json := do
  let module := plugin.module
  let store ← outermost "Failed to instantiate WASM plugin module"
    (module.instantiate plugin.config.maxMemoryBytes (evaluator.deadlineTicks plugin.config))
  if module.getMemory store = false then .error "WASM plugin does not export 'memory'"
  requireFunc module store "spectragql_allocate"
  requireFunc module store "spectragql_deallocate"
  requireFunc module store exportName
  let inputBytes := asBytes input.toString
  let inputLen := UInt32.ofNat inputBytes.length
  let (allocated, store) := module.allocate inputLen store
  let inputPtr ← allocated
  let store ← module.write inputPtr inputBytes store
  let (handled, store) := module.handler exportName inputPtr inputLen store
  let packedRes ← handled
  let store := module.deallocate inputPtr inputLen store
  let resPtr := (packedRes >>> 32).toUInt32
  let resLen := packedRes.toUInt32
  let resBytes ← module.read resPtr resLen store
  -- the result is deallocated, but the instance is not used after that
  okOr "Failed to parse JSON verdict returned by WASM guest" (evaluator.crates.fromSlice resBytes)

end WasmInterceptorEvaluator

/-! ## Verdicts -/

/-- The headers of a transformation; those that are no headers are left out. -/
def transformedHeaders (crates : VerdictCrates) (members : List (String × Json)) : HeaderMap :=
  members.foldl (fun map member =>
    match crates.headerName (asBytes member.1),
        HeaderValue.fromStr ((member.2.asStr).getD "") with
    | some name, some value => map.insert name value
    | _, _ => map) []

def parseVerdict (crates : VerdictCrates) (val : Json) : InterceptorVerdict :=
  let verdictType := ((val.get "verdict").bind Json.asStr).getD "pass"
  if verdictType = "pass" then .pass
  else if verdictType = "reject" then
    let statusCode := (((val.get "status_code").bind Json.asU64).bind
      fun status => StatusCode.fromU16 (UInt16.ofNat status)).getD GraphQLSyntaxInterceptor.badRequest
    let code := ((val.get "code").bind Json.asStr).getD "WASM_REJECTED"
    let message := ((val.get "message").bind Json.asStr).getD
      "Request rejected by WASM interceptor"
    .reject ⟨statusCode, code, message, val.get "details"⟩
  else if verdictType = "transform" then
    let headers :=
      match val.get "headers" with
      | some (.object members) => some (transformedHeaders crates members)
      | _ => none
    let body := ((val.get "body").bind Json.asStr).map asBytes
    .transform headers body
  else .pass

def handleExecutionError (pluginName : String) (config : WasmPluginConfig) (err : String) :
    InterceptorVerdict :=
  if containsText err "interrupt" || containsText err "epoch" then
    match config.failMode with
    | .failOpen => .pass
    | .failClosed => .reject ⟨⟨504, by decide⟩, "WASM_EXECUTION_TIMEOUT",
        "WASM plugin '" ++ pluginName ++ "' exceeded deadline of " ++
          toString config.timeoutMs ++ "ms", none⟩
  else
    match config.failMode with
    | .failOpen => .pass
    | .failClosed => .reject ⟨⟨500, by decide⟩, "WASM_EXECUTION_ERROR",
        "WASM plugin '" ++ pluginName ++ "' failed: " ++ err, none⟩

/-! ## Interceptions -/

def headerTexts (headers : HeaderMap) : Json :=
  .array (headers.filterMap fun header => (HeaderValue.toStr header.2).map fun value =>
    .array [.string header.1, .string value])

def requestPayload (context : InterceptorContext) (parts : RequestParts) (body : String) : Json :=
  .ofMembers [("request_id", .string context.requestId),
    ("operation_name", .ofOption (context.operationName.map .string)),
    ("operation_type", .ofOption (context.operationType.map fun op => .string op.toString)),
    ("uri", .string parts.uri.toString), ("method", .string parts.method.toString),
    ("headers", headerTexts parts.headers), ("body", .string body)]

def responsePayload (context : InterceptorContext) (parts : ResponseHeader) (body : Bytes) : Json :=
  .ofMembers [("request_id", .string context.requestId),
    ("status_code", .number (toString parts.status.code.toNat)),
    ("headers", headerTexts parts.headers), ("body", .string (fromUtf8Lossy body))]

def circuitOpen (pluginName : String) : FailMode → InterceptorVerdict
  | .failOpen => .pass
  | .failClosed => .reject ⟨⟨503, by decide⟩, "WASM_CIRCUIT_OPEN",
      "WASM plugin '" ++ pluginName ++ "' circuit is open due to consecutive failures", none⟩

namespace WasmInterceptorEvaluator

variable {σ : Type}

/-- An interception of either stage, as a program over the breaker of the plugin. -/
def interceptWith (evaluator : WasmInterceptorEvaluator σ) (exportName pluginName : String)
    (payload : Json) : BreakerProg InterceptorVerdict :=
  match evaluator.plugin pluginName with
  | none => pure (.reject ⟨⟨500, by decide⟩, "WASM_PLUGIN_NOT_FOUND",
      "WASM plugin '" ++ pluginName ++ "' is not registered", none⟩)
  | some plugin => do
    let permission ← WasmCircuitBreaker.canExecute plugin.config.circuitBreaker
    match permission with
    | .denied => pure (circuitOpen pluginName plugin.config.failMode)
    | .allow | .probe =>
      match evaluator.invokeGuest plugin exportName payload with
      | .ok verdictVal => do
        WasmCircuitBreaker.recordSuccess
        pure (parseVerdict evaluator.crates verdictVal)
      | .error err => do
        WasmCircuitBreaker.recordFailure plugin.config.circuitBreaker
        pure (handleExecutionError pluginName plugin.config err)

def interceptRequest (evaluator : WasmInterceptorEvaluator σ) (pluginName : String)
    (context : InterceptorContext) (parts : RequestParts) (body : String) :
    BreakerProg InterceptorVerdict :=
  evaluator.interceptWith "spectragql_intercept_request" pluginName
    (requestPayload context parts body)

def interceptResponse (evaluator : WasmInterceptorEvaluator σ) (pluginName : String)
    (context : InterceptorContext) (parts : ResponseHeader) (body : Bytes) :
    BreakerProg InterceptorVerdict :=
  evaluator.interceptWith "spectragql_intercept_response" pluginName
    (responsePayload context parts body)

end WasmInterceptorEvaluator

/-! ## Failing closed -/

/-- The member `verdict` of an object, when it is a string. -/
def verdictOf (value : Json) : Option String := (value.get "verdict").bind Json.asStr

/-- A member of `headers` that is a header. -/
def IsHeaderMember (crates : VerdictCrates) (member : String × Json) : Prop :=
  (crates.headerName (asBytes member.1)).isSome = true ∧
    ∃ text, member.2 = .string text ∧ (HeaderValue.fromStr text).isSome = true

/-- A well-formed `transform` verdict: its headers, if there are any, are headers, and its body,
    if there is one, is a string. -/
def IsTransform (crates : VerdictCrates) (value : Json) : Prop :=
  verdictOf value = some "transform" ∧
  (match value.get "headers" with
    | none | some .null => True
    | some (.object members) => ∀ member ∈ members, IsHeaderMember crates member
    | some _ => False) ∧
  match value.get "body" with
  | none | some .null | some (.string _) => True
  | some _ => False

/-- What a guest may answer: a verdict. -/
def IsVerdict (crates : VerdictCrates) (value : Json) : Prop :=
  verdictOf value = some "pass" ∨ verdictOf value = some "reject" ∨ IsTransform crates value

/-- A message passes if the guest has said so, and is transformed by a well-formed `transform`
    verdict; otherwise it is rejected. -/
def FailsClosed (crates : VerdictCrates) (answer : Option Json) (verdict : InterceptorVerdict) :
    Prop :=
  (∃ value, answer = some value ∧ verdictOf value = some "pass" ∧ verdict = .pass) ∨
  (∃ value headers body, answer = some value ∧ IsTransform crates value ∧
    verdict = .transform headers body) ∨
  ((∀ value, answer = some value → verdictOf value ≠ some "pass" ∧ ¬ IsTransform crates value) ∧
    verdict.isReject = true)

section FailsClosed

variable {crates : VerdictCrates}

theorem failsClosed_none {verdict : InterceptorVerdict} :
    FailsClosed crates none verdict ↔ verdict.isReject = true := by
  simp [FailsClosed]

theorem parseVerdict_pass {value : Json} (isPass : verdictOf value = some "pass") :
    parseVerdict crates value = .pass := by
  rw [verdictOf] at isPass
  simp [parseVerdict, isPass]

theorem parseVerdict_reject {value : Json} (isReject : verdictOf value = some "reject") :
    (parseVerdict crates value).isReject = true := by
  rw [verdictOf] at isReject
  simp [parseVerdict, isReject, InterceptorVerdict.isReject]

theorem parseVerdict_transform {value : Json} (isTransform : verdictOf value = some "transform") :
    ∃ headers body, parseVerdict crates value = .transform headers body := by
  rw [verdictOf] at isTransform
  simp [parseVerdict, isTransform]

/-- What is missing or unknown passes. -/
theorem parseVerdict_other {value : Json} (notReject : verdictOf value ≠ some "reject")
    (notTransform : verdictOf value ≠ some "transform") : parseVerdict crates value = .pass := by
  rw [verdictOf] at notReject notTransform
  cases member : (value.get "verdict").bind Json.asStr with
  | none => simp [parseVerdict, member]
  | some name =>
    rw [member] at notReject notTransform
    have unknown : name ≠ "reject" ∧ name ≠ "transform" := by simpa using And.intro notReject notTransform
    simp [parseVerdict, member, unknown]

/-- The decoder fails closed on verdicts, and on nothing else. -/
theorem failsClosed_parseVerdict_iff (value : Json) :
    FailsClosed crates (some value) (parseVerdict crates value) ↔ IsVerdict crates value := by
  constructor
  · rintro (⟨_, isAnswer, isPass, -⟩ | ⟨_, _, _, isAnswer, isTransform, -⟩ | ⟨other, rejects⟩)
    · cases isAnswer
      exact .inl isPass
    · cases isAnswer
      exact .inr (.inr isTransform)
    · refine .inr (.inl ?_)
      by_contra notReject
      by_cases isTransform : verdictOf value = some "transform"
      · obtain ⟨headers, body, transforms⟩ := @parseVerdict_transform crates _ isTransform
        rw [transforms] at rejects
        cases rejects
      · rw [parseVerdict_other notReject isTransform] at rejects
        cases rejects
  · rintro (isPass | isReject | isTransform)
    · exact .inl ⟨value, rfl, isPass, parseVerdict_pass isPass⟩
    · refine .inr (.inr ⟨?_, parseVerdict_reject isReject⟩)
      intro _ isAnswer
      cases isAnswer
      refine ⟨by rw [isReject]; decide, fun isTransform => ?_⟩
      have same := isReject.symm.trans isTransform.1
      simp at same
    · obtain ⟨headers, body, transforms⟩ := @parseVerdict_transform crates _ isTransform.1
      exact .inr (.inl ⟨value, headers, body, rfl, isTransform, transforms⟩)

theorem circuitOpen_closed (pluginName : String) :
    (circuitOpen pluginName .failClosed).isReject = true := rfl

/-- Whatever the text of the error is. -/
theorem handleExecutionError_closed {config : WasmPluginConfig} (pluginName err : String)
    (closed : config.failMode = .failClosed) :
    (handleExecutionError pluginName config err).isReject = true := by
  unfold handleExecutionError
  rw [closed]
  split <;> rfl

end FailsClosed

/-! ## Every interception -/

namespace WasmInterceptorEvaluator

variable {σ τ : Type}

/-- The permission that the breaker of a plugin gives. -/
def permission (plugin : RegisteredPlugin (WasmModule σ))
    (handle : (call : BreakerCall) → τ → call.Answer × τ) (breaker : τ) : CircuitPermission :=
  ((WasmCircuitBreaker.canExecute plugin.config.circuitBreaker).interp handle breaker).1

/-- What the guest answers, if it is invoked and does. -/
def answer (evaluator : WasmInterceptorEvaluator σ) (plugin : RegisteredPlugin (WasmModule σ))
    (exportName : String) (payload : Json) (handle : (call : BreakerCall) → τ → call.Answer × τ)
    (breaker : τ) : Option Json :=
  if permission plugin handle breaker = .denied then none
  else (evaluator.invokeGuest plugin exportName payload).toOption

variable (evaluator : WasmInterceptorEvaluator σ) {plugin : RegisteredPlugin (WasmModule σ)}
  (exportName pluginName : String) (payload : Json)
  (handle : (call : BreakerCall) → τ → call.Answer × τ) (breaker : τ)

/-- The verdict of an interception. -/
theorem interp_interceptWith (registered : evaluator.plugin pluginName = some plugin) :
    ((evaluator.interceptWith exportName pluginName payload).interp handle breaker).1 =
      if permission plugin handle breaker = .denied
      then circuitOpen pluginName plugin.config.failMode
      else match evaluator.invokeGuest plugin exportName payload with
        | .ok verdictVal => parseVerdict evaluator.crates verdictVal
        | .error err => handleExecutionError pluginName plugin.config err := by
  simp only [interceptWith, registered, Prog.interp_bind]
  rw [show ((WasmCircuitBreaker.canExecute plugin.config.circuitBreaker).interp handle breaker).1 =
    permission plugin handle breaker from rfl]
  cases permission plugin handle breaker with
  | denied => rfl
  | allow | probe =>
    cases evaluator.invokeGuest plugin exportName payload with
    | ok verdictVal => rfl
    | error err => simp [Prog.interp_bind, Prog.interp]

/-- A plugin that fails closed does so for exactly those of its answers that are verdicts. -/
theorem interceptWith_closed_iff (registered : evaluator.plugin pluginName = some plugin)
    (closed : plugin.config.failMode = .failClosed) :
    FailsClosed evaluator.crates (evaluator.answer plugin exportName payload handle breaker)
        ((evaluator.interceptWith exportName pluginName payload).interp handle breaker).1 ↔
      ∀ value, evaluator.answer plugin exportName payload handle breaker = some value →
        IsVerdict evaluator.crates value := by
  rw [evaluator.interp_interceptWith exportName pluginName payload handle breaker registered, answer]
  by_cases denied : permission plugin handle breaker = .denied
  · rw [if_pos denied, if_pos denied, failsClosed_none, closed]
    simp [circuitOpen_closed]
  · rw [if_neg denied, if_neg denied]
    cases evaluator.invokeGuest plugin exportName payload with
    | error err =>
      rw [Except.toOption, failsClosed_none]
      simp [handleExecutionError_closed pluginName err closed]
    | ok value =>
      rw [Except.toOption, failsClosed_parseVerdict_iff]
      simp

end WasmInterceptorEvaluator

open WasmInterceptorEvaluator

/-- On both sides a plugin that fails closed lets pass what its guest passes and rejects
    everything else, exactly if what the guest answers is a verdict. -/
theorem plugin_fails_closed_iff {σ τ : Type} (evaluator : WasmInterceptorEvaluator σ)
    (pluginName : String) {plugin : RegisteredPlugin (WasmModule σ)}
    (registered : evaluator.plugin pluginName = some plugin)
    (closed : plugin.config.failMode = .failClosed)
    (handle : (call : BreakerCall) → τ → call.Answer × τ) (breaker : τ)
    (context : InterceptorContext) :
    (∀ parts body,
      FailsClosed evaluator.crates
          (evaluator.answer plugin "spectragql_intercept_request"
            (requestPayload context parts body) handle breaker)
          ((evaluator.interceptRequest pluginName context parts body).interp handle breaker).1 ↔
        ∀ value, evaluator.answer plugin "spectragql_intercept_request"
            (requestPayload context parts body) handle breaker = some value →
          IsVerdict evaluator.crates value) ∧
    ∀ parts body,
      FailsClosed evaluator.crates
          (evaluator.answer plugin "spectragql_intercept_response"
            (responsePayload context parts body) handle breaker)
          ((evaluator.interceptResponse pluginName context parts body).interp handle breaker).1 ↔
        ∀ value, evaluator.answer plugin "spectragql_intercept_response"
            (responsePayload context parts body) handle breaker = some value →
          IsVerdict evaluator.crates value := by
  constructor
  · intro parts body
    exact evaluator.interceptWith_closed_iff _ pluginName _ handle breaker registered closed
  · intro parts body
    exact evaluator.interceptWith_closed_iff _ pluginName _ handle breaker registered closed

/-! ## Concrete guests -/

/-- A guest that always leaves the same bytes. -/
def constantModule (reply : Bytes) : WasmModule Unit where
  instantiate := fun _ _ => .ok ()
  getMemory := fun _ => true
  getTypedFunc := fun _ _ => true
  allocate := fun _ store => (.ok 0, store)
  deallocate := fun _ _ store => store
  handler := fun _ _ _ store => (.ok (UInt64.ofNat reply.length), store)
  write := fun _ _ store => .ok store
  read := fun _ _ _ => .ok reply

theorem invokeGuest_constantModule (evaluator : WasmInterceptorEvaluator Unit) (name : String)
    (reply : Bytes) (config : WasmPluginConfig) (exportName : String) (payload : Json) :
    evaluator.invokeGuest ⟨name, constantModule reply, config⟩ exportName payload =
      okOr "Failed to parse JSON verdict returned by WASM guest" (evaluator.crates.fromSlice reply) := rfl

/-- An answer with a verdict of this name. -/
def namedVerdict (name : String) : Json := .object [("verdict", .string name)]

/-- It fails closed, and always answers with this verdict. -/
def guardPlugin (name : String) : RegisteredPlugin (WasmModule Unit) :=
  ⟨"guard", constantModule (asBytes (namedVerdict name).toString),
    ⟨10, 16777216, .failClosed, ⟨5, 30000⟩⟩⟩

/-- The crates read this one text. -/
def guardEvaluator (name : String) : WasmInterceptorEvaluator Unit where
  crates := ⟨fun bytes => if bytes = asBytes (namedVerdict name).toString then
    some (namedVerdict name) else none, fun _ => none⟩
  epochTickIntervalMs := 1
  plugins := [guardPlugin name]

def guardContext : InterceptorContext where
  requestId := "00000000-0000-0000-0000-000000000000"
  hlc := ⟨0, 0⟩

def guardParts : RequestParts := ⟨.get, ⟨"", "/graphql", none⟩, []⟩

theorem answer_guardEvaluator (name exportName : String) (payload : Json) :
    (guardEvaluator name).answer (guardPlugin name) exportName payload
      (BreakerCall.apply ⟨true, 0⟩) ⟨.new, 0⟩ = some (namedVerdict name) := by
  have allowed : permission (guardPlugin name) (BreakerCall.apply ⟨true, 0⟩) ⟨.new, 0⟩ ≠ .denied :=
    nofun
  have read : (guardEvaluator name).crates.fromSlice (asBytes (namedVerdict name).toString) =
      some (namedVerdict name) := if_pos rfl
  have answered : (guardEvaluator name).invokeGuest (guardPlugin name) exportName payload =
      .ok (namedVerdict name) := by
    rw [guardPlugin, invokeGuest_constantModule, read]
    rfl
  rw [answer, if_neg allowed, answered]
  rfl

/-- A guest that says `reject` fails closed. -/
theorem plugin_fails_closed_iff_reject :
    FailsClosed (guardEvaluator "reject").crates (some (namedVerdict "reject"))
      (((guardEvaluator "reject").interceptRequest "guard" guardContext guardParts "").interp
        (BreakerCall.apply ⟨true, 0⟩) ⟨.new, 0⟩).1 := by
  have registered : (guardEvaluator "reject").plugin "guard" = some (guardPlugin "reject") :=
    rfl
  have closed := (plugin_fails_closed_iff (guardEvaluator "reject") "guard" registered rfl
    (BreakerCall.apply ⟨true, 0⟩) ⟨.new, 0⟩ guardContext).1 guardParts ""
  rw [answer_guardEvaluator] at closed
  apply closed.mpr
  intro value isAnswer
  cases isAnswer
  exact .inr (.inl rfl)

/-- A guest that says `deny` passes. -/
theorem unknown_verdict_passes :
    ¬ FailsClosed (guardEvaluator "deny").crates
      ((guardEvaluator "deny").answer (guardPlugin "deny") "spectragql_intercept_request"
        (requestPayload guardContext guardParts "") (BreakerCall.apply ⟨true, 0⟩) ⟨.new, 0⟩)
      (((guardEvaluator "deny").interceptRequest "guard" guardContext guardParts "").interp
        (BreakerCall.apply ⟨true, 0⟩) ⟨.new, 0⟩).1 := by
  have registered : (guardEvaluator "deny").plugin "guard" = some (guardPlugin "deny") := rfl
  have closed := (guardEvaluator "deny").interceptWith_closed_iff "spectragql_intercept_request"
    "guard" (requestPayload guardContext guardParts "") (BreakerCall.apply ⟨true, 0⟩) ⟨.new, 0⟩
    registered rfl
  rw [interceptRequest, closed, answer_guardEvaluator]
  intro verdicts
  rcases verdicts _ rfl with isPass | isReject | isTransform
  · exact absurd isPass (by decide)
  · exact absurd isReject (by decide)
  · exact absurd isTransform.1 (by decide)

end SpectraGQL.Interceptors
