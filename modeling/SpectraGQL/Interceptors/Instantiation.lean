import SpectraGQL.Interceptors.Auth
import SpectraGQL.Interceptors.CircuitBreaker
import SpectraGQL.Interceptors.Manager
import SpectraGQL.Interceptors.SyntaxCheck

/-! # Interceptors from their settings (`interceptors/manager.rs`, the loop of `from_config`)

Each entry of `[interceptors]` becomes an interceptor of its stage: a CEL rule is compiled, a
WASM plugin is loaded, a native check is looked up by its kind, and a check of roles is put
together from its grants.  `fromSpectraConfig_isOk_iff` says which settings are accepted.
-/

namespace SpectraGQL.Interceptors

open SpectraGQL.Http SpectraGQL.Protocol

/-! ## Settings (`core/config.rs`) -/

inductive InterceptorType where
  | cel | wasm | native | rbac | auth
  deriving DecidableEq, Repr

inductive InterceptorStage where
  | request | response
  deriving DecidableEq, Repr

/-- How a stage is printed. -/
def InterceptorStage.debug : InterceptorStage → String
  | .request => "Request"
  | .response => "Response"

inductive FailMode where
  | failClosed | failOpen
  deriving DecidableEq, Repr

/-- One entry of `[interceptors]`, as far as it is read when it is instantiated. -/
structure InterceptorConfig where
  interceptorType : InterceptorType
  stage : InterceptorStage
  expression : Option String := none
  statusCode : Option UInt16 := none
  code : Option String := none
  message : Option String := none
  action : Option String := none
  tag : Option String := none
  path : Option String := none
  timeoutMs : Option Nat := none
  failMode : Option FailMode := none
  failureThreshold : Option UInt32 := none
  cooloffDurationSecs : Option Nat := none
  kind : Option String := none
  token : Option String := none
  jwksUrl : Option String := none
  secret : Option String := none
  mutationsDefault : Option String := none
  queriesDefault : Option String := none
  unauthenticatedOps : Option (List String) := none
  /-- In the order in which the map is iterated. -/
  roles : Option (List (String × List String)) := none
  subjectPath : Option String := none
  tenantPath : Option String := none
  rolesPath : Option String := none
  permissionsPath : Option String := none
  deriving DecidableEq, Repr

structure SpectraWasmConfig where
  strictAot : Bool := true
  allowJit : Bool := false
  epochTickIntervalMs : Nat := 1
  defaultTimeoutMs : Nat := 25
  deriving DecidableEq, Repr

/-- What `from_config` reads of a configuration besides the routes. -/
structure InterceptorSettings where
  /-- In the order in which the map is iterated. -/
  interceptors : List (String × InterceptorConfig)
  globalInterceptors : List String
  routes : List (String × RouteGuards)
  wasm : SpectraWasmConfig
  /-- `admin.deploy_token`. -/
  deployToken : Option String

/-! ## CEL rules (`evaluators/cel.rs`) -/

inductive CelAction where
  | reject | audit
  deriving DecidableEq, Repr

def CelAction.fromStrOpt (text : Option String) : CelAction :=
  match text.map toLowercase with
  | some "audit" => .audit
  | some "flag" => .audit
  | _ => .reject

/-- `CelRequestInterceptor` and `CelResponseInterceptor` have the same fields. -/
structure CelRule (Program : Type) where
  name : String
  program : Program
  statusCode : StatusCode
  rejectionCode : String
  rejectionMessage : String
  action : CelAction
  tag : Option String

/-! ## WASM plugins (`evaluators/wasm.rs`) -/

structure WasmPluginConfig where
  timeoutMs : Nat
  maxMemoryBytes : Nat
  failMode : FailMode
  circuitBreaker : CircuitBreakerConfig

/-- A plugin in the evaluator, under the name of its interceptor. -/
structure RegisteredPlugin (Module : Type) where
  name : String
  module : Module
  config : WasmPluginConfig

/-- What the interceptors are made with: the CEL and WASM engines, the file system, the
    environment, and what the instantiated interceptors do. -/
structure Engines (Program Evaluator Module : Type) where
  /-- `cel::Program::compile`, or how its error is printed. -/
  compile : String → Except String Program
  celRequest : CelRule Program → RequestInterceptor
  celResponse : CelRule Program → ResponseInterceptor
  /-- `wasmtime::Engine::new` and the thread that ticks for it; the argument is the interval. -/
  newEvaluator : Nat → Except String Evaluator
  /-- `Module::deserialize_file`. -/
  deserializeFile : Evaluator → String → Except String Module
  /-- `Module::new`. -/
  compileModule : Evaluator → Bytes → Except String Module
  /-- `wat::parse_str`. -/
  parseWat : String → Except String Bytes
  readToString : String → Except String String
  read : String → Except String Bytes
  wasmRequest : Evaluator → RegisteredPlugin Module → RequestInterceptor
  wasmResponse : Evaluator → RegisteredPlugin Module → ResponseInterceptor
  crates : Crates
  /-- How `serde_json` says what is wrong with a text. -/
  jsonError : String → String
  envVar : String → Option String
  /-- `AuthProvider::jwks` with the keys that it fetches from the URL. -/
  jwks : String → AuthProvider
  rbacRequest : RbacRequestInterceptor → RequestInterceptor

/-! ## Instantiation -/

variable {Program Evaluator Module : Type} (engines : Engines Program Evaluator Module)

section Cel

def compileRule (expression : String) : Except String Program :=
  match engines.compile expression with
  | .ok program => .ok program
  | .error error => .error ("Failed to compile CEL expression '" ++ expression ++ "': " ++ error)

theorem dataLeak_valid : (100 : UInt16) ≤ 500 ∧ (500 : UInt16) < 1000 := by decide

/-- The rule of an entry; a stage has defaults of its own. -/
def celRule (name : String) (config : InterceptorConfig) (program : Program) : CelRule Program :=
  let statusCode := config.statusCode.map fun code => (StatusCode.fromU16 code).getD .forbidden
  let action := CelAction.fromStrOpt config.action
  match config.stage with
  | .request => ⟨name, program, statusCode.getD .forbidden, config.code.getD "POLICY_VIOLATION",
      config.message.getD "Request failed CEL validation policy", action, config.tag⟩
  | .response => ⟨name, program, statusCode.getD ⟨500, dataLeak_valid⟩,
      config.code.getD "DATA_LEAK_PREVENTED",
      config.message.getD "Response failed outbound CEL policy check", action, config.tag⟩

def instantiateCel (name : String) (config : InterceptorConfig) : Except String Registered :=
  match config.expression with
  | none => .error ("Missing 'expression' for CEL interceptor '" ++ name ++ "'")
  | some expression =>
    match compileRule engines expression, config.stage with
    | .error error, .request => .error ("Invalid CEL request rule '" ++ name ++ "': " ++ error)
    | .error error, .response => .error ("Invalid CEL response rule '" ++ name ++ "': " ++ error)
    | .ok program, .request => .ok (.request (engines.celRequest (celRule name config program)))
    | .ok program, .response => .ok (.response (engines.celResponse (celRule name config program)))

end Cel

section Wasm

def endsWith (text ending : String) : Bool := ending.toList.isSuffixOf text.toList

/-- `load_wasm_bytes`: no module is compiled at run time unless the settings allow it. -/
def loadWasmBytes (wasm : SpectraWasmConfig) (evaluator : Evaluator) (name : String) (bytes : Bytes) :
    Except String Module :=
  if wasm.strictAot && !wasm.allowJit then
    .error ("Uncompiled WebAssembly binary provided for plugin '" ++ name ++ "'. In production mode " ++
      "(strict_aot = true), precompiled AOT artifacts (.cwasm) are required to eliminate JIT " ++
      "compilation latency. Precompile using 'evaluator.precompile(&bytes)' or configure " ++
      "'allow_jit = true' for local development.")
  else engines.compileModule evaluator bytes

/-- An error is told by its outermost context. -/
def outermost {α : Type} (context : String) : Except String α → Except String α
  | .ok value => .ok value
  | .error _ => .error context

/-- The ending of the path says how a module is loaded. -/
def loadModule (wasm : SpectraWasmConfig) (evaluator : Evaluator) (name path : String) :
    Except String Module :=
  if endsWith path ".cwasm" then
    outermost ("Failed to load precompiled .cwasm from '" ++ path ++ "'")
      (engines.deserializeFile evaluator path)
  else if endsWith path ".wat" then do
    let watStr ← outermost ("Failed to read WAT file from '" ++ path ++ "'") (engines.readToString path)
    outermost ("Failed to load WAT from '" ++ path ++ "'") do
      loadWasmBytes engines wasm evaluator name (← engines.parseWat watStr)
  else do
    let bytes ← outermost ("Failed to read WASM file from '" ++ path ++ "'") (engines.read path)
    outermost ("Failed to load WASM bytes from '" ++ path ++ "'")
      (loadWasmBytes engines wasm evaluator name bytes)

def wasmPluginConfig (wasm : SpectraWasmConfig) (config : InterceptorConfig) : WasmPluginConfig where
  timeoutMs := config.timeoutMs.getD wasm.defaultTimeoutMs
  maxMemoryBytes := 16 * 1024 * 1024
  failMode := config.failMode.getD .failClosed
  circuitBreaker := ⟨config.failureThreshold.getD 5, config.cooloffDurationSecs.getD 30⟩

def instantiateWasm (wasm : SpectraWasmConfig) (evaluator : Option Evaluator) (name : String)
    (config : InterceptorConfig) : Except String Registered :=
  match evaluator with
  | none => .error ("Wasm engine was not initialized for interceptor '" ++ name ++ "'")
  | some evaluator =>
    match config.path with
    | none => .error ("Missing 'path' for WASM interceptor '" ++ name ++ "'")
    | some path => do
      let module ← loadModule engines wasm evaluator name path
      let plugin : RegisteredPlugin Module := ⟨name, module, wasmPluginConfig wasm config⟩
      match config.stage with
      | .request => return .request (engines.wasmRequest evaluator plugin)
      | .response => return .response (engines.wasmResponse evaluator plugin)

end Wasm

section Native

theorem unsupportedMediaType_valid : (100 : UInt16) ≤ 415 ∧ (415 : UInt16) < 1000 := by decide

/-- `HeaderValidationInterceptor::default()`. -/
def validateHeaders : RequestInterceptor := fun context parts _ =>
  let contentType := (parts.headers.getStr "content-type").getD ""
  if parts.method = .post ∧ containsText contentType "application/json" = false then
    (.reject ⟨⟨415, unsupportedMediaType_valid⟩, "INVALID_CONTENT_TYPE",
      "Content-Type must be application/json", none⟩, context, parts)
  else (.pass, context, parts)

/-- `SensitiveDataResponseInterceptor::new()` has neither tokens nor an evaluator. -/
def sensitiveData : ResponseInterceptor := fun _ parts _ => (.pass, parts)

/-- The token of a deployment check: its own, that of the admin console, or that of the
    environment. -/
def deployTokenOf (settings : InterceptorSettings) (config : InterceptorConfig) : Option String :=
  config.token <|> settings.deployToken <|> engines.envVar "SPECTRA_DEPLOY_TOKEN" <|>
    engines.envVar "SPECTRAGQL_DEPLOY_TOKEN"

def unknownKind (name kind : String) (stage : InterceptorStage) : String :=
  "Unknown native interceptor kind '" ++ kind ++ "' for stage '" ++ stage.debug ++ "' in '" ++ name ++ "'"

def instantiateNative (settings : InterceptorSettings) (name : String) (config : InterceptorConfig) :
    Except String Registered :=
  let kind := config.kind.getD name
  match config.stage, kind with
  | .request, "graphql_syntax" =>
    .ok (.request (GraphQLSyntaxInterceptor.interceptRequest engines.crates engines.jsonError))
  | .request, "header_validation" => .ok (.request validateHeaders)
  | .request, "deploy_auth" =>
    .ok (.request (DeployAuthInterceptor.interceptRequest ⟨deployTokenOf engines settings config⟩))
  | .response, "sensitive_data" => .ok (.response sensitiveData)
  | stage, kind => .error (unknownKind name kind stage)

end Native

section Rbac

def PolicyMode.fromStr (text : String) : PolicyMode :=
  match toLowercase text with
  | "pass_all" => .passAll
  | "permissive" => .passAll
  | "allow_authenticated" => .allowAuthenticated
  | "deny_unlisted" => .denyUnlisted
  | "strict" => .denyUnlisted
  | "zero_trust" => .denyUnlisted
  | _ => .auditOnly

def claimsMapping (config : InterceptorConfig) : ClaimsMapping :=
  let standard : ClaimsMapping := {}
  { subjectPath := config.subjectPath.getD standard.subjectPath
    tenantPath := config.tenantPath <|> standard.tenantPath
    rolesPath := config.rolesPath.getD standard.rolesPath
    permissionsPath := config.permissionsPath <|> standard.permissionsPath }

def rbacOf (config : InterceptorConfig) : RbacRequestInterceptor :=
  let provider := (config.jwksUrl.map engines.jwks) <|>
    (config.secret.map fun secret => .hmac (asBytes secret))
  let rbac := (provider.elim RbacRequestInterceptor.new RbacRequestInterceptor.new.withProvider).withPolicies
    ((config.mutationsDefault.map PolicyMode.fromStr).getD .auditOnly)
    ((config.queriesDefault.map PolicyMode.fromStr).getD .passAll)
  let opened := (config.unauthenticatedOps.getD []).foldl RbacRequestInterceptor.allowUnauthenticated rbac
  (config.roles.getD []).foldl (fun rbac grant => rbac.grantRole grant.1 grant.2)
    { opened with claimsMapping := claimsMapping config }

end Rbac

/-- One turn of the loop over `[interceptors]`. -/
def instantiate (settings : InterceptorSettings) (evaluator : Option Evaluator) (name : String)
    (config : InterceptorConfig) : Except String Registered :=
  match config.interceptorType with
  | .cel => instantiateCel engines name config
  | .wasm => instantiateWasm engines settings.wasm evaluator name config
  | .native => instantiateNative engines settings name config
  -- a check of roles is for requests, whatever its stage
  | .rbac | .auth => .ok (.request (engines.rbacRequest (rbacOf engines config)))

/-- The engine for plugins is made only where there is one. -/
def wasmEvaluator (settings : InterceptorSettings) : Except String (Option Evaluator) :=
  if settings.interceptors.any fun entry => entry.2.interceptorType = .wasm then
    match engines.newEvaluator (max settings.wasm.epochTickIntervalMs 1) with
    | .ok evaluator => .ok (some evaluator)
    | .error _ => .error "Failed to initialize WasmInterceptorEvaluator"
  else .ok none

/-- `InterceptorManager::from_config`. -/
def fromSpectraConfig (settings : InterceptorSettings) : Except String InterceptorManager := do
  let evaluator ← wasmEvaluator engines settings
  InterceptorManager.fromConfig (instantiate engines settings evaluator)
    ⟨settings.interceptors, settings.globalInterceptors, settings.routes⟩

/-! ## Which settings are accepted -/

section

variable {ε α β : Type}

@[simp] theorem isOk_ok (value : α) : (Except.ok value : Except ε α).isOk = true := rfl

@[simp] theorem isOk_error (error : ε) : (Except.error error : Except ε α).isOk = false := rfl

theorem isOk_iff {result : Except ε α} : result.isOk = true ↔ ∃ value, result = .ok value := by
  cases result <;> simp

/-- What fails fast succeeds exactly when each of its parts does. -/
theorem isOk_bind_iff {first : Except ε α} {second : α → Except ε β} :
    (first >>= second).isOk = true ↔ ∃ value, first = .ok value ∧ (second value).isOk = true := by
  cases first with
  | error error => simp [bind, Except.bind]
  | ok value => simp [bind, Except.bind]

theorem isOk_map (first : Except ε α) (function : α → β) :
    (first >>= fun value => pure (function value)).isOk = first.isOk := by
  cases first <;> rfl

/-- Two parts that do not depend on each other both succeed. -/
theorem isOk_both (first : Except ε α) {γ : Type} (second : Except ε γ) (function : α → γ → β) :
    (first >>= fun value => second >>= fun other => pure (function value other)).isOk = true ↔
      first.isOk = true ∧ second.isOk = true := by
  cases first with
  | error error => simp [bind, Except.bind]
  | ok value =>
    have mapped := isOk_map second (function value)
    rw [← mapped]
    exact ⟨fun succeeds => ⟨rfl, succeeds⟩, fun both => both.2⟩

theorem outermost_eq_ok {context : String} {result : Except String α} {value : α} :
    outermost context result = .ok value ↔ result = .ok value := by
  cases result <;> simp [outermost]

theorem isOk_outermost (context : String) (result : Except String α) :
    (outermost context result).isOk = result.isOk := by
  cases result <;> rfl

end

section FromConfig

variable {γ : Type} {make : String → γ → Except String Registered}

/-- There is an interceptor of that name. -/
def Registry.Holds (registry : Registry) (name : String) : Prop :=
  (registry.request.lookup name).isSome = true ∨ (registry.response.lookup name).isSome = true

theorem holds_insert (registry : Registry) (entry name : String) (registered : Registered) :
    (registry.insert entry registered).Holds name ↔ name = entry ∨ registry.Holds name := by
  unfold Registry.Holds
  by_cases same : name = entry
  · subst same
    cases registered <;> simp [Registry.insert]
  · have other : (name == entry) = false := by simpa using same
    cases registered <;> simp [Registry.insert, List.lookup_cons, other, same]

/-- All entries are instantiated, and the registry holds their names. -/
theorem registerAll_isOk_iff (entries : List (String × γ)) (registry : Registry) :
    (registerAll make entries registry).isOk = true ↔
      ∀ entry ∈ entries, (make entry.1 entry.2).isOk = true := by
  induction entries generalizing registry with
  | nil => simp [registerAll]
  | cons entry rest inductionHypothesis =>
    obtain ⟨name, config⟩ := entry
    unfold registerAll
    rw [isOk_bind_iff, List.forall_mem_cons, isOk_iff]
    simp only [inductionHypothesis, exists_and_right]

theorem holds_registerAll {entries : List (String × γ)} {registry result : Registry}
    (registered : registerAll make entries registry = .ok result) (name : String) :
    result.Holds name ↔ name ∈ entries.map Prod.fst ∨ registry.Holds name := by
  induction entries generalizing registry with
  | nil =>
    cases registered
    simp
  | cons entry rest inductionHypothesis =>
    obtain ⟨made, isMade, later⟩ := exists_of_bind_eq_ok registered
    rw [inductionHypothesis later, holds_insert, List.map_cons, List.mem_cons]
    tauto

theorem resolve_isOk_iff (registry : Registry) (unknown : String → String) (names : List String) :
    (registry.resolve unknown names).isOk = true ↔ ∀ name ∈ names, registry.Holds name := by
  induction names with
  | nil => simp [Registry.resolve]
  | cons name rest inductionHypothesis =>
    unfold Registry.resolve
    rw [List.forall_mem_cons, ← inductionHypothesis, Registry.Holds]
    cases isRequest : registry.request.lookup name with
    | some interceptor =>
      dsimp only
      rw [isOk_map]
      simp
    | none =>
      cases isResponse : registry.response.lookup name with
      | some interceptor =>
        dsimp only
        rw [isOk_map]
        simp
      | none => simp

theorem resolveRoutes_isOk_iff (registry : Registry) (routes : List (String × RouteGuards)) :
    (resolveRoutes registry routes).isOk = true ↔
      ∀ route ∈ routes, ∀ name ∈ route.2.interceptors, registry.Holds name := by
  induction routes with
  | nil => simp [resolveRoutes]
  | cons route rest inductionHypothesis =>
    obtain ⟨routeKey, guards⟩ := route
    unfold resolveRoutes
    rw [List.forall_mem_cons, ← inductionHypothesis, ← resolve_isOk_iff registry (routeUnknown routeKey),
      isOk_both]

/-- A configuration is accepted when its interceptors are instantiated and every name on its
    lists is one of theirs. -/
theorem fromConfig_isOk_iff (config : ManagerConfig γ) :
    (InterceptorManager.fromConfig make config).isOk = true ↔
      (∀ entry ∈ config.interceptors, (make entry.1 entry.2).isOk = true) ∧
        (∀ name ∈ config.globalInterceptors, name ∈ config.interceptors.map Prod.fst) ∧
        ∀ route ∈ config.routes, ∀ name ∈ route.2.interceptors, name ∈ config.interceptors.map Prod.fst := by
  rw [← registerAll_isOk_iff config.interceptors {}]
  unfold InterceptorManager.fromConfig
  rw [isOk_bind_iff]
  cases registered : registerAll make config.interceptors {} with
  | error error => simp
  | ok registry =>
    have holds : ∀ name, registry.Holds name ↔ name ∈ config.interceptors.map Prod.fst := by
      intro name
      rw [holds_registerAll registered]
      simp [Registry.Holds]
    simp only [← holds, Except.ok.injEq, exists_eq_left', isOk_ok, true_and]
    rw [← resolve_isOk_iff registry globalUnknown, ← resolveRoutes_isOk_iff, isOk_both]

end FromConfig

/-- A path whose file is there and holds a module that the settings allow to be loaded. -/
def Loads (wasm : SpectraWasmConfig) (evaluator : Evaluator) (path : String) : Prop :=
  if endsWith path ".cwasm" then (engines.deserializeFile evaluator path).isOk = true
  else
    (wasm.strictAot = false ∨ wasm.allowJit = true) ∧ ∃ bytes,
      (if endsWith path ".wat" then
        ∃ watStr, engines.readToString path = .ok watStr ∧ engines.parseWat watStr = .ok bytes
      else engines.read path = .ok bytes) ∧ (engines.compileModule evaluator bytes).isOk = true

/-- The kinds of native interceptors. -/
def KnownKind : InterceptorStage → String → Prop
  | .request, kind => kind = "graphql_syntax" ∨ kind = "header_validation" ∨ kind = "deploy_auth"
  | .response, kind => kind = "sensitive_data"

/-- An entry of `[interceptors]` that can be instantiated. -/
def Acceptable (settings : InterceptorSettings) (name : String) (config : InterceptorConfig) : Prop :=
  match config.interceptorType with
  | .cel => ∃ expression, config.expression = some expression ∧ (engines.compile expression).isOk = true
  | .wasm => ∃ evaluator path,
      engines.newEvaluator (max settings.wasm.epochTickIntervalMs 1) = .ok evaluator ∧
        config.path = some path ∧ Loads engines settings.wasm evaluator path
  | .native => KnownKind config.stage (config.kind.getD name)
  | .rbac | .auth => True

/-- Settings whose entries can be instantiated, with lists that name entries only. -/
structure Accepted (settings : InterceptorSettings) : Prop where
  entries : ∀ entry ∈ settings.interceptors, Acceptable engines settings entry.1 entry.2
  globals : ∀ name ∈ settings.globalInterceptors, name ∈ settings.interceptors.map Prod.fst
  routes : ∀ route ∈ settings.routes, ∀ name ∈ route.2.interceptors,
    name ∈ settings.interceptors.map Prod.fst

section

variable {engines}

theorem instantiateCel_isOk_iff (name : String) (config : InterceptorConfig) :
    (instantiateCel engines name config).isOk = true ↔
      ∃ expression, config.expression = some expression ∧ (engines.compile expression).isOk = true := by
  unfold instantiateCel compileRule
  cases config.expression with
  | none => simp
  | some expression =>
    cases compiled : engines.compile expression <;> cases config.stage <;> simp [compiled]

theorem loadWasmBytes_isOk_iff (wasm : SpectraWasmConfig) (evaluator : Evaluator) (name : String)
    (bytes : Bytes) :
    (loadWasmBytes engines wasm evaluator name bytes).isOk = true ↔
      (wasm.strictAot = false ∨ wasm.allowJit = true) ∧ (engines.compileModule evaluator bytes).isOk = true := by
  unfold loadWasmBytes
  cases wasm.strictAot <;> cases wasm.allowJit <;> simp

theorem loadModule_isOk_iff (wasm : SpectraWasmConfig) (evaluator : Evaluator) (name path : String) :
    (loadModule engines wasm evaluator name path).isOk = true ↔ Loads engines wasm evaluator path := by
  unfold loadModule Loads
  split
  · rw [isOk_outermost]
  · split
    · simp only [isOk_bind_iff, isOk_outermost, outermost_eq_ok, loadWasmBytes_isOk_iff]
      constructor
      · rintro ⟨watStr, isText, bytes, parsed, allowed, compiles⟩
        exact ⟨allowed, bytes, ⟨watStr, isText, parsed⟩, compiles⟩
      · rintro ⟨allowed, bytes, ⟨watStr, isText, parsed⟩, compiles⟩
        exact ⟨watStr, isText, bytes, parsed, allowed, compiles⟩
    · simp only [isOk_bind_iff, isOk_outermost, outermost_eq_ok, loadWasmBytes_isOk_iff]
      constructor
      · rintro ⟨bytes, isFile, allowed, compiles⟩
        exact ⟨allowed, bytes, isFile, compiles⟩
      · rintro ⟨allowed, bytes, isFile, compiles⟩
        exact ⟨bytes, isFile, allowed, compiles⟩

theorem instantiateWasm_isOk_iff (wasm : SpectraWasmConfig) (evaluator : Option Evaluator) (name : String)
    (config : InterceptorConfig) :
    (instantiateWasm engines wasm evaluator name config).isOk = true ↔
      ∃ started path, evaluator = some started ∧ config.path = some path ∧ Loads engines wasm started path := by
  unfold instantiateWasm
  cases evaluator with
  | none => simp
  | some started =>
    cases config.path with
    | none => simp
    | some path =>
      simp only [← loadModule_isOk_iff wasm started name path, Option.some.injEq, exists_eq_left', exists_and_left]
      cases loadModule engines wasm started name path with
      | error error => simp [bind, Except.bind]
      | ok module => cases config.stage <;> simp [bind, Except.bind, pure, Except.pure]

theorem instantiateNative_isOk_iff (settings : InterceptorSettings) (name : String) (config : InterceptorConfig) :
    (instantiateNative engines settings name config).isOk = true ↔
      KnownKind config.stage (config.kind.getD name) := by
  unfold instantiateNative KnownKind
  generalize config.kind.getD name = kind
  cases config.stage with
  | request =>
    dsimp only
    split <;> simp_all
  | response =>
    dsimp only
    split <;> simp_all

/-- Which entries are instantiated once the engine for plugins is there, if one is needed. -/
theorem instantiate_isOk_iff {settings : InterceptorSettings} {evaluator : Option Evaluator}
    (started : wasmEvaluator engines settings = .ok evaluator) {entry : String × InterceptorConfig}
    (member : entry ∈ settings.interceptors) :
    (instantiate engines settings evaluator entry.1 entry.2).isOk = true ↔
      Acceptable engines settings entry.1 entry.2 := by
  unfold instantiate Acceptable
  cases isType : entry.2.interceptorType with
  | cel => exact instantiateCel_isOk_iff entry.1 entry.2
  | native => exact instantiateNative_isOk_iff settings entry.1 entry.2
  | rbac => simp
  | auth => simp
  | wasm =>
    have needed : (settings.interceptors.any fun entry => entry.2.interceptorType = .wasm) = true :=
      List.any_eq_true.mpr ⟨entry, member, by simpa using isType⟩
    rw [wasmEvaluator, needed, if_pos rfl] at started
    dsimp only
    rw [instantiateWasm_isOk_iff]
    cases isNew : engines.newEvaluator (max settings.wasm.epochTickIntervalMs 1) with
    | error error => simp [isNew] at started
    | ok new =>
      rw [isNew] at started
      cases started
      simp

end

theorem fromSpectraConfig_isOk_iff (settings : InterceptorSettings) :
    (fromSpectraConfig engines settings).isOk = true ↔ Accepted engines settings := by
  unfold fromSpectraConfig
  rw [isOk_bind_iff]
  simp only [fromConfig_isOk_iff]
  constructor
  · rintro ⟨evaluator, started, entries, globals, routes⟩
    exact ⟨fun entry member => (instantiate_isOk_iff started member).mp (entries entry member), globals, routes⟩
  · intro accepted
    have starts : ∃ evaluator, wasmEvaluator engines settings = .ok evaluator := by
      unfold wasmEvaluator
      split
      · rename_i needed
        obtain ⟨entry, member, isWasm⟩ := List.any_eq_true.mp needed
        have acceptable := accepted.entries entry member
        rw [Acceptable, of_decide_eq_true isWasm] at acceptable
        obtain ⟨evaluator, path, isNew, -, -⟩ := acceptable
        rw [isNew]
        exact ⟨_, rfl⟩
      · exact ⟨_, rfl⟩
    obtain ⟨evaluator, started⟩ := starts
    exact ⟨evaluator, started,
      fun entry member => (instantiate_isOk_iff started member).mpr (accepted.entries entry member),
      accepted.globals, accepted.routes⟩

end SpectraGQL.Interceptors
