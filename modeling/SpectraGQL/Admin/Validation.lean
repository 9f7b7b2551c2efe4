import SpectraGQL.Admin.Truncation
import SpectraGQL.Interceptors.Instantiation

/-! # Validating a configuration (`handle_config_validate` of `admin/mod.rs`)

Validation decodes a text, and warns of upstreams that do not resolve and of disabled routes.
An update goes on to resolve the upstreams and to build the interceptors.
`update_after_validation` says what an update can still fail of once its text is valid.
-/

namespace SpectraGQL.Admin

open Interaction SpectraGQL.Http SpectraGQL.Interceptors SpectraGQL.Gateway

/-! ## Configurations (`core/config.rs`) -/

/-- What is read of a configuration when it is validated or applied; maps are listed in the
    order in which they are iterated. -/
structure SpectraConfig where
  /-- The upstreams and brokers among it. -/
  boot : BootSettings
  apps : List SpectraAppConfig := []
  defaultApp : Option String := none
  dispatchPolicy : ModeADispatchPolicy
  errorCapture : ErrorCaptureConfig
  /-- Each route with the names of its interceptors. -/
  routes : List (String × SpectraRouteConfig × List String) := []
  interceptors : List (String × InterceptorConfig) := []
  globalInterceptors : List String := []
  wasm : SpectraWasmConfig := {}
  deployToken : Option String := none

namespace SpectraConfig

def settings (config : SpectraConfig) : ConfigSettings where
  dispatchPolicy := config.dispatchPolicy
  routes := config.routes.map fun route => route.2.1
  apps := config.apps
  defaultApp := config.defaultApp
  errorCapture := config.errorCapture

def interceptorSettings (config : SpectraConfig) : InterceptorSettings where
  interceptors := config.interceptors
  globalInterceptors := config.globalInterceptors
  routes := config.routes.map fun route => (route.1, ⟨route.2.1.operation, route.2.2⟩)
  wasm := config.wasm
  deployToken := config.deployToken

end SpectraConfig

/-! ## Upstreams -/

/-- `ToSocketAddrs`. -/
abbrev Resolver := String → Except String (List SocketAddr)

/-- `resolve_all_upstreams`. -/
def resolveAllUpstreams (resolve : Resolver) (settings : BootSettings) :
    Except String (List (String × SocketAddr)) := do
  let upstreams ← resolveAllUpstreamsWithTargets resolve settings
  return upstreams.1

/-- Every upstream has an address. -/
def Resolves (resolve : Resolver) (settings : BootSettings) : Prop :=
  ∀ upstream ∈ settings.gqlUpstream :: settings.upstreams.map Prod.snd, ∃ first rest,
    resolve upstream.addr = .ok (first :: rest)

theorem firstAddress_isOk_iff (resolve : Resolver) (unresolved host : String) :
    (firstAddress resolve unresolved host).isOk = true ↔ ∃ first rest, resolve host = .ok (first :: rest) := by
  unfold firstAddress
  cases resolve host with
  | error error => simp [bind, Except.bind]
  | ok addrs => cases addrs <;> simp [bind, Except.bind, pure, Except.pure]

theorem resolveNamed_isOk_iff (resolve : Resolver) (configs : List (String × SpectraUpstreamConfig))
    (resolved : List (String × SocketAddr) × List (String × String)) :
    (resolveNamed resolve configs resolved).isOk = true ↔
      ∀ upstream ∈ configs.map Prod.snd, ∃ first rest, resolve upstream.addr = .ok (first :: rest) := by
  induction configs generalizing resolved with
  | nil => simp [resolveNamed]
  | cons config rest inductionHypothesis =>
    obtain ⟨key, config⟩ := config
    unfold resolveNamed
    rw [isOk_bind_iff, List.map_cons, List.forall_mem_cons,
      ← firstAddress_isOk_iff resolve ("Could not resolve upstream " ++ key ++ ": " ++ config.addr), isOk_iff]
    simp only [inductionHypothesis, exists_and_right]

theorem resolveAllUpstreamsWithTargets_isOk_iff (resolve : Resolver) (settings : BootSettings) :
    (resolveAllUpstreamsWithTargets resolve settings).isOk = true ↔ Resolves resolve settings := by
  unfold resolveAllUpstreamsWithTargets Resolves
  rw [isOk_bind_iff, List.forall_mem_cons,
    ← firstAddress_isOk_iff resolve ("Could not resolve default upstream: " ++ settings.gqlUpstream.addr), isOk_iff]
  simp only [resolveNamed_isOk_iff, exists_and_right]

/-! ## The handler -/

/-- What reads the texts of the admin console. -/
structure ConfigTexts where
  /-- `serde_json::from_slice::<AdminConfigUpdateRequest>`. -/
  updateRequest : Bytes → Option (String × Bool)
  /-- `serde_json::from_slice::<AdminConfigValidateRequest>`. -/
  validateRequest : Bytes → Option String
  fromTomlStr : String → Except String SpectraConfig
  sha256 : Bytes → String

def ConfigTexts.crates (texts : ConfigTexts) : ConfigCrates SpectraConfig :=
  ⟨texts.updateRequest, texts.fromTomlStr, SpectraConfig.settings, texts.sha256⟩

structure AdminConfigSummary where
  appsCount : Nat
  routesCount : Nat
  namedUpstreamsCount : Nat
  interceptorsCount : Nat
  brokerMethod : String
  brokerAddr : String
  deriving DecidableEq, Repr

structure AdminConfigValidateResponse where
  valid : Bool
  errors : List String
  warnings : List String
  summary : Option AdminConfigSummary
  deriving DecidableEq, Repr

/-- The answer to a request for validation; reading the request may fail. -/
inductive ValidateAnswer where
  | answered (status : UInt16) (response : AdminConfigValidateResponse)
  | aborted (error : PingoraError)

def upstreamWarning (error : String) : String := "Upstream resolution warning: " ++ error

def routeWarning (name operation : String) : String :=
  "Route '" ++ name ++ "' (" ++ operation ++ ") is disabled"

def validationWarnings (resolve : Resolver) (config : SpectraConfig) : List String :=
  (match resolveAllUpstreams resolve config.boot with
    | .error error => [upstreamWarning error]
    | .ok _ => []) ++
  config.routes.filterMap fun route =>
    if route.2.1.enabled then none else some (routeWarning route.1 route.2.1.operation)

def validate (texts : ConfigTexts) (resolve : Resolver) (content : String) : AdminConfigValidateResponse :=
  match texts.fromTomlStr content with
  | .ok config => ⟨true, [], validationWarnings resolve config,
      some ⟨config.apps.length, config.routes.length, config.boot.upstreams.length,
        config.interceptors.length, config.boot.gqlDispatch.method, config.boot.gqlDispatch.addr⟩⟩
  | .error error => ⟨false, [error], [], none⟩

/-- A body that is no request is the configuration itself. -/
def validateContent (texts : ConfigTexts) (body : Bytes) : Option String :=
  texts.validateRequest body <|> fromUtf8 body

def handleConfigValidate (texts : ConfigTexts) (resolve : Resolver) (request : AdminRequest) : ValidateAnswer :=
  match readConfigBody request.readError [] request.chunks with
  | .error error => .aborted error
  | .ok body =>
    match validateContent texts body with
    | none => .answered 400 ⟨false, ["Request body is neither valid JSON nor valid UTF-8"], [], none⟩
    | some content => .answered 200 (validate texts resolve content)

/-! ## Validation and update -/

/-- The text that is to be validated. -/
def AsksFor (texts : ConfigTexts) (query : AdminRequest) (content : String) : Prop :=
  ∃ body, readConfigBody query.readError [] query.chunks = .ok body ∧ validateContent texts body = some content

/-- The text that is to be persisted and loaded. -/
def Sends (texts : ConfigTexts) (update : AdminRequest) (content : String) : Prop :=
  ∃ body, readConfigBody update.readError [] update.chunks = .ok body ∧
    updateContent texts.crates body = some (content, true)

def NoFailedSave (events : List (Event adminSignature)) : Prop :=
  ∀ content error, (⟨.saveConfig content, .error error⟩ : Event adminSignature) ∉ events

section

variable {Program Evaluator Module : Type}

/-- What a configuration is built with on one machine. -/
def machine (engines : Engines Program Evaluator Module) (resolve : Resolver)
    (resolveTarget : String × String → Except String (List SocketAddr)) (nowMs : Nat) :
    Surroundings SpectraConfig where
  resolve := resolve
  resolveTarget := resolveTarget
  resolveAllUpstreams := fun config => resolveAllUpstreamsWithTargets resolve config.boot
  interceptorManager := fun config => fromSpectraConfig engines config.interceptorSettings
  nowMs := nowMs

theorem handleConfigValidate_of_asksFor {texts : ConfigTexts} {resolve : Resolver} {query : AdminRequest}
    {content : String} (asks : AsksFor texts query content) :
    handleConfigValidate texts resolve query = .answered 200 (validate texts resolve content) := by
  obtain ⟨body, read, isContent⟩ := asks
  unfold handleConfigValidate
  rw [read]
  dsimp only
  rw [isContent]

/-- A text is valid exactly when it is decoded. -/
theorem validate_valid_iff (texts : ConfigTexts) (resolve : Resolver) (content : String) :
    (validate texts resolve content).valid = true ↔ ∃ config, texts.fromTomlStr content = .ok config := by
  unfold validate
  cases texts.fromTomlStr content <;> simp

/-- The warning of an upstream is no warning of a route. -/
theorem upstreamWarning_ne (error name operation : String) :
    upstreamWarning error ≠ routeWarning name operation := by
  intro same
  unfold upstreamWarning routeWarning at same
  have upstream : "Upstream resolution warning: ".toList.head? = some 'U' := rfl
  have route : "Route '".toList.head? = some 'R' := rfl
  have letters := String.toList_inj.mpr same
  rw [String.append_assoc, String.append_assoc, String.append_assoc, String.toList_append,
    String.toList_append] at letters
  have heads := congrArg List.head? letters
  rw [List.head?_append, List.head?_append, upstream, route] at heads
  exact absurd (Option.some.inj heads) (by decide)

/-- The validation warns of the upstreams exactly when one of them does not resolve. -/
theorem upstreamWarning_mem_iff (resolve : Resolver) (config : SpectraConfig) :
    (∃ error, upstreamWarning error ∈ validationWarnings resolve config) ↔ ¬ Resolves resolve config.boot := by
  have noRoute : ∀ error, upstreamWarning error ∉ config.routes.filterMap fun route =>
      if route.2.1.enabled then none else some (routeWarning route.1 route.2.1.operation) := by
    intro error member
    obtain ⟨route, -, warns⟩ := List.mem_filterMap.mp member
    split at warns
    · cases warns
    · exact upstreamWarning_ne error route.1 route.2.1.operation (Option.some.inj warns).symm
  unfold validationWarnings resolveAllUpstreams
  simp only [List.mem_append, noRoute, or_false]
  rw [← resolveAllUpstreamsWithTargets_isOk_iff]
  cases resolveAllUpstreamsWithTargets resolve config.boot with
  | error error => simp [bind, Except.bind]
  | ok upstreams => simp [bind, Except.bind, pure, Except.pure]

/-- An accepted update whose text is saved is applied. -/
theorem applied_of_noFailedSave {γ : Type} {crates : ConfigCrates γ} {surroundings : Surroundings γ}
    {engine : AdminEngine} {request : AdminRequest} {content : String} {reload : Bool} {config : γ}
    {before after : AdminStore} {events : List (Event adminSignature)} {answer : AdminResponse}
    (accepts : Accepts crates request content reload config)
    (run : (handleConfigUpdate crates surroundings engine request).Runs adminMeaning before events answer after)
    (saves : NoFailedSave events) :
    ApplyEffect crates surroundings engine config content reload (persist engine content before) answer after := by
  rw [handleConfigUpdate_of_accepts accepts] at run
  unfold persistUpdate at run
  unfold persist
  cases isConnected : engine.configStore with
  | false =>
    rw [isConnected] at run
    exact runs_applyUpdate run
  | true =>
    rw [isConnected] at run
    cases run with
    | call saved rest =>
      cases saved with
      | inl success =>
        obtain ⟨rfl, rfl⟩ := success
        exact runs_applyUpdate rest
      | inr failure =>
        obtain ⟨⟨error, rfl⟩, rfl⟩ := failure
        exact absurd List.mem_cons_self (saves content error)

/-- An update of a text that was found valid is applied, or the configuration cannot be built: it
    succeeds exactly when there is nothing to reload, or all upstreams resolve and the interceptors
    are accepted.  The validation has warned of the upstreams that do not, and of nothing else. -/
theorem update_after_validation (texts : ConfigTexts) (engines : Engines Program Evaluator Module)
    (resolve : Resolver) (resolveTarget : String × String → Except String (List SocketAddr)) (nowMs : Nat)
    (engine : AdminEngine) (query update : AdminRequest) (content : String) (status : UInt16)
    (report : AdminConfigValidateResponse) (before after : AdminStore) (events : List (Event adminSignature))
    (answer : AdminResponse) (asks : AsksFor texts query content)
    (validated : handleConfigValidate texts resolve query = .answered status report)
    (valid : report.valid = true) (authorized : update.authorized = true) (sends : Sends texts update content)
    (run : (handleConfigUpdate texts.crates (machine engines resolve resolveTarget nowMs) engine update).Runs
      adminMeaning before events answer after)
    (saves : NoFailedSave events) :
    ∃ config, texts.fromTomlStr content = .ok config ∧
      (answer.isSuccess = true ∨ ∃ error, answer = updateNotApplied error) ∧
      (answer.isSuccess = true ↔ (engine.dynamicState = true →
        Resolves resolve config.boot ∧ Accepted engines config.interceptorSettings)) ∧
      ((∃ error, upstreamWarning error ∈ report.warnings) ↔ ¬ Resolves resolve config.boot) := by
  rw [handleConfigValidate_of_asksFor asks] at validated
  cases validated
  obtain ⟨config, decoded⟩ := (validate_valid_iff texts resolve content).mp valid
  obtain ⟨body, read, isUpdate⟩ := sends
  have accepts : Accepts texts.crates update content true config := ⟨authorized, decoded, body, read, isUpdate⟩
  have effect := applied_of_noFailedSave accepts run saves
  have warnings : (validate texts resolve content).warnings = validationWarnings resolve config := by
    rw [validate, decoded]
  -- the update builds the same state that the validation has looked at
  have buildable : ∀ version, (newFromConfig texts.crates (machine engines resolve resolveTarget nowMs) config
      content version).isOk ↔ Resolves resolve config.boot ∧ Accepted engines config.interceptorSettings := by
    intro version
    rw [newFromConfig_isOk_iff, ← resolveAllUpstreamsWithTargets_isOk_iff, ← fromSpectraConfig_isOk_iff]
    rfl
  refine ⟨config, decoded, ?_, ?_, by rw [warnings, upstreamWarning_mem_iff]⟩
  · cases effect with
    | kept => exact .inl rfl
    | replaced => exact .inl rfl
    | notApplied asked isConnected failed => exact .inr ⟨_, rfl⟩
  · cases effect with
    | kept version epochMs hash message unasked =>
      refine iff_of_true rfl fun isConnected => ?_
      cases unasked with
      | inl unasked => cases unasked
      | inr untracked => cases isConnected.symm.trans untracked
    | replaced message built =>
      have isOk := congrArg Except.isOk built
      exact iff_of_true rfl fun _ => (buildable _).mp isOk
    | notApplied asked isConnected failed =>
      refine iff_of_false (by simp [updateNotApplied, AdminResponse.isSuccess]) fun builds => ?_
      have notOk := congrArg Except.isOk failed
      exact absurd ((buildable _).mpr (builds isConnected)) (Bool.eq_false_iff.mp notOk)

end

/-! ## An interceptor that is not there -/

/-- The defaults of a configuration. -/
def defaultConfig : SpectraConfig where
  boot :=
    { gqlUpstream := ⟨"default", "127.0.0.1:4000"⟩, restUpstream := ⟨"default", "127.0.0.1:4000"⟩
      gqlDispatch := ⟨"nats", "127.0.0.1:4222"⟩, restDispatch := ⟨"nats", "127.0.0.1:4222"⟩
      gqlPaths := "/gql,/graphql", restPaths := "/", opsToDispatch := "query, mutation, subscription"
      upstreams := [], idempotencyCapacity := some 10000 }
  dispatchPolicy := .responseWithFailure
  errorCapture := ⟨true, 4096⟩

def ghostToml : String := "[gql]\ninterceptors = [\"ghost\"]\n"

/-- The empty text and one that names an interceptor; no body is a request in JSON. -/
def ghostTexts : ConfigTexts where
  updateRequest _ := none
  validateRequest _ := none
  fromTomlStr text :=
    if text = ghostToml then .ok { defaultConfig with globalInterceptors := ["ghost"] }
    else if text = "" then .ok defaultConfig
    else .error "expected a key"
  sha256 _ := ""

/-- Engines for interceptors that let everything pass. -/
def passingEngines : Engines Unit Unit Unit where
  compile _ := .ok ()
  celRequest _ := fun context parts _ => (.pass, context, parts)
  celResponse _ := fun _ parts _ => (.pass, parts)
  newEvaluator _ := .ok ()
  deserializeFile _ _ := .ok ()
  compileModule _ _ := .ok ()
  parseWat _ := .ok []
  readToString _ := .error "No such file or directory (os error 2)"
  read _ := .error "No such file or directory (os error 2)"
  wasmRequest _ _ := fun context parts _ => (.pass, context, parts)
  wasmResponse _ _ := fun _ parts _ => (.pass, parts)
  crates := ⟨fun _ => none, fun _ => ⟨["expected a definition"], []⟩, fun _ => "", fun _ => ""⟩
  jsonError _ := "expected value at line 1 column 1"
  envVar _ := none
  jwks _ := .jwks []
  rbacRequest _ := fun context parts _ => (.pass, context, parts)

/-- Addresses are their own. -/
def resolveLiteral : Resolver := fun addr => .ok [addr]

def localMachine : Surroundings SpectraConfig :=
  machine passingEngines resolveLiteral (fun target => .ok [target.2]) 1

def requestOf (content : String) : AdminRequest := ⟨true, [asBytes content], none⟩

theorem updateContent_requestOf (content : String) : updateContent ghostTexts.crates (asBytes content) = some (content, true) := by
  simp [updateContent, ConfigTexts.crates, ghostTexts, fromUtf8_asBytes]

theorem read_requestOf (content : String) (short : (asBytes content).length ≤ maxConfigBytes) :
    readConfigBody (requestOf content).readError [] (requestOf content).chunks = .ok (asBytes content) := by
  unfold requestOf readConfigBody
  rw [List.nil_append, if_neg (Nat.not_lt.mpr short)]
  rfl

/-- An update of a text that decodes on the local machine. -/
theorem runs_update_local {content : String} {config : SpectraConfig} {events : List (Event adminSignature)}
    {answer : AdminResponse} {after : AdminStore} (short : (asBytes content).length ≤ maxConfigBytes)
    (decoded : ghostTexts.fromTomlStr content = .ok config)
    (run : (hotReload ghostTexts.crates localMachine config content updateNotApplied
      "Configuration saved and runtime hot-reloaded successfully").Runs adminMeaning
        { firstVersion with persisted := some content } events answer after) :
    (handleConfigUpdate ghostTexts.crates localMachine connected (requestOf content)).Runs adminMeaning firstVersion
      (⟨.saveConfig content, .ok ()⟩ :: events) answer after := by
  have accepts : Accepts ghostTexts.crates (requestOf content) content true config :=
    ⟨rfl, decoded, asBytes content, read_requestOf content short, updateContent_requestOf content⟩
  rw [handleConfigUpdate_of_accepts accepts]
  exact .call (.inl ⟨rfl, rfl⟩) run

theorem asksFor_requestOf {content : String} (short : (asBytes content).length ≤ maxConfigBytes) :
    AsksFor ghostTexts (requestOf content) content :=
  ⟨asBytes content, read_requestOf content short, by simp [validateContent, ghostTexts, fromUtf8_asBytes]⟩

theorem noFailedSave_cons (content : String) {events : List (Event adminSignature)}
    (quiet : ∀ event ∈ events, ∀ text, event.call ≠ .saveConfig text) :
    NoFailedSave (⟨.saveConfig content, .ok ()⟩ :: events) := by
  intro text error member
  cases List.mem_cons.mp member with
  | inl same => cases same
  | inr later => exact quiet _ later text rfl

theorem update_after_validation_default : ∃ events answer after,
    (handleConfigUpdate ghostTexts.crates localMachine connected (requestOf "")).Runs adminMeaning firstVersion
        events answer after ∧
      ∃ config, ghostTexts.fromTomlStr "" = .ok config ∧
        (answer.isSuccess = true ∨ ∃ error, answer = updateNotApplied error) ∧
        (answer.isSuccess = true ↔ (connected.dynamicState = true →
          Resolves resolveLiteral config.boot ∧ Accepted passingEngines config.interceptorSettings)) ∧
        ((∃ error, upstreamWarning error ∈ (validate ghostTexts resolveLiteral "").warnings) ↔
          ¬ Resolves resolveLiteral config.boot) := by
  have short : (asBytes "").length ≤ maxConfigBytes := by decide
  have decoded : ghostTexts.fromTomlStr "" = .ok defaultConfig := rfl
  have buildable : (newFromConfig ghostTexts.crates localMachine defaultConfig "" 1).isOk = true := rfl
  obtain ⟨state, built⟩ := exists_newFromConfig (nextVersion firstVersion.state) buildable
  have run := runs_update_local short decoded
    (@runs_hotReload _ _ _ _ _ _ _ { firstVersion with persisted := some "" } _ built)
  refine ⟨_, _, _, run, update_after_validation ghostTexts passingEngines resolveLiteral _ 1 connected
    (requestOf "") (requestOf "") "" 200 _ firstVersion _ _ _ (asksFor_requestOf short)
    (handleConfigValidate_of_asksFor (asksFor_requestOf short)) (by decide +kernel) rfl
    ⟨asBytes "", read_requestOf "" short, updateContent_requestOf ""⟩ run (noFailedSave_cons "" (by simp))⟩

/-- The text is valid, without a warning, and its update fails. -/
theorem valid_text_not_applied :
    handleConfigValidate ghostTexts resolveLiteral (requestOf ghostToml) =
        .answered 200 ⟨true, [], [], some ⟨0, 0, 0, 0, "nats", "127.0.0.1:4222"⟩⟩ ∧
      ∃ events after, NoFailedSave events ∧
        (handleConfigUpdate ghostTexts.crates localMachine connected (requestOf ghostToml)).Runs adminMeaning
          firstVersion events (.failure 500 "Reload Error" ("Configuration saved to store, but hot-reload failed: " ++
            "Global interceptor 'ghost' is not registered in [interceptors]")) after := by
  have short : (asBytes ghostToml).length ≤ maxConfigBytes := by decide +kernel
  constructor
  · rw [handleConfigValidate_of_asksFor (asksFor_requestOf short)]
    rfl
  · have decoded : ghostTexts.fromTomlStr ghostToml = .ok { defaultConfig with globalInterceptors := ["ghost"] } := rfl
    exact ⟨_, _, noFailedSave_cons ghostToml (by simp), runs_update_local short decoded (.call ⟨rfl, rfl⟩ (.ret _ _))⟩

end SpectraGQL.Admin
