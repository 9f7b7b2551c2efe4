import SpectraGQL.Gateway.Context
import Mathlib.Algebra.Group.Nat.Defs

/-! # Replacing the configuration (`admin/mod.rs`, `DynamicGatewayState` of `gateway/composite_service.rs`)

The running configuration is one cell that is loaded and stored, and the persisted one is
behind a store of its own.  A rescan of DNS, an update and a reload are programs over these
four accesses; between two of them anything else may happen.
-/

namespace SpectraGQL.Admin

open Interaction SpectraGQL.Http SpectraGQL.Interceptors SpectraGQL.Gateway

/-! ## The running configuration -/

/-- What the gateway runs by, with where it comes from.  `version` is a `u64`. -/
structure RunningState extends DynamicGatewayState where
  /-- The hosts that the named upstreams are resolved from. -/
  upstreamTargets : List (String × String)
  rawConfig : String
  version : Nat
  updatedAtEpochMs : Nat
  configHash : String

/-- The settings of a configuration that are taken over as they are. -/
structure ConfigSettings where
  dispatchPolicy : ModeADispatchPolicy
  routes : List SpectraRouteConfig
  apps : List SpectraAppConfig
  defaultApp : Option String
  errorCapture : ErrorCaptureConfig

/-- What reads texts; `γ` is a parsed configuration. -/
structure ConfigCrates (γ : Type) where
  /-- `serde_json::from_slice::<AdminConfigUpdateRequest>`: the content, and whether to reload. -/
  updateRequest : Bytes → Option (String × Bool)
  /-- `SpectraConfig::from_toml_str`. -/
  fromTomlStr : String → Except String γ
  settings : γ → ConfigSettings
  sha256 : Bytes → String

/-- What one call meets besides the two configurations: names, plugins and the clock. -/
structure Surroundings (γ : Type) where
  /-- `ToSocketAddrs` for the host of an upstream. -/
  resolve : String → Except String (List SocketAddr)
  /-- The same, asked by a rescan for each name and its target. -/
  resolveTarget : String × String → Except String (List SocketAddr)
  resolveAllUpstreams : γ → Except String (List (String × SocketAddr) × List (String × String))
  interceptorManager : γ → Except String InterceptorManager
  nowMs : Nat

variable {γ : Type}

def newFromConfig (crates : ConfigCrates γ) (surroundings : Surroundings γ) (config : γ)
    (rawContent : String) (version : Nat) : Except String RunningState := do
  let upstreams ← surroundings.resolveAllUpstreams config
  let manager ← surroundings.interceptorManager config
  let settings := crates.settings config
  return {
    namedUpstreams := upstreams.1
    dispatchPolicy := settings.dispatchPolicy
    routes := settings.routes
    apps := settings.apps
    defaultApp := settings.defaultApp
    interceptorManager := manager
    errorCapture := settings.errorCapture
    upstreamTargets := upstreams.2
    rawConfig := rawContent
    version := version
    updatedAtEpochMs := surroundings.nowMs
    configHash := crates.sha256 (asBytes rawContent) }

/-- `prev.version + 1` on a `u64`. -/
def nextVersion (previous : RunningState) : Nat := (previous.version + 1) % 2 ^ 64

theorem newFromConfig_eq_ok {crates : ConfigCrates γ} {surroundings : Surroundings γ} {config : γ}
    {rawContent : String} {version : Nat} {state : RunningState}
    (built : newFromConfig crates surroundings config rawContent version = .ok state) :
    state.rawConfig = rawContent ∧ state.version = version := by
  unfold newFromConfig at built
  cases upstreams : surroundings.resolveAllUpstreams config with
  | error error => simp [upstreams, bind, Except.bind] at built
  | ok upstreams =>
    cases manager : surroundings.interceptorManager config with
    | error error => simp [upstreams, manager, bind, Except.bind] at built
    | ok manager =>
      simp only [upstreams, manager, bind, Except.bind, pure, Except.pure, Except.ok.injEq] at built
      subst built
      exact ⟨rfl, rfl⟩

/-- Whether a configuration can be built does not depend on its text, version or time. -/
theorem newFromConfig_isOk_iff {crates : ConfigCrates γ} {surroundings : Surroundings γ} {config : γ}
    {rawContent : String} {version : Nat} :
    (newFromConfig crates surroundings config rawContent version).isOk ↔
      (surroundings.resolveAllUpstreams config).isOk ∧ (surroundings.interceptorManager config).isOk := by
  unfold newFromConfig
  cases surroundings.resolveAllUpstreams config with
  | error error => simp [bind, Except.bind, Except.isOk, Except.toBool]
  | ok upstreams =>
    cases surroundings.interceptorManager config with
    | error error => simp [bind, Except.bind, Except.isOk, Except.toBool]
    | ok manager => simp [bind, Except.bind, pure, Except.pure, Except.isOk, Except.toBool]

/-! ## Accesses -/

inductive AdminCall where
  /-- `dynamic_state.load()`. -/
  | loadState
  | storeState (state : RunningState)
  | saveConfig (content : String)
  | loadConfig

def AdminCall.Answer : AdminCall → Type
  | .loadState => RunningState
  | .storeState _ => Unit
  | .saveConfig _ => Except String Unit
  | .loadConfig => Except String (Option String)

abbrev adminSignature : Signature := ⟨AdminCall, AdminCall.Answer⟩

abbrev AdminProg (α : Type) := Prog adminSignature α

def loadState : AdminProg RunningState := Prog.perform (S := adminSignature) .loadState

def storeState (state : RunningState) : AdminProg Unit :=
  Prog.perform (S := adminSignature) (.storeState state)

def saveConfig (content : String) : AdminProg (Except String Unit) :=
  Prog.perform (S := adminSignature) (.saveConfig content)

def loadConfig : AdminProg (Except String (Option String)) :=
  Prog.perform (S := adminSignature) .loadConfig

/-! ## Answers -/

structure DnsUpstreamEntry where
  name : String
  target : String
  currentAddr : SocketAddr
  previousAddr : Option SocketAddr
  changed : Bool
  deriving DecidableEq, Repr

inductive AdminResponse where
  | failure (status : UInt16) (error message : String)
  | reloaded (version : Nat) (hash : String) (updatedAtEpochMs : Nat) (reloaded : Bool)
      (message : String)
  | rescanned (totalUpstreams changedCount : Nat) (upstreams : List DnsUpstreamEntry)
  /-- Reading the request failed. -/
  | aborted (error : PingoraError)

/-! ## DNS -/

/-- The loop of `rescan_dns`. -/
structure DnsScan where
  upstreams : List (String × SocketAddr)
  entries : List DnsUpstreamEntry := []
  changedCount : Nat := 0

/-- `HashMap::insert`. -/
def insertUpstream (upstreams : List (String × SocketAddr)) (name : String) (addr : SocketAddr) :
    List (String × SocketAddr) :=
  (name, addr) :: upstreams.filter fun upstream => upstream.1 ≠ name

def scanTarget (resolve : String × String → Except String (List SocketAddr))
    (previous : List (String × SocketAddr)) (scan : DnsScan) (target : String × String) : DnsScan :=
  let prevAddr := previous.lookup target.1
  match resolve target with
  | .ok (newAddr :: _) =>
    let changed := prevAddr ≠ some newAddr
    { upstreams := insertUpstream scan.upstreams target.1 newAddr
      entries := scan.entries ++ [⟨target.1, target.2, newAddr, prevAddr, changed⟩]
      changedCount := scan.changedCount + if changed then 1 else 0 }
  | .ok [] | .error _ =>
    { scan with entries := scan.entries ++
        (prevAddr.map fun addr => ⟨target.1, target.2, addr, some addr, false⟩).toList }

def scanTargets (resolve : String × String → Except String (List SocketAddr)) (state : RunningState) :
    DnsScan :=
  state.upstreamTargets.foldl (scanTarget resolve state.namedUpstreams) ⟨state.namedUpstreams, [], 0⟩

def rescanDns (surroundings : Surroundings γ) : AdminProg AdminResponse := do
  let current ← loadState
  let scan := scanTargets surroundings.resolveTarget current
  let response := AdminResponse.rescanned current.upstreamTargets.length scan.changedCount
    (scan.entries.mergeSort fun left right => left.name ≤ right.name)
  if scan.changedCount > 0 then
    storeState { current with
      namedUpstreams := scan.upstreams, updatedAtEpochMs := surroundings.nowMs }
    return response
  else return response

/-! ## Updates -/

/-- What the admin engine is connected to. -/
structure AdminEngine where
  configStore : Bool
  dynamicState : Bool

structure AdminRequest where
  /-- `is_write_authorized`. -/
  authorized : Bool
  chunks : List Bytes
  readError : Option PingoraError

def maxConfigBytes : Nat := 2 * 1024 * 1024

/-- The loop over the chunks of the body; it stops once there are too many bytes. -/
def readConfigBody (readError : Option PingoraError) (buffer : Bytes) :
    List Bytes → Except PingoraError Bytes
  | [] =>
    match readError with
    | some error => .error error
    | none => .ok buffer
  | chunk :: rest =>
    if (buffer ++ chunk).length > maxConfigBytes then .ok (buffer ++ chunk)
    else readConfigBody readError (buffer ++ chunk) rest

/-- A body that is no update request is the configuration itself, to be reloaded. -/
def updateContent (crates : ConfigCrates γ) (body : Bytes) : Option (String × Bool) :=
  crates.updateRequest body <|> (fromUtf8 body).map fun content => (content, true)

def unauthorized : AdminResponse :=
  .failure 401 "Unauthorized" ("Missing or invalid admin authorization token (set SPECTRA_ADMIN_TOKEN " ++
    "or provide valid Authorization: Bearer <token>)")

def saveFailed (error : String) : AdminResponse :=
  .failure 500 "Storage Error" ("Failed to persist configuration to store: " ++ error)

def loadFailed (error : String) : AdminResponse :=
  .failure 500 "Storage Error" ("Failed to read configuration from store: " ++ error)

def notParsed (error : String) : AdminResponse :=
  .failure 400 "Invalid Configuration" ("Configuration parsing error: " ++ error)

def storedNotParsed (error : String) : AdminResponse :=
  .failure 500 "Invalid Configuration In Store" ("Configuration in store failed parsing: " ++ error)

def updateNotApplied (error : String) : AdminResponse :=
  .failure 500 "Reload Error" ("Configuration saved to store, but hot-reload failed: " ++ error)

def storedNotApplied (error : String) : AdminResponse :=
  .failure 500 "Reload Error" ("Failed to apply configuration from store: " ++ error)

/-- Load the running state, build its successor and store it; `failed` is the answer to a
    configuration that cannot be built. -/
def hotReload (crates : ConfigCrates γ) (surroundings : Surroundings γ) (config : γ)
    (content : String) (failed : String → AdminResponse) (message : String) :
    AdminProg AdminResponse := do
  let prev ← loadState
  match newFromConfig crates surroundings config content (nextVersion prev) with
  | .ok newState => do
    storeState newState
    return .reloaded newState.version newState.configHash newState.updatedAtEpochMs true message
  | .error error => return failed error

/-- What follows the persisting of an update. -/
def applyUpdate (crates : ConfigCrates γ) (surroundings : Surroundings γ) (engine : AdminEngine)
    (config : γ) (content : String) (reload : Bool) : AdminProg AdminResponse :=
  if reload then
    let message := "Configuration saved and runtime hot-reloaded successfully"
    if engine.dynamicState then
      hotReload crates surroundings config content updateNotApplied message
    else return .reloaded 1 "untracked" 0 true message
  else do
    let message := "Configuration saved to store (hot-reload skipped)"
    if engine.dynamicState then
      let state ← loadState
      return .reloaded state.version state.configHash state.updatedAtEpochMs false message
    else return .reloaded 1 "untracked" 0 false message

/-- A configuration is persisted before it is applied. -/
def persistUpdate (crates : ConfigCrates γ) (surroundings : Surroundings γ) (engine : AdminEngine)
    (config : γ) (content : String) (reload : Bool) : AdminProg AdminResponse :=
  if engine.configStore then do
    match ← saveConfig content with
    | .error error => return saveFailed error
    | .ok () => applyUpdate crates surroundings engine config content reload
  else applyUpdate crates surroundings engine config content reload

def handleConfigUpdate (crates : ConfigCrates γ) (surroundings : Surroundings γ)
    (engine : AdminEngine) (request : AdminRequest) : AdminProg AdminResponse :=
  if !request.authorized then return unauthorized
  else
    match readConfigBody request.readError [] request.chunks with
    | .error error => return .aborted error
    | .ok body =>
      match updateContent crates body with
      | none => return .failure 400 "Bad Request" "Request body is neither valid JSON nor valid UTF-8"
      | some (content, reload) =>
        match crates.fromTomlStr content with
        | .error error => return notParsed error
        | .ok config => persistUpdate crates surroundings engine config content reload

/-- Apply the persisted configuration. -/
def handleConfigReload (crates : ConfigCrates γ) (surroundings : Surroundings γ)
    (engine : AdminEngine) (request : AdminRequest) : AdminProg AdminResponse :=
  if !request.authorized then return unauthorized
  else if !engine.configStore then
    return .failure 400 "No Config Store"
      "No persistent config store is configured on this gateway instance"
  else do
    match ← loadConfig with
    | .error error => return loadFailed error
    | .ok none => return .failure 404 "Not Found" "No configuration found in persistent store"
    | .ok (some content) =>
      match crates.fromTomlStr content with
      | .error error => return storedNotParsed error
      | .ok config =>
        let message := "Configuration reloaded from store and hot-swapped into gateway runtime"
        if engine.dynamicState then
          hotReload crates surroundings config content storedNotApplied message
        else return .reloaded 1 "untracked" 0 true message

end SpectraGQL.Admin
