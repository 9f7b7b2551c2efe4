import SpectraGQL.Admin.Reload
import SpectraGQL.Protocol.Decoder
import SpectraGQL.Telemetry.Dispatch

/-! # Starting the gateway (`build_composite_service` of `lib.rs`)

The persisted configuration is taken if there is one that parses, and the one that the
process was started with otherwise.  Everything is built from it once: the running
configuration, the two services with their brokers, and the routes to them.
-/

namespace SpectraGQL.Admin

open Interaction SpectraGQL.Http SpectraGQL.Protocol SpectraGQL.Telemetry SpectraGQL.Gateway

/-! ## Settings -/

structure SpectraUpstreamConfig where
  name : String
  addr : String

structure SpectraDispatchConfig where
  method : String
  addr : String

/-- What the start reads of a configuration besides its `ConfigSettings`. -/
structure BootSettings where
  gqlUpstream : SpectraUpstreamConfig
  restUpstream : SpectraUpstreamConfig
  gqlDispatch : SpectraDispatchConfig
  restDispatch : SpectraDispatchConfig
  gqlPaths : String
  restPaths : String
  opsToDispatch : String
  upstreams : List (String × SpectraUpstreamConfig)
  /-- `None` for the Redis backend. -/
  idempotencyCapacity : Option Nat

structure BootCrates (γ : Type) extends ConfigCrates γ where
  bootSettings : γ → BootSettings
  /-- `matchit::Router::insert`: whether a route goes with those inserted before. -/
  acceptsRoute : List String → String → Bool
  /-- `lru::LruCache::new` panics where it cannot make room. -/
  hasRoomFor : Nat → Bool

/-- The configuration that the process is started with, and its text. -/
structure Startup (γ : Type) where
  config : γ
  raw : String

/-! ## Upstreams -/

/-- The first address of a host. -/
def firstAddress (resolve : String → Except String (List SocketAddr)) (unresolved host : String) :
    Except String SocketAddr := do
  match ← resolve host with
  | addr :: _ => return addr
  | [] => .error unresolved

/-- An upstream is known by its key and by its own name. -/
def nameUpstream {α : Type} (names : List (String × α)) (key : String) (config : SpectraUpstreamConfig)
    (value : α) : List (String × α) :=
  let names := (key, value) :: names.filter fun entry => entry.1 ≠ key
  if config.name = "" ∨ config.name = "default" then names
  else (config.name, value) :: names.filter fun entry => entry.1 ≠ config.name

def resolveNamed (resolve : String → Except String (List SocketAddr)) :
    List (String × SpectraUpstreamConfig) → List (String × SocketAddr) × List (String × String) →
      Except String (List (String × SocketAddr) × List (String × String))
  | [], resolved => .ok resolved
  | (key, config) :: rest, resolved => do
    let addr ← firstAddress resolve
      ("Could not resolve upstream " ++ key ++ ": " ++ config.addr) config.addr
    resolveNamed resolve rest
      (nameUpstream resolved.1 key config addr, nameUpstream resolved.2 key config config.addr)

/-- `resolve_all_upstreams_with_targets`. -/
def resolveAllUpstreamsWithTargets (resolve : String → Except String (List SocketAddr))
    (settings : BootSettings) : Except String (List (String × SocketAddr) × List (String × String)) := do
  let upstream := settings.gqlUpstream
  let addr ← firstAddress resolve ("Could not resolve default upstream: " ++ upstream.addr) upstream.addr
  resolveNamed resolve settings.upstreams
    (nameUpstream [] "default" upstream addr, nameUpstream [] "default" upstream upstream.addr)

/-! ## Services -/

structure BootedService where
  requestProtocol : ProtocolDecoder
  dispatchMethod : DispatchMethod
  dispatchAddr : String
  upstreamAddr : SocketAddr
  upstreamRoutes : String

structure CompositeService where
  state : RunningState
  services : List BootedService
  /-- The routes, each with the number of its service. -/
  router : List (String × Nat)

/-- `ServiceConfig::try_new`; a broker that nothing supports is a panic. -/
def tryNewService (resolve : String → Except String (List SocketAddr)) (protocol : ProtocolDecoder)
    (upstreamAddress upstreamRoutes : String) (dispatch : SpectraDispatchConfig) :
    Except String BootedService := do
  let addr ← firstAddress resolve
    ("No socket address resolved for upstream '" ++ upstreamAddress ++ "'") upstreamAddress
  let sink ← findDispatchHandlerByMethod dispatch.method
  return ⟨protocol, sink, dispatch.addr, addr, upstreamRoutes⟩

/-- The loop of `add_service_config`; a route that does not go with the others is a panic. -/
def addRoutes (acceptsRoute : List String → String → Bool) (service : Nat) :
    List String → List (String × Nat) → Except String (List (String × Nat))
  | [], router => .ok router
  | route :: rest, router =>
    if acceptsRoute (router.map Prod.fst) (trim route) then
      addRoutes acceptsRoute service rest (router ++ [(trim route, service)])
    else .error "Failed to add service at \x7b\x7d to composite service."

def addServiceConfig (acceptsRoute : List String → String → Bool) (number : Nat)
    (service : BootedService) (router : List (String × Nat)) : Except String (List (String × Nat)) :=
  addRoutes acceptsRoute number (splitOn ',' service.upstreamRoutes) router

variable {γ : Type}

def hasRoom (crates : BootCrates γ) (settings : BootSettings) : Except String Unit :=
  if settings.idempotencyCapacity.all crates.hasRoomFor then .ok () else .error "capacity overflow"

/-- Steps 3 and later of `build_composite_service`, on the configuration that was found. -/
def assemble (crates : BootCrates γ) (surroundings : Surroundings γ) (config : γ) (activeRaw : String) :
    Except String CompositeService := do
  let state ← newFromConfig crates.toConfigCrates surroundings config activeRaw 1
  let settings := crates.bootSettings config
  let gql ← tryNewService surroundings.resolve (GraphQLDecoder.new settings.opsToDispatch)
    settings.gqlUpstream.addr settings.gqlPaths settings.gqlDispatch
  let rest ← tryNewService surroundings.resolve .http settings.restUpstream.addr settings.restPaths
    settings.restDispatch
  hasRoom crates settings
  let _ ← surroundings.resolveAllUpstreams config
  let _ ← surroundings.interceptorManager config
  let router ← addServiceConfig crates.acceptsRoute 0 gql []
  let router ← addServiceConfig crates.acceptsRoute 1 rest router
  return ⟨state, [gql, rest], router⟩

theorem newFromConfig_isOk_of_assemble {crates : BootCrates γ} {surroundings : Surroundings γ}
    {config : γ} {activeRaw : String} (assembled : (assemble crates surroundings config activeRaw).isOk)
    (rawContent : String) (version : Nat) :
    (newFromConfig crates.toConfigCrates surroundings config rawContent version).isOk := by
  have built : (newFromConfig crates.toConfigCrates surroundings config activeRaw 1).isOk := by
    unfold assemble at assembled
    cases found : newFromConfig crates.toConfigCrates surroundings config activeRaw 1 with
    | ok state => rfl
    | error error =>
      rw [found] at assembled
      exact assembled
  rw [newFromConfig_isOk_iff] at built ⊢
  exact built

/-! ## The persisted configuration -/

/-- Write the text of the startup configuration to the store; nothing depends on its answer. -/
def seed (startup : Startup γ) : AdminProg (γ × String) :=
  if startup.raw = "" then return (startup.config, startup.raw)
  else do
    let _ ← saveConfig startup.raw
    return (startup.config, startup.raw)

/-- The configuration to start with, and its text. -/
def hydrate (crates : BootCrates γ) (startup : Startup γ) : AdminProg (γ × String) := do
  match ← loadConfig with
  | .ok (some stored) =>
    if trim stored = "" then seed startup
    else
      match crates.fromTomlStr stored with
      | .ok parsed => return (parsed, stored)
      | .error _ => return (startup.config, startup.raw)
  | .ok none => seed startup
  | .error _ => return (startup.config, startup.raw)

def buildCompositeService (crates : BootCrates γ) (surroundings : Surroundings γ)
    (startup : Startup γ) : AdminProg (Except String CompositeService) := do
  let effective ← hydrate crates startup
  return assemble crates surroundings effective.1 effective.2

/-! ## Bootable stores -/

/-- The accesses to a config store that does not fail. -/
def workingStore : (call : AdminCall) → AdminStore → call.Answer × AdminStore
  | .loadState, store => (store.state, store)
  | .storeState state, store => ((), { store with state := state })
  | .saveConfig content, store => (.ok (), { store with persisted := some content })
  | .loadConfig, store => (.ok store.persisted, store)

/-- The gateway starts from the store. -/
def Bootable (crates : BootCrates γ) (surroundings : Surroundings γ) (startup : Startup γ)
    (store : AdminStore) : Prop :=
  (((buildCompositeService crates surroundings startup).interp workingStore store).1).isOk

instance (crates : BootCrates γ) (surroundings : Surroundings γ) (startup : Startup γ)
    (store : AdminStore) : Decidable (Bootable crates surroundings startup store) :=
  inferInstanceAs (Decidable (_ = true))

/-- Only the persisted configuration counts. -/
theorem hydrate_persisted {crates : BootCrates γ} {startup : Startup γ} {first second : AdminStore}
    (same : first.persisted = second.persisted) :
    ((hydrate crates startup).interp workingStore first).1 =
      ((hydrate crates startup).interp workingStore second).1 := by
  have loaded : ∀ store : AdminStore,
      loadConfig.interp workingStore store = (.ok store.persisted, store) := fun store => rfl
  have seeded : ∀ store, ((seed startup).interp workingStore store).1 = (startup.config, startup.raw) := by
    intro store
    unfold seed
    split <;> rfl
  unfold hydrate
  rw [Prog.interp_bind, Prog.interp_bind, loaded, loaded, same]
  cases second.persisted with
  | none => rw [seeded, seeded]
  | some stored =>
    dsimp only
    split
    · rw [seeded, seeded]
    · cases crates.fromTomlStr stored <;> rfl

theorem bootable_persisted {crates : BootCrates γ} {surroundings : Surroundings γ} {startup : Startup γ}
    {first second : AdminStore} (same : first.persisted = second.persisted) :
    Bootable crates surroundings startup first ↔ Bootable crates surroundings startup second := by
  unfold Bootable buildCompositeService
  rw [Prog.interp_bind, Prog.interp_bind, hydrate_persisted same]
  rfl

/-- A text that the gateway would start with itself. -/
theorem hydrate_stored {crates : BootCrates γ} {startup : Startup γ} {store : AdminStore}
    {content : String} {config : γ} (persisted : store.persisted = some content)
    (filled : trim content ≠ "") (parsed : crates.fromTomlStr content = .ok config) :
    ((hydrate crates startup).interp workingStore store).1 = (config, content) := by
  have loaded : loadConfig.interp workingStore store = (.ok (some content), store) := by
    rw [← persisted]
    rfl
  unfold hydrate
  rw [Prog.interp_bind, loaded]
  simp only [filled, if_false, parsed, Prog.pure_eq_ret, Prog.interp_ret]

theorem bootable_stored {crates : BootCrates γ} {surroundings : Surroundings γ} {startup : Startup γ}
    {store : AdminStore} {content : String} {config : γ} (persisted : store.persisted = some content)
    (filled : trim content ≠ "") (parsed : crates.fromTomlStr content = .ok config) :
    Bootable crates surroundings startup store ↔
      (assemble crates surroundings config content).isOk := by
  unfold Bootable buildCompositeService
  rw [Prog.interp_bind, hydrate_stored persisted filled parsed]
  rfl

end SpectraGQL.Admin
