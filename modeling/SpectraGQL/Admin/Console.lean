import SpectraGQL.Admin.Access
import SpectraGQL.Admin.Router
import SpectraGQL.Admin.Validation
import SpectraGQL.Interceptors.Auth

/-! # A request to the admin console (`handle_request` of `admin/mod.rs`)

The gate looks at the address of the client, the router at method and path, and the handlers that
write to the configuration at the token.  The pages that have nothing to do with the configuration
are left to `elsewhere`.
-/

namespace SpectraGQL.Admin

open Interaction Data SpectraGQL.Http SpectraGQL.Interceptors SpectraGQL.Gateway

/-! ## The token -/

/-- `SpectraAdminConfig`. -/
structure SpectraAdminConfig where
  pathPrefix : String
  allowedIps : List String
  deployToken : Option String

/-- The token that writes ask for; `env` is `std::env::var`. -/
def expectedToken (env : String → Option String) (config : SpectraAdminConfig) : Option String :=
  env "SPECTRA_ADMIN_TOKEN" <|> env "SPECTRA_DEPLOY_TOKEN" <|> env "SPECTRAGQL_DEPLOY_TOKEN" <|>
    config.deployToken

/-- The token of a request, under the first of the four headers that has one. -/
def presentedToken (headers : HeaderMap) : Option String :=
  ((headers.getStr "authorization").bind fun header =>
    DeployAuthInterceptor.stripPrefix header "Bearer " <|>
      DeployAuthInterceptor.stripPrefix header "bearer ") <|>
  headers.getStr "x-spectra-admin-token" <|> headers.getStr "x-spectra-deploy-token" <|>
  headers.getStr "x-spectra-deploy-key"

/-- Without a token, or with a blank one, everybody may write. -/
def isWriteAuthorized (expected : Option String) (headers : HeaderMap) : Bool :=
  match expected with
  | none => true
  | some expected =>
    if trim expected = "" then true
    else
      match presentedToken headers with
      | some provided => constantTimeEq (asBytes (trim provided)) (asBytes (trim expected))
      | none => false

/-- `auth_required` of `handle_auth_verify`. -/
def authRequired (expected : Option String) : Bool :=
  (expected.map fun token => !(trim token == "")).getD false

/-- The request brings the expected token, white space aside. -/
def Presents (expected : Option String) (headers : HeaderMap) : Prop :=
  ∃ token provided, expected = some token ∧ presentedToken headers = some provided ∧ trim provided = trim token

theorem isWriteAuthorized_iff (expected : Option String) (headers : HeaderMap) :
    isWriteAuthorized expected headers = true ↔ authRequired expected = false ∨ Presents expected headers := by
  unfold isWriteAuthorized authRequired Presents
  cases expected with
  | none => simp
  | some token =>
    by_cases blank : trim token = ""
    · simp [blank]
    · cases presentedToken headers with
      | none => simp [blank]
      | some provided => simp [blank, constantTimeEq_iff, asBytes_inj]

/-! ## Requests and answers -/

structure ConsoleRequest where
  method : Method
  path : String
  session : AdminSession
  chunks : List Bytes
  readError : Option PingoraError

structure DnsStatusEntry where
  name : String
  target : String
  /-- There is none for a target that has never been resolved. -/
  currentAddr : Option SocketAddr
  deriving DecidableEq, Repr

inductive ConsoleAnswer where
  | forbidden (clientIp : IpAddr)
  | notFound (path : String)
  /-- A page that has nothing to do with the configuration. -/
  | elsewhere (route : AdminRoute)
  /-- A page about the running configuration, if there is one. -/
  | shown (route : AdminRoute) (state : Option RunningState)
  | config (version updatedAtEpochMs : Nat) (hash content : String)
  | dnsStatus (totalUpstreams : Nat) (upstreams : List DnsStatusEntry)
  | validated (answer : ValidateAnswer)
  | verified (authenticated required : Bool)
  | admin (response : AdminResponse)

def getDnsStatus (state : RunningState) : ConsoleAnswer :=
  .dnsStatus state.upstreamTargets.length
    ((state.upstreamTargets.map fun target => ⟨target.1, target.2, state.namedUpstreams.lookup target.1⟩).mergeSort
      fun left right => left.name ≤ right.name)

/-! ## Handlers -/

section Handlers

variable {Program Evaluator Module ρ : Type}

/-- The admin engine of a gateway: how it is configured, and what it is connected to. -/
structure Console (ρ : Type) where
  config : SpectraAdminConfig
  env : String → Option String
  router : AdminRouter ρ
  engine : AdminEngine

/-- The part of `AdminEngine::new` that concerns the configuration. -/
def Console.new (matchit : Matchit ρ) (config : SpectraAdminConfig) (env : String → Option String)
    (engine : AdminEngine) : Console ρ :=
  ⟨config, env, AdminRouter.new matchit config.pathPrefix, engine⟩

variable (console : Console ρ)

def Console.authorizes (request : ConsoleRequest) : Bool :=
  isWriteAuthorized (expectedToken console.env console.config) request.session.headers

def Console.adminRequest (request : ConsoleRequest) : AdminRequest :=
  ⟨console.authorizes request, request.chunks, request.readError⟩

def handleConfigGet (engine : AdminEngine) : AdminProg ConsoleAnswer :=
  if engine.dynamicState then do
    let state ← loadState
    return .config state.version state.updatedAtEpochMs state.configHash state.rawConfig
  else if engine.configStore then do
    match ← loadConfig with
    | .ok (some raw) => return .config 1 0 "" raw
    | .ok none | .error _ => return .config 1 0 "" ""
  else return .config 1 0 "" ""

def handleDnsStatus (engine : AdminEngine) : AdminProg ConsoleAnswer :=
  if engine.dynamicState then do
    let state ← loadState
    return getDnsStatus state
  else return .dnsStatus 0 []

def handleDnsRescan {γ : Type} (surroundings : Surroundings γ) (engine : AdminEngine) (request : AdminRequest) :
    AdminProg AdminResponse :=
  if !request.authorized then return unauthorized
  else if engine.dynamicState then rescanDns surroundings
  else return .failure 500 "No Dynamic State" "Dynamic gateway state is not initialized"

/-- The status and the routes that are configured. -/
def handlePage (engine : AdminEngine) (route : AdminRoute) : AdminProg ConsoleAnswer :=
  if engine.dynamicState then do
    let state ← loadState
    return .shown route (some state)
  else return .shown route none

def Console.handleAuthVerify (request : ConsoleRequest) : ConsoleAnswer :=
  .verified (console.authorizes request) (authRequired (expectedToken console.env console.config))

/-- What a call meets: the readers of texts, and the hosts and the time of its moment. -/
structure ConsoleMoment where
  texts : ConfigTexts
  resolve : Resolver
  nowMs : Nat

def ConsoleMoment.surroundings (moment : ConsoleMoment) (engines : Engines Program Evaluator Module) :
    Surroundings SpectraConfig :=
  machine engines moment.resolve (fun target => moment.resolve target.2) moment.nowMs

def Console.handleRoute (engines : Engines Program Evaluator Module) (moment : ConsoleMoment)
    (request : ConsoleRequest) (route : AdminRoute) : AdminProg ConsoleAnswer :=
  match route with
  | .configUpdate => do
    let response ← handleConfigUpdate moment.texts.crates (moment.surroundings engines) console.engine
      (console.adminRequest request)
    return .admin response
  | .configReload => do
    let response ← handleConfigReload moment.texts.crates (moment.surroundings engines) console.engine
      (console.adminRequest request)
    return .admin response
  | .dnsRescan => do
    let response ← handleDnsRescan (moment.surroundings engines) console.engine (console.adminRequest request)
    return .admin response
  | .configGet => handleConfigGet console.engine
  | .dnsStatus => handleDnsStatus console.engine
  | .status | .routes => handlePage console.engine route
  | .configValidate =>
    return .validated (handleConfigValidate moment.texts moment.resolve (console.adminRequest request))
  | .authVerify => return console.handleAuthVerify request
  | .dashboard | .favicon | .schema | .schemaRefresh | .subscriptions | .idempotency | .eventsink | .traffic
  | .trafficClear | .telemetryReport | .workers | .workerLogs => return .elsewhere route

def Console.handleRequest (matchit : Matchit ρ) (engines : Engines Program Evaluator Module)
    (moment : ConsoleMoment) (request : ConsoleRequest) : AdminProg ConsoleAnswer :=
  match Admin.handleRequest console.config.allowedIps request.session with
  | .forbidden clientIp => return .forbidden clientIp
  | .routed =>
    match console.router.matchRoute matchit request.method request.path with
    | some (route, _) => console.handleRoute engines moment request route
    | none => return .notFound request.path

end Handlers

/-! ## Where writes are routed -/

/-- The routes whose handlers may write to the configuration. -/
def AdminRoute.writes : AdminRoute → Bool
  | .configUpdate | .configReload | .dnsRescan => true
  | _ => false

/-- A router finds only what has been put into it. -/
def Matchit.Honest {ρ : Type} (matchit : Matchit ρ) : Prop :=
  ∀ routes path found, matchit.lookup (AdminRouter.insertAll matchit routes) path = some found →
    ∃ pattern, (pattern, found.1) ∈ routes

theorem mem_underPrefix {pathPrefix : String} {routes : List (String × AdminRoute)} {entry : String × AdminRoute}
    (member : entry ∈ underPrefix pathPrefix routes) : ∃ pattern, (pattern, entry.2) ∈ routes := by
  obtain ⟨route, isRoute, made⟩ := List.mem_flatMap.mp member
  refine ⟨route.1, ?_⟩
  split at made <;> simp only [List.mem_cons, List.not_mem_nil, or_false] at made
  · rcases made with rfl | rfl <;> exact isRoute
  · rw [made]
    exact isRoute

theorem matchRoute_some {ρ : Type} {matchit : Matchit ρ} {router : AdminRouter ρ} {method : Method} {path : String}
    {found : AdminRoute × List (String × String)} (matched : router.matchRoute matchit method path = some found) :
    ∃ table asked, matchit.lookup table asked = some found ∧
      (method = .get ∧ table = router.getRouter ∨ method = .post ∧ table = router.postRouter ∨
        method = .put ∧ table = router.putRouter) := by
  unfold AdminRouter.matchRoute at matched
  obtain ⟨table, isTable, found'⟩ := Option.bind_eq_some_iff.mp matched
  have inTable : ∃ asked, matchit.lookup table asked = some found := by
    cases direct : matchit.lookup table path with
    | some first =>
      rw [direct] at found'
      exact ⟨path, direct.trans found'⟩
    | none =>
      rw [direct] at found'
      dsimp only at found'
      split at found'
      · exact ⟨_, found'⟩
      · cases found'
  obtain ⟨asked, looked⟩ := inTable
  refine ⟨table, asked, looked, ?_⟩
  cases method with
  | get => exact .inl ⟨rfl, (Option.some.inj isTable).symm⟩
  | post => exact .inr (.inl ⟨rfl, (Option.some.inj isTable).symm⟩)
  | put => exact .inr (.inr ⟨rfl, (Option.some.inj isTable).symm⟩)
  | head | delete | connect | options | trace | patch | extension _ => cases isTable

/-- The files of the console do not write. -/
theorem writes_of_mem_files {pathPrefix : String} {entry : String × AdminRoute}
    (member : entry ∈ pageRoutes pathPrefix ++ faviconRoutes pathPrefix) : entry.2.writes = false := by
  simp only [pageRoutes, faviconRoutes, List.cons_append, List.nil_append, List.mem_cons, List.not_mem_nil,
    or_false] at member
  rcases member with rfl | rfl | rfl | rfl | rfl <;> rfl

/-- Nothing that is reached by `GET` writes. -/
theorem method_of_writes {ρ : Type} {matchit : Matchit ρ} (honest : matchit.Honest) {pathPrefix path : String}
    {method : Method} {found : AdminRoute × List (String × String)}
    (matched : (AdminRouter.new matchit pathPrefix).matchRoute matchit method path = some found)
    (writes : found.1.writes = true) : method = .post ∨ method = .put := by
  obtain ⟨table, asked, looked, isGet | isPost | isPut⟩ := matchRoute_some matched
  · obtain ⟨-, rfl⟩ := isGet
    obtain ⟨pattern, member⟩ := honest _ _ _ looked
    have listed : ∀ entry ∈ getRoutes, entry.2.writes = false := by decide
    have reads : found.1.writes = false := by
      simp only [List.mem_append] at member
      rcases member with (((page | page) | icon) | icon) | route
      · exact writes_of_mem_files (List.mem_append_left _ page)
      · split at page
        · exact writes_of_mem_files (List.mem_append_left _ page)
        · cases page
      · exact writes_of_mem_files (List.mem_append_right _ icon)
      · split at icon
        · exact writes_of_mem_files (List.mem_append_right _ icon)
        · cases icon
      · obtain ⟨original, isListed⟩ := mem_underPrefix route
        exact listed _ isListed
    rw [reads] at writes
    cases writes
  · exact .inl isPost.1
  · exact .inr isPut.1

end SpectraGQL.Admin
