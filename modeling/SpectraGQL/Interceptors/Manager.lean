import SpectraGQL.Interceptors.Pipeline

/-! # Pipelines from a configuration (`interceptors/manager.rs`, `from_config`)

Every interceptor of the configuration is instantiated for its stage, and the names on the
global list and on the routes are looked up among them.  The pipelines of a route are kept
under its operation as it is spelled in the configuration, and `guards_agree_iff` says when
the pipelines composed for an operation hold the interceptors of all routes that the
operation matches.
-/

namespace SpectraGQL.Interceptors

open SpectraGQL.Protocol

/-- What fails fast succeeds in each of its parts. -/
theorem exists_of_bind_eq_ok {ε α β : Type} {first : Except ε α} {second : α → Except ε β} {result : β}
    (succeeds : (first >>= second) = .ok result) :
    ∃ value, first = .ok value ∧ second value = .ok result := by
  cases first with
  | error error => cases succeeds
  | ok value => exact ⟨value, rfl, succeeds⟩

/-- An instantiated interceptor, by its stage. -/
inductive Registered where
  | request (interceptor : RequestInterceptor)
  | response (interceptor : ResponseInterceptor)

/-- What `from_config` reads of a route. -/
structure RouteGuards where
  operation : String
  interceptors : List String

/-- What `from_config` reads of a configuration; maps are listed in the order in which they
    are iterated, and `γ` is what an interceptor is instantiated from. -/
structure ManagerConfig (γ : Type) where
  interceptors : List (String × γ)
  globalInterceptors : List String
  routes : List (String × RouteGuards)

/-- The instantiated interceptors of both stages, the latest first. -/
structure Registry where
  request : List (String × RequestInterceptor) := []
  response : List (String × ResponseInterceptor) := []

namespace Registry

def insert (registry : Registry) (name : String) : Registered → Registry
  | .request interceptor => { registry with request := (name, interceptor) :: registry.request }
  | .response interceptor => { registry with response := (name, interceptor) :: registry.response }

/-- The interceptors of a list of names, by their stages; `unknown` is the error for a name
    that is not registered. -/
def resolve (registry : Registry) (unknown : String → String) :
    List String → Except String (RequestInterceptorPipeline × ResponseInterceptorPipeline)
  | [] => .ok ([], [])
  | name :: rest =>
    match registry.request.lookup name, registry.response.lookup name with
    | some interceptor, _ => do
      let pipelines ← resolve registry unknown rest
      return (interceptor :: pipelines.1, pipelines.2)
    | none, some interceptor => do
      let pipelines ← resolve registry unknown rest
      return (pipelines.1, interceptor :: pipelines.2)
    | none, none => .error (unknown name)

/-- The request interceptors among some names. -/
def requestGuards (registry : Registry) (names : List String) : RequestInterceptorPipeline :=
  names.filterMap fun name => registry.request.lookup name

/-- The response interceptors among some names; a name of both stages is a request
    interceptor. -/
def responseGuards (registry : Registry) (names : List String) : ResponseInterceptorPipeline :=
  names.filterMap fun name =>
    if (registry.request.lookup name).isSome then none else registry.response.lookup name

theorem resolve_eq_ok {registry : Registry} {unknown : String → String} {names : List String}
    {pipelines : RequestInterceptorPipeline × ResponseInterceptorPipeline}
    (resolved : registry.resolve unknown names = .ok pipelines) :
    pipelines = (registry.requestGuards names, registry.responseGuards names) := by
  induction names generalizing pipelines with
  | nil =>
    cases resolved
    rfl
  | cons name rest inductionHypothesis =>
    unfold resolve at resolved
    unfold requestGuards responseGuards at inductionHypothesis ⊢
    rw [List.filterMap_cons, List.filterMap_cons]
    -- a name is looked up among the guards of requests first
    cases isRequest : registry.request.lookup name with
    | some interceptor =>
      simp only [isRequest] at resolved ⊢
      obtain ⟨later, laterResolved, ended⟩ := exists_of_bind_eq_ok resolved
      cases ended
      rw [inductionHypothesis laterResolved]
      simp
    | none =>
      cases isResponse : registry.response.lookup name with
      | none => simp [isRequest, isResponse] at resolved
      | some interceptor =>
        simp only [isRequest, isResponse] at resolved ⊢
        obtain ⟨later, laterResolved, ended⟩ := exists_of_bind_eq_ok resolved
        cases ended
        rw [inductionHypothesis laterResolved]
        simp

end Registry

/-- A route with its pipelines. -/
structure RoutePipelines where
  operation : String
  request : RequestInterceptorPipeline
  response : ResponseInterceptorPipeline

/-- Keep the pipelines of the routes under their operations, a later route in place of an
    earlier one, and empty pipelines not at all. -/
def keepPipelines {α : Type} (pipelines : List (String × List α)) : List (String × List α) :=
  pipelines.foldl (fun kept pipeline => if pipeline.2 = [] then kept else pipeline :: kept) []

theorem lookup_keepPipelines {α : Type} (pipelines : List (String × List α)) (operation : String) :
    (keepPipelines pipelines).lookup operation =
      ((pipelines.filter fun pipeline => pipeline.1 = operation ∧ pipeline.2 ≠ []).getLast?).map
        Prod.snd := by
  induction pipelines using List.reverseRecOn with
  | nil => rfl
  | append_singleton earlier route inductionHypothesis =>
    obtain ⟨spelling, pipeline⟩ := route
    have kept : keepPipelines (earlier ++ [(spelling, pipeline)]) =
        if pipeline = [] then keepPipelines earlier else (spelling, pipeline) :: keepPipelines earlier := by
      unfold keepPipelines
      rw [List.foldl_append, List.foldl_cons, List.foldl_nil]
    rw [kept, List.filter_append]
    by_cases empty : pipeline = []
    · simp only [empty, if_true, inductionHypothesis, List.filter_cons, ne_eq, not_true_eq_false,
        and_false, decide_false, Bool.false_eq_true, if_false, List.filter_nil, List.append_nil]
    · by_cases same : spelling = operation
      · subst same
        simp [empty]
      · have different : (operation == spelling) = false := by simpa using Ne.symm same
        simp only [empty, if_false, List.lookup_cons, different, inductionHypothesis, List.filter_cons,
          same, false_and, decide_false, Bool.false_eq_true, List.filter_nil, List.append_nil]

section FromConfig

variable {γ : Type}

/-- Instantiate the interceptors of a configuration one by one. -/
def registerAll (instantiate : String → γ → Except String Registered) :
    List (String × γ) → Registry → Except String Registry
  | [], registry => .ok registry
  | (name, config) :: rest, registry => do
    registerAll instantiate rest (registry.insert name (← instantiate name config))

def globalUnknown (name : String) : String :=
  "Global interceptor '" ++ name ++ "' is not registered in [interceptors]"

def routeUnknown (routeKey name : String) : String :=
  "Route '" ++ routeKey ++ "' references unknown interceptor '" ++ name ++ "'"

def resolveRoutes (registry : Registry) :
    List (String × RouteGuards) → Except String (List RoutePipelines)
  | [] => .ok []
  | (routeKey, route) :: rest => do
    let pipelines ← registry.resolve (routeUnknown routeKey) route.interceptors
    let later ← resolveRoutes registry rest
    return ⟨route.operation, pipelines.1, pipelines.2⟩ :: later

/-- `instantiate` stands for the rule engines and plugins behind the interceptors. -/
def InterceptorManager.fromConfig (instantiate : String → γ → Except String Registered)
    (config : ManagerConfig γ) : Except String InterceptorManager := do
  let registry ← registerAll instantiate config.interceptors {}
  let globals ← registry.resolve globalUnknown config.globalInterceptors
  let routes ← resolveRoutes registry config.routes
  return {
    globalRequestPipeline := globals.1
    globalResponsePipeline := globals.2
    routeRequestPipelines := keepPipelines (routes.map fun route => (route.operation, route.request))
    routeResponsePipelines := keepPipelines (routes.map fun route => (route.operation, route.response)) }

theorem resolveRoutes_eq_ok {registry : Registry} {routes : List (String × RouteGuards)}
    {pipelines : List RoutePipelines} (resolved : resolveRoutes registry routes = .ok pipelines) :
    pipelines = routes.map fun route => ⟨route.2.operation,
      registry.requestGuards route.2.interceptors, registry.responseGuards route.2.interceptors⟩ := by
  induction routes generalizing pipelines with
  | nil =>
    cases resolved
    rfl
  | cons route rest inductionHypothesis =>
    obtain ⟨mine, mineResolved, ended⟩ := exists_of_bind_eq_ok resolved
    obtain ⟨later, laterResolved, ended⟩ := exists_of_bind_eq_ok ended
    cases ended
    rw [Registry.resolve_eq_ok mineResolved, inductionHypothesis laterResolved]
    rfl

/-- What `from_config` builds, in terms of the registered interceptors. -/
theorem fromConfig_eq_ok {instantiate : String → γ → Except String Registered} {config : ManagerConfig γ}
    {manager : InterceptorManager} (accepted : InterceptorManager.fromConfig instantiate config = .ok manager) :
    ∃ registry, registerAll instantiate config.interceptors {} = .ok registry ∧
      manager = {
        globalRequestPipeline := registry.requestGuards config.globalInterceptors
        globalResponsePipeline := registry.responseGuards config.globalInterceptors
        routeRequestPipelines := keepPipelines (config.routes.map fun route =>
          (route.2.operation, registry.requestGuards route.2.interceptors))
        routeResponsePipelines := keepPipelines (config.routes.map fun route =>
          (route.2.operation, registry.responseGuards route.2.interceptors)) } := by
  obtain ⟨registry, registered, ended⟩ := exists_of_bind_eq_ok accepted
  obtain ⟨globals, globalsResolved, ended⟩ := exists_of_bind_eq_ok ended
  obtain ⟨routes, routesResolved, ended⟩ := exists_of_bind_eq_ok ended
  cases ended
  refine ⟨registry, registered, ?_⟩
  rw [Registry.resolve_eq_ok globalsResolved, resolveRoutes_eq_ok routesResolved]
  simp only [List.map_map, Function.comp_def]

end FromConfig

/-! ## Routes and their guards -/

/-- The route whose guards are composed for an operation: the last that is spelled exactly
    like the operation and has a guard of the stage. -/
def composedRoute {α : Type} (guards : List String → List α) (routes : List (String × RouteGuards))
    (operation : String) : Option RouteGuards :=
  ((routes.map Prod.snd).filter fun route =>
    route.operation = operation ∧ ¬ (guards route.interceptors).isEmpty).getLast?

/-- Every guard of a matching route is global, or also on the route that is composed for the
    operation. -/
def Covered {α : Type} (guards : List String → List α) (globalInterceptors : List String)
    (routes : List (String × RouteGuards)) (gql : GraphQLRequestInfo) : Prop :=
  ∀ route ∈ routes.map Prod.snd, gql.matchesOperation route.operation = true →
    ∀ guard ∈ guards route.interceptors, guard ∈ guards globalInterceptors ∨
      ∃ operation composed, gql.operationName = some operation ∧
        composedRoute guards routes operation = some composed ∧ guard ∈ guards composed.interceptors

/-- The guards of one stage in the composed pipeline. -/
theorem mem_compose_iff {α : Type} (guards : List String → List α) (globalInterceptors : List String)
    (routes : List (String × RouteGuards)) (operation : Option String) (guard : α) :
    guard ∈ InterceptorManager.compose (guards globalInterceptors)
        (keepPipelines (routes.map fun route => (route.2.operation, guards route.2.interceptors)))
        operation ↔
      guard ∈ guards globalInterceptors ∨ ∃ name composed, operation = some name ∧
        composedRoute guards routes name = some composed ∧ guard ∈ guards composed.interceptors := by
  unfold InterceptorManager.compose
  rw [List.mem_append]
  refine or_congr_right ?_
  cases operation with
  | none => simp
  | some name =>
    have composed : (keepPipelines
        (routes.map fun route => (route.2.operation, guards route.2.interceptors))).lookup name =
          (composedRoute guards routes name).map fun route => guards route.interceptors := by
      rw [lookup_keepPipelines]
      unfold composedRoute
      rw [List.filter_map, List.filter_map, List.getLast?_map, List.getLast?_map, Option.map_map,
        Option.map_map]
      simp only [Function.comp_def, List.isEmpty_iff, ne_eq]
    rw [Option.bind_some, composed]
    cases found : composedRoute guards routes name with
    | none => simp [found]
    | some route => simp [found]

/-- Each interceptor of a route that the operation matches is in the composed pipelines. -/
def GuardsAgree (registry : Registry) (routes : List (String × RouteGuards))
    (manager : InterceptorManager) (gql : GraphQLRequestInfo) : Prop :=
  ∀ route ∈ routes.map Prod.snd, gql.matchesOperation route.operation = true →
    (∀ guard ∈ registry.requestGuards route.interceptors,
      guard ∈ manager.getRequestPipeline gql.operationName) ∧
    ∀ guard ∈ registry.responseGuards route.interceptors,
      guard ∈ manager.getResponsePipeline gql.operationName

/-- The guards of the routes that an operation matches are composed for it exactly when all
    of them are global or on the route that is spelled like the operation. -/
theorem guards_agree_iff {γ : Type} (instantiate : String → γ → Except String Registered)
    (config : ManagerConfig γ) (manager : InterceptorManager) (registry : Registry)
    (accepted : InterceptorManager.fromConfig instantiate config = .ok manager)
    (registered : registerAll instantiate config.interceptors {} = .ok registry)
    (gql : GraphQLRequestInfo) :
    GuardsAgree registry config.routes manager gql ↔
      Covered registry.requestGuards config.globalInterceptors config.routes gql ∧
      Covered registry.responseGuards config.globalInterceptors config.routes gql := by
  obtain ⟨registry', registered', rfl⟩ := fromConfig_eq_ok accepted
  have same : registry' = registry := by
    rw [registered] at registered'
    cases registered'
    rfl
  subst same
  unfold GuardsAgree Covered InterceptorManager.getRequestPipeline InterceptorManager.getResponsePipeline
  simp only [mem_compose_iff]
  constructor
  · intro agree
    exact ⟨fun route member isMatch => (agree route member isMatch).1,
      fun route member isMatch => (agree route member isMatch).2⟩
  · rintro ⟨requests, responses⟩ route member isMatch
    exact ⟨requests route member isMatch, responses route member isMatch⟩

/-- A rule that rejects every request. -/
def denyRule : RequestInterceptor := fun context parts _ =>
  (.reject ⟨.forbidden, "FORBIDDEN", "Not allowed", none⟩, context, parts)

/-- One rule, on the route of the operation `deleteUser`. -/
def deleteUserConfig : ManagerConfig RequestInterceptor :=
  ⟨[("deny", denyRule)], [], [("delete_user", ⟨"deleteUser", ["deny"]⟩)]⟩

def deleteUserManager : InterceptorManager := ⟨[], [], [("deleteUser", [denyRule])], []⟩

def instantiateRule (_ : String) (rule : RequestInterceptor) : Except String Registered :=
  .ok (.request rule)

/-- `mutation … { deleteUser }` under an operation name of the client's choice. -/
def deleteUserAs (operation : Option String) : GraphQLRequestInfo :=
  ⟨.mutation, operation, ["deleteUser"], none, .null, none⟩

theorem guards_agree_iff_spelled :
    InterceptorManager.fromConfig instantiateRule deleteUserConfig = .ok deleteUserManager ∧
    (GuardsAgree ⟨[("deny", denyRule)], []⟩ deleteUserConfig.routes deleteUserManager
        (deleteUserAs (some "deleteUser")) ↔
      Covered (Registry.requestGuards ⟨[("deny", denyRule)], []⟩) [] deleteUserConfig.routes
        (deleteUserAs (some "deleteUser")) ∧
      Covered (Registry.responseGuards ⟨[("deny", denyRule)], []⟩) [] deleteUserConfig.routes
        (deleteUserAs (some "deleteUser"))) :=
  ⟨rfl, guards_agree_iff instantiateRule deleteUserConfig deleteUserManager
    ⟨[("deny", denyRule)], []⟩ rfl rfl (deleteUserAs (some "deleteUser"))⟩

/-- Under another operation name the route of the root field is matched, and its rule is not
    composed. -/
theorem guard_lost_under_other_name :
    InterceptorManager.fromConfig instantiateRule deleteUserConfig = .ok deleteUserManager ∧
    registerAll instantiateRule deleteUserConfig.interceptors {} = .ok ⟨[("deny", denyRule)], []⟩ ∧
    ¬ GuardsAgree ⟨[("deny", denyRule)], []⟩ deleteUserConfig.routes deleteUserManager
      (deleteUserAs (some "cleanup")) := by
  refine ⟨rfl, rfl, ?_⟩
  intro agree
  have listed : denyRule ∈
      Registry.requestGuards ⟨[("deny", denyRule)], []⟩ ["deny"] := List.mem_singleton.mpr rfl
  have composed := (agree ⟨"deleteUser", ["deny"]⟩ (List.mem_singleton.mpr rfl) (by decide)).1
    denyRule listed
  have empty : deleteUserManager.getRequestPipeline (some "cleanup") = [] := rfl
  rw [show (deleteUserAs (some "cleanup")).operationName = some "cleanup" from rfl, empty] at composed
  exact absurd composed List.not_mem_nil

end SpectraGQL.Interceptors
