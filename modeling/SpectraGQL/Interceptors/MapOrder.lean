import SpectraGQL.Interceptors.Instantiation
import SpectraGQL.Interceptors.Tokens

/-! # Interceptors from maps in any order

`from_config` iterates over two hash maps, the interceptors and the routes.  The registry is a map
again, and so are the pipelines of the routes, where only routes with one operation get in each
other's way.
-/

namespace SpectraGQL.Interceptors

def Registered.asRequest : Registered → Option RequestInterceptor
  | .request interceptor => some interceptor
  | .response _ => none

def Registered.asResponse : Registered → Option ResponseInterceptor
  | .request _ => none
  | .response interceptor => some interceptor

/-- Pipelines are composed alike for every operation. -/
structure GuardsAlike (first second : InterceptorManager) : Prop where
  globalRequest : first.globalRequestPipeline = second.globalRequestPipeline
  globalResponse : first.globalResponsePipeline = second.globalResponsePipeline
  routeRequest : ∀ operation,
    first.routeRequestPipelines.lookup operation = second.routeRequestPipelines.lookup operation
  routeResponse : ∀ operation,
    first.routeResponsePipelines.lookup operation = second.routeResponsePipelines.lookup operation

section Guards

variable {γ : Type} {make : String → γ → Except String Registered} {entries : List (String × γ)}
  {before registry : Registry}

/-- What an entry is instantiated to. -/
def made (make : String → γ → Except String Registered) (entries : List (String × γ)) (name : String) :
    Option Registered :=
  (entries.lookup name).bind fun config => (make name config).toOption

theorem lookup_registerAll (registered : registerAll make entries before = .ok registry)
    (distinct : (entries.map Prod.fst).Nodup) (name : String) :
    registry.request.lookup name = ((made make entries name).bind Registered.asRequest <|> before.request.lookup name) ∧
      registry.response.lookup name = ((made make entries name).bind Registered.asResponse <|> before.response.lookup name) := by
  induction entries generalizing before with
  | nil =>
    cases registered
    exact ⟨rfl, rfl⟩
  | cons entry rest inductionHypothesis =>
    obtain ⟨key, config⟩ := entry
    rw [List.map_cons, List.nodup_cons] at distinct
    obtain ⟨interceptor, isMade, later⟩ := exists_of_bind_eq_ok registered
    obtain ⟨isRequest, isResponse⟩ := inductionHypothesis later distinct.2
    rw [isRequest, isResponse]
    by_cases same : name = key
    · subst same
      -- no later entry has this name
      have notLater : rest.lookup name = none := by
        rw [List.lookup_eq_none_iff]
        intro other member
        have different : name ≠ other.1 := fun equal => distinct.1 (List.mem_map.mpr ⟨other, member, equal.symm⟩)
        simpa using different
      have here : made make ((name, config) :: rest) name = some interceptor := by
        simp [made, isMade, Except.toOption]
      rw [here]
      cases interceptor <;> simp [made, notLater, Registry.insert, Registered.asRequest, Registered.asResponse]
    · have apart : (name == key) = false := by simpa using same
      have there : made make ((key, config) :: rest) name = made make rest name := by
        simp [made, List.lookup_cons, apart]
      rw [there]
      cases interceptor <;> simp [Registry.insert, List.lookup_cons, apart]

/-- The registry does not depend on the order of its entries. -/
theorem lookup_registerAll_perm {others : List (String × γ)} {other : Registry}
    (distinct : (entries.map Prod.fst).Nodup) (same : entries.Perm others)
    (registered : registerAll make entries {} = .ok registry) (alsoRegistered : registerAll make others {} = .ok other)
    (name : String) :
    other.request.lookup name = registry.request.lookup name ∧
      other.response.lookup name = registry.response.lookup name := by
  have alsoDistinct : (others.map Prod.fst).Nodup := (same.map Prod.fst).nodup_iff.mp distinct
  have sameMade : made make others name = made make entries name := by
    unfold made
    rw [lookup_eq_of_perm distinct same.symm]
  rw [(lookup_registerAll registered distinct name).1, (lookup_registerAll registered distinct name).2,
    (lookup_registerAll alsoRegistered alsoDistinct name).1,
    (lookup_registerAll alsoRegistered alsoDistinct name).2, sameMade]
  exact ⟨rfl, rfl⟩

/-- The last of some entries is any of them where all are alike. -/
theorem getLast?_map_of_perm {α β : Type} {items others : List α} (value : α → β) (same : items.Perm others)
    (alike : ∀ first ∈ items, ∀ second ∈ items, value first = value second) :
    (others.getLast?).map value = (items.getLast?).map value := by
  cases isLast : items.getLast? with
  | none =>
    rw [List.getLast?_eq_none_iff.mp isLast] at same
    rw [same.nil_eq.symm]
    rfl
  | some item =>
    cases alsoLast : others.getLast? with
    | none =>
      rw [List.getLast?_eq_none_iff.mp alsoLast] at same
      rw [same.eq_nil] at isLast
      cases isLast
    | some other =>
      have member := same.mem_iff.mpr (List.mem_of_getLast? alsoLast)
      exact congrArg some (alike _ member _ (List.mem_of_getLast? isLast))

/-- The pipelines that are kept do not depend on the order of the routes. -/
theorem lookup_keepPipelines_perm {α : Type} {pipelines others : List (String × List α)}
    (same : pipelines.Perm others)
    (alike : ∀ first ∈ pipelines, ∀ second ∈ pipelines, first.1 = second.1 → first.2 = second.2)
    (operation : String) :
    (keepPipelines others).lookup operation = (keepPipelines pipelines).lookup operation := by
  rw [lookup_keepPipelines, lookup_keepPipelines]
  refine getLast?_map_of_perm Prod.snd (same.filter _) fun first isFirst second isSecond => ?_
  have firstOf := List.mem_filter.mp isFirst
  have secondOf := List.mem_filter.mp isSecond
  have firstNamed : first.1 = operation ∧ first.2 ≠ [] := by simpa using firstOf.2
  have secondNamed : second.1 = operation ∧ second.2 ≠ [] := by simpa using secondOf.2
  exact alike _ firstOf.1 _ secondOf.1 (firstNamed.1.trans secondNamed.1.symm)

/-- Settings that list their maps in another order are built to managers that guard alike, if routes
    with one operation have the same interceptors. -/
theorem guardsAlike_of_perm {Program Evaluator Module : Type} (engines : Engines Program Evaluator Module)
    {settings listed : InterceptorSettings} {manager other : InterceptorManager}
    (keys : (settings.interceptors.map Prod.fst).Nodup)
    (interceptors : settings.interceptors.Perm listed.interceptors) (routes : settings.routes.Perm listed.routes)
    (rest : listed = { settings with interceptors := listed.interceptors, routes := listed.routes })
    (alike : ∀ route ∈ settings.routes, ∀ other ∈ settings.routes,
      route.2.operation = other.2.operation → route.2.interceptors = other.2.interceptors)
    (built : fromSpectraConfig engines settings = .ok manager)
    (alsoBuilt : fromSpectraConfig engines listed = .ok other) : GuardsAlike other manager := by
  have sameGlobals : listed.globalInterceptors = settings.globalInterceptors := by rw [rest]
  have sameWasm : listed.wasm = settings.wasm := by rw [rest]
  have sameToken : listed.deployToken = settings.deployToken := by rw [rest]
  have sameMake : ∀ evaluator, instantiate engines listed evaluator = instantiate engines settings evaluator := by
    intro evaluator
    funext name config
    unfold instantiate instantiateNative deployTokenOf
    rw [sameWasm, sameToken]
  have sameAny : (listed.interceptors.any fun entry => entry.2.interceptorType = .wasm) =
      settings.interceptors.any fun entry => entry.2.interceptorType = .wasm := interceptors.symm.any_eq
  have sameEvaluator : wasmEvaluator engines listed = wasmEvaluator engines settings := by
    unfold wasmEvaluator
    rw [sameAny, sameWasm]
  obtain ⟨evaluator, isEvaluator, accepted⟩ := exists_of_bind_eq_ok built
  obtain ⟨otherEvaluator, isOther, alsoAccepted⟩ := exists_of_bind_eq_ok alsoBuilt
  rw [sameEvaluator, isEvaluator] at isOther
  cases isOther
  rw [sameMake] at alsoAccepted
  obtain ⟨registry, registered, rfl⟩ := fromConfig_eq_ok accepted
  obtain ⟨otherRegistry, alsoRegistered, rfl⟩ := fromConfig_eq_ok alsoAccepted
  have sameLookups := lookup_registerAll_perm keys interceptors registered alsoRegistered
  have sameRequests : otherRegistry.requestGuards = registry.requestGuards := by
    funext names
    unfold Registry.requestGuards
    simp only [fun name => (sameLookups name).1]
  have sameResponses : otherRegistry.responseGuards = registry.responseGuards := by
    funext names
    unfold Registry.responseGuards
    simp only [fun name => (sameLookups name).1, fun name => (sameLookups name).2]
  have mapped {α : Type} (guards : List String → List α) :=
    lookup_keepPipelines_perm (routes.map fun route => (route.2.operation, guards route.2.interceptors))
      (by
        intro first isFirst second isSecond same
        obtain ⟨route, member, rfl⟩ := List.mem_map.mp isFirst
        obtain ⟨otherRoute, otherMember, rfl⟩ := List.mem_map.mp isSecond
        exact congrArg guards (alike route member otherRoute otherMember same))
  constructor
  · simp only [sameRequests, sameGlobals]
  · simp only [sameResponses, sameGlobals]
  · simpa only [sameRequests] using mapped registry.requestGuards
  · simpa only [sameResponses] using mapped registry.responseGuards

end Guards

end SpectraGQL.Interceptors
