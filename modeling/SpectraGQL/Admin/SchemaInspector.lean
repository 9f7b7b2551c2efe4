import SpectraGQL.Admin.Validation
import SpectraGQL.Protocol.Json

/-! # Schema coverage (`admin/schema_inspector.rs`)

The mutations of the upstream's schema are compared with the routes: which of them are answered with
a receipt, which go to a service of their own, and which routes are for mutations that the schema does
not have.  The admin engine makes the report from the route table that it was built with; hot reloads
replace the running configuration and leave the engine as it is (`engine_run`).
-/

namespace SpectraGQL.Admin

open SpectraGQL.Http SpectraGQL.Protocol SpectraGQL.Gateway

/-- The routes under their names, each with the names of its interceptors. -/
abbrev RouteTable := List (String × SpectraRouteConfig × List String)

/-! ## The report -/

inductive MutationClassification where
  | asyncReceipt | targetedService | configuredRoute | defaultUpstream
  deriving DecidableEq, Repr

def MutationClassification.toString : MutationClassification → String
  | .asyncReceipt => "AsyncReceipt"
  | .targetedService => "TargetedService"
  | .configuredRoute => "ConfiguredRoute"
  | .defaultUpstream => "DefaultUpstream"

structure AdminMutationCoverageEntry where
  fieldName : String
  classification : MutationClassification
  targetUpstream : Option String
  mode : Option String
  receiptStatus : Option String
  routeName : Option String
  dispatchPolicy : Option String
  isPolicyOverride : Option Bool
  deriving DecidableEq, Repr

/-- `coverage_percent`, the share of the asynchronous and the targeted mutations, is a float made of
    the counts. -/
structure AdminSchemaCoverageResponse where
  totalMutations : Nat
  asyncCount : Nat
  targetedCount : Nat
  defaultFallbackCount : Nat
  strangledCount : Nat
  modeBCount : Nat
  monolithFallbackCount : Nat
  driftCount : Nat
  mutations : List AdminMutationCoverageEntry
  driftedRoutes : List String
  lastRefreshedUtc : String
  deriving DecidableEq, Repr

/-! ## The schema -/

/-- `__schema`, under `data` if there is that. -/
def schemaRoot (introspection : Json) : Option Json :=
  match introspection.get "data" with
  | some data => data.get "__schema"
  | none => introspection.get "__schema"

def mutationFields (schema : Json) : List Json :=
  (((schema.get "mutationType").bind fun mutationType => mutationType.get "fields").bind Json.asArray).getD []

def mutationName (field : Json) : String := ((field.get "name").bind Json.asStr).getD ""

/-- The names of some fields; those without one are passed over. -/
def namesOf (fields : List Json) : List String := (fields.map mutationName).filter fun name => name ≠ ""

/-! ## Mutations -/

/-- `ModeADispatchPolicy::as_str`. -/
def policyText : ModeADispatchPolicy → String
  | .responseWithFailure => "response_with_failure"
  | .responseOnly => "response_only"
  | .rawAudit => "raw_audit"
  | .none => "none"

/-- The route whose operation is the name, letter by letter. -/
def findRoute (routes : RouteTable) (fieldName : String) : Option (String × SpectraRouteConfig × List String) :=
  routes.find? fun route => route.2.1.operation = fieldName

/-- An entry for a mutation that goes upstream over a route. -/
def syncEntry (fieldName routeName : String) (route : SpectraRouteConfig) (classification : MutationClassification)
    (target : String) : AdminMutationCoverageEntry where
  fieldName := fieldName
  classification := classification
  targetUpstream := some target
  mode := some "Sync"
  receiptStatus := none
  routeName := some routeName
  dispatchPolicy := route.dispatchPolicy.map policyText
  isPolicyOverride := some route.dispatchPolicy.isSome

/-- An entry for a mutation with a route, whether the route is enabled or not. -/
def routedEntry (fieldName routeName : String) (route : SpectraRouteConfig) : AdminMutationCoverageEntry :=
  match route.mode with
  | .asyncCommandReceipt =>
    { fieldName := fieldName, classification := .asyncReceipt, targetUpstream := none, mode := some "Async"
      receiptStatus := some route.receiptStatus, routeName := some routeName
      dispatchPolicy := some "event_sink", isPolicyOverride := some false }
  | .syncUpstreamExecution =>
    match route.upstream with
    | some upstream =>
      if upstream ≠ "default" then syncEntry fieldName routeName route .targetedService upstream
      else syncEntry fieldName routeName route .configuredRoute "default"
    | none => syncEntry fieldName routeName route .configuredRoute "default"

/-- An entry for a mutation without a route. -/
def unroutedEntry (fieldName : String) : AdminMutationCoverageEntry where
  fieldName := fieldName
  classification := .defaultUpstream
  targetUpstream := some "default"
  mode := some "Sync"
  receiptStatus := none
  routeName := none
  dispatchPolicy := none
  isPolicyOverride := some false

/-- What the loop over the mutations keeps. -/
structure CoverageScan where
  mutations : List AdminMutationCoverageEntry := []
  strangledCount : Nat := 0
  modeBCount : Nat := 0
  monolithFallbackCount : Nat := 0
  matchedRouteOps : List String := []

/-- A new entry; those of configured routes are not counted. -/
def CoverageScan.push (scan : CoverageScan) (entry : AdminMutationCoverageEntry) : CoverageScan :=
  let scan := { scan with mutations := scan.mutations ++ [entry] }
  match entry.classification with
  | .asyncReceipt => { scan with modeBCount := scan.modeBCount + 1 }
  | .targetedService => { scan with strangledCount := scan.strangledCount + 1 }
  | .configuredRoute => scan
  | .defaultUpstream => { scan with monolithFallbackCount := scan.monolithFallbackCount + 1 }

def scanField (routes : RouteTable) (scan : CoverageScan) (field : Json) : CoverageScan :=
  let fieldName := mutationName field
  if fieldName = "" then scan
  else
    match findRoute routes fieldName with
    | some (routeName, route, _) =>
      let scan := { scan with matchedRouteOps := fieldName :: scan.matchedRouteOps }
      scan.push (routedEntry fieldName routeName route)
    | none => scan.push (unroutedEntry fieldName)

/-! ## Routes -/

/-- Operations of the gateway itself are not looked for in the schema. -/
def isChassisOperation (route : SpectraRouteConfig) (interceptors : List String) : Bool :=
  interceptors.contains "deploy_guard" ||
    ["deployFluxcell", "activateFluxcell", "removeFluxcell"].contains route.operation

/-- A route that is in use, for an operation of which the schema knows nothing. -/
def isDrifted (matchedRouteOps : List String) (route : SpectraRouteConfig) (interceptors : List String) : Bool :=
  route.enabled && !isChassisOperation route interceptors && !matchedRouteOps.contains route.operation

def driftMessage (routeName operation : String) : String :=
  "Route '" ++ routeName ++ "' (operation: '" ++ operation ++ "') not found in upstream GraphQL schema"

/-- A schema without mutations says nothing about the routes. -/
def driftedRoutes (routes : RouteTable) (fields : List Json) (matchedRouteOps : List String) : List String :=
  (routes.filterMap fun (routeName, route, interceptors) =>
    if isDrifted matchedRouteOps route interceptors && !fields.isEmpty then
      some (driftMessage routeName route.operation)
    else none).mergeSort

def timestampText (nowSecs : Nat) : String :=
  let secs := String.ofList (Nat.toDigits 10 nowSecs)
  secs ++ " UTC (unix: " ++ secs ++ ")"

def analyzeMutationCoverage (introspection : Json) (routes : RouteTable) (nowSecs : Nat) :
    Except String AdminSchemaCoverageResponse :=
  match schemaRoot introspection with
  | none => .error "Missing '__schema' in introspection response"
  | some schema =>
    let fields := mutationFields schema
    let scan := fields.foldl (scanField routes) {}
    let drifted := driftedRoutes routes fields scan.matchedRouteOps
    .ok {
      totalMutations := scan.mutations.length
      asyncCount := scan.modeBCount
      targetedCount := scan.strangledCount
      defaultFallbackCount := scan.monolithFallbackCount
      strangledCount := scan.strangledCount
      modeBCount := scan.modeBCount
      monolithFallbackCount := scan.monolithFallbackCount
      driftCount := drifted.length
      mutations := scan.mutations
      driftedRoutes := drifted
      lastRefreshedUtc := timestampText nowSecs }

/-! ### What is in a report -/

/-- The entry that a mutation gets. -/
def coverageEntry (routes : RouteTable) (fieldName : String) : AdminMutationCoverageEntry :=
  match findRoute routes fieldName with
  | some (routeName, route, _) => routedEntry fieldName routeName route
  | none => unroutedEntry fieldName

section Scan

variable {routes : RouteTable}

@[simp] theorem fieldName_routedEntry (fieldName routeName : String) (route : SpectraRouteConfig) :
    (routedEntry fieldName routeName route).fieldName = fieldName := by
  unfold routedEntry
  split
  · rfl
  · split
    · split <;> rfl
    · rfl

@[simp] theorem fieldName_coverageEntry (routes : RouteTable) (fieldName : String) :
    (coverageEntry routes fieldName).fieldName = fieldName := by
  unfold coverageEntry
  split
  · exact fieldName_routedEntry ..
  · rfl

@[simp] theorem mutations_push (scan : CoverageScan) (entry : AdminMutationCoverageEntry) :
    (scan.push entry).mutations = scan.mutations ++ [entry] := by
  unfold CoverageScan.push
  dsimp only
  split <;> rfl

@[simp] theorem matchedRouteOps_push (scan : CoverageScan) (entry : AdminMutationCoverageEntry) :
    (scan.push entry).matchedRouteOps = scan.matchedRouteOps := by
  unfold CoverageScan.push
  dsimp only
  split <;> rfl

/-- One field of the schema: nothing happens, or its mutation gets its entry. -/
theorem scanField_cases (routes : RouteTable) (scan : CoverageScan) (field : Json) :
    (mutationName field = "" ∧ scanField routes scan field = scan) ∨
      (mutationName field ≠ "" ∧ ∃ matched,
        (∀ operation, operation ∈ matched ↔ operation ∈ scan.matchedRouteOps ∨
          (operation = mutationName field ∧ (findRoute routes operation).isSome)) ∧
        scanField routes scan field =
          { scan with matchedRouteOps := matched }.push (coverageEntry routes (mutationName field))) := by
  unfold scanField coverageEntry
  by_cases unnamed : mutationName field = ""
  · exact .inl ⟨unnamed, if_pos unnamed⟩
  · refine .inr ⟨unnamed, ?_⟩
    simp only [if_neg unnamed]
    cases found : findRoute routes (mutationName field) with
    | some route =>
      refine ⟨_, fun operation => ?_, rfl⟩
      constructor
      · intro member
        cases member with
        | head => exact .inr ⟨rfl, by rw [found]; rfl⟩
        | tail _ earlier => exact .inl earlier
      · rintro (earlier | ⟨rfl, _⟩)
        · exact .tail _ earlier
        · exact .head _
    | none =>
      refine ⟨scan.matchedRouteOps, fun operation => ?_, rfl⟩
      constructor
      · exact .inl
      · rintro (earlier | ⟨rfl, isRouted⟩)
        · exact earlier
        · rw [found] at isRouted
          cases isRouted

/-- The counters are right about the entries so far. -/
structure CoverageScan.Counted (scan : CoverageScan) : Prop where
  strangled : scan.strangledCount = scan.mutations.countP fun entry => entry.classification = .targetedService
  modeB : scan.modeBCount = scan.mutations.countP fun entry => entry.classification = .asyncReceipt
  monolithFallback :
    scan.monolithFallbackCount = scan.mutations.countP fun entry => entry.classification = .defaultUpstream

theorem CoverageScan.Counted.push {scan : CoverageScan} (counted : scan.Counted)
    (entry : AdminMutationCoverageEntry) : (scan.push entry).Counted := by
  obtain ⟨strangled, modeB, monolithFallback⟩ := counted
  cases kind : entry.classification <;>
    constructor <;> simp [CoverageScan.push, kind, List.countP_append, strangled, modeB, monolithFallback]

/-- What the loop has, after some fields. -/
structure CoverageScan.After (routes : RouteTable) (fields : List Json) (scan : CoverageScan) : Prop where
  entries : scan.mutations = (namesOf fields).map (coverageEntry routes)
  matched : ∀ operation, operation ∈ scan.matchedRouteOps ↔
    operation ∈ namesOf fields ∧ (findRoute routes operation).isSome
  counted : scan.Counted

theorem namesOf_concat (fields : List Json) (field : Json) :
    namesOf (fields ++ [field]) =
      namesOf fields ++ if mutationName field = "" then [] else [mutationName field] := by
  unfold namesOf
  rw [List.map_append, List.filter_append]
  by_cases unnamed : mutationName field = "" <;> simp [unnamed]

theorem CoverageScan.After.step {fields : List Json} {scan : CoverageScan} (after : scan.After routes fields)
    (field : Json) : (scanField routes scan field).After routes (fields ++ [field]) := by
  obtain ⟨entries, matched, counted⟩ := after
  rcases scanField_cases routes scan field with ⟨unnamed, same⟩ | ⟨named, operations, isMatched, pushed⟩
  · rw [same]
    refine ⟨?_, ?_, counted⟩
    · simpa [namesOf_concat, unnamed] using entries
    · simpa [namesOf_concat, unnamed] using matched
  · -- the counters do not look at the operations
    have recounted : CoverageScan.Counted { scan with matchedRouteOps := operations } :=
      ⟨counted.strangled, counted.modeB, counted.monolithFallback⟩
    rw [pushed]
    refine ⟨?_, fun operation => ?_, recounted.push _⟩
    · simp [namesOf_concat, named, entries]
    · rw [matchedRouteOps_push, isMatched, matched, namesOf_concat, if_neg named, List.mem_append,
        List.mem_singleton, or_and_right]

theorem after_scan (routes : RouteTable) (fields : List Json) :
    (fields.foldl (scanField routes) {}).After routes fields := by
  induction fields using List.reverseRecOn with
  | nil => exact ⟨rfl, by simp [namesOf], ⟨rfl, rfl, rfl⟩⟩
  | append_singleton fields field inductionHypothesis =>
    rw [List.foldl_append]
    exact inductionHypothesis.step field

end Scan

/-- All that a report says of the schema and the routes. -/
structure AdminSchemaCoverageResponse.Describes (report : AdminSchemaCoverageResponse) (routes : RouteTable)
    (schema : Json) : Prop where
  /-- Every mutation with a name has its entry, in the order of the schema. -/
  entries : report.mutations = (namesOf (mutationFields schema)).map (coverageEntry routes)
  total : report.totalMutations = report.mutations.length
  /-- The mutations that are not counted have a route of the default upstream. -/
  counts : report.asyncCount + report.targetedCount + report.defaultFallbackCount +
    (report.mutations.countP fun entry => entry.classification = .configuredRoute) = report.totalMutations
  /-- A route has drifted if it is in use and the schema does not have its operation. -/
  drifted : ∀ text, text ∈ report.driftedRoutes ↔
    mutationFields schema ≠ [] ∧ ∃ routeName route interceptors, (routeName, route, interceptors) ∈ routes ∧
      route.enabled = true ∧ isChassisOperation route interceptors = false ∧
      route.operation ∉ namesOf (mutationFields schema) ∧ text = driftMessage routeName route.operation
  driftCount : report.driftCount = report.driftedRoutes.length

theorem findRoute_isSome {routes : RouteTable} {routeName : String} {route : SpectraRouteConfig}
    {interceptors : List String} (member : (routeName, route, interceptors) ∈ routes) :
    (findRoute routes route.operation).isSome := by
  rw [findRoute, List.find?_isSome]
  exact ⟨_, member, by simp⟩

/-- An operation of a route was matched if the schema has it. -/
theorem isDrifted_iff {routes : RouteTable} {fields : List Json} {scan : CoverageScan}
    (after : scan.After routes fields) {routeName : String} {route : SpectraRouteConfig} {interceptors : List String}
    (member : (routeName, route, interceptors) ∈ routes) :
    isDrifted scan.matchedRouteOps route interceptors = true ↔
      route.enabled = true ∧ isChassisOperation route interceptors = false ∧ route.operation ∉ namesOf fields := by
  have known : scan.matchedRouteOps.contains route.operation = true ↔ route.operation ∈ namesOf fields := by
    rw [List.contains_iff_mem, after.matched]
    exact and_iff_left (findRoute_isSome member)
  simp only [isDrifted, Bool.and_eq_true, Bool.not_eq_true', and_assoc, ← known, Bool.not_eq_true]

theorem countP_classifications (entries : List AdminMutationCoverageEntry) :
    (entries.countP fun entry => entry.classification = .asyncReceipt) +
      (entries.countP fun entry => entry.classification = .targetedService) +
      (entries.countP fun entry => entry.classification = .defaultUpstream) +
      (entries.countP fun entry => entry.classification = .configuredRoute) = entries.length := by
  induction entries with
  | nil => rfl
  | cons entry rest inductionHypothesis =>
    cases kind : entry.classification <;> simp [kind] <;> omega

theorem analyzeMutationCoverage_describes {introspection schema : Json} (isSchema : schemaRoot introspection = some schema)
    (routes : RouteTable) (nowSecs : Nat) :
    ∃ report, analyzeMutationCoverage introspection routes nowSecs = .ok report ∧ report.Describes routes schema := by
  have after := after_scan routes (mutationFields schema)
  unfold analyzeMutationCoverage
  rw [isSchema]
  refine ⟨_, rfl, after.entries, rfl, ?_, ?_, rfl⟩
  · dsimp only
    rw [after.counted.modeB, after.counted.strangled, after.counted.monolithFallback]
    exact countP_classifications _
  · intro text
    simp only [driftedRoutes, List.mem_mergeSort, List.mem_filterMap]
    constructor
    · rintro ⟨⟨routeName, route, interceptors⟩, member, isText⟩
      dsimp only at isText
      split at isText
      · rename_i reported
        obtain ⟨drifted, hasFields⟩ := Bool.and_eq_true_iff.mp reported
        obtain ⟨enabled, notChassis, unknown⟩ := (isDrifted_iff after member).mp drifted
        exact ⟨by simpa using hasFields, routeName, route, interceptors, member, enabled, notChassis, unknown,
          (Option.some.inj isText).symm⟩
      · cases isText
    · rintro ⟨hasFields, routeName, route, interceptors, member, enabled, notChassis, unknown, rfl⟩
      have drifted := (isDrifted_iff after member).mpr ⟨enabled, notChassis, unknown⟩
      exact ⟨_, member, by simp [drifted, hasFields]⟩

/-! ## The inspector -/

/-- What comes back from the upstream. -/
inductive IntrospectionAnswer where
  | unreachable (error : String)
  /-- The body may break off. -/
  | response (status : StatusCode) (body : Except String Bytes)

structure InspectorCrates where
  /-- `serde_json::from_slice`. -/
  fromSlice : Bytes → Except String Json
  /-- The code and its reason. -/
  statusText : StatusCode → String

/-- The part of `refresh` that asks the upstream. -/
def introspect (crates : InspectorCrates) (upstreamUrl : String) : IntrospectionAnswer → Except String Json
  | .unreachable error => .error ("Upstream HTTP request failed to '" ++ upstreamUrl ++ "': " ++ error)
  | .response status body =>
    if status.isSuccess then
      match body with
      | .error error => .error ("Failed to read introspection response from upstream: " ++ error)
      | .ok bytes =>
        match crates.fromSlice bytes with
        | .error error => .error ("Failed to parse JSON introspection from upstream: " ++ error)
        | .ok json => .ok json
    else .error ("Upstream responded with HTTP " ++ crates.statusText status ++ " during introspection")

structure SchemaInspector where
  cachedCoverage : Option AdminSchemaCoverageResponse

/-- A report that fails leaves the one that is cached. -/
def SchemaInspector.refresh (crates : InspectorCrates) (inspector : SchemaInspector) (upstreamUrl : String)
    (routes : RouteTable) (nowSecs : Nat) (answer : IntrospectionAnswer) :
    Except String AdminSchemaCoverageResponse × SchemaInspector :=
  match (introspect crates upstreamUrl answer).bind fun json => analyzeMutationCoverage json routes nowSecs with
  | .ok coverage => (.ok coverage, ⟨some coverage⟩)
  | .error error => (.error error, inspector)

/-! ## The engine -/

/-- What the admin engine reads for a report: `default_upstream_addr` and `routes`. -/
structure ReportingEngine where
  defaultUpstreamAddr : String
  routes : RouteTable

/-- The routes are those that the gateway is started with. -/
def ReportingEngine.new (config : SpectraConfig) : ReportingEngine :=
  ⟨config.boot.gqlUpstream.addr, config.routes⟩

inductive SchemaAnswer where
  | coverage (report : AdminSchemaCoverageResponse)
  | failure (status : UInt16) (body : Json)

namespace ReportingEngine

def upstreamUrl (engine : ReportingEngine) : String := "http://" ++ engine.defaultUpstreamAddr ++ "/graphql"

def handleSchemaRefresh (crates : InspectorCrates) (engine : ReportingEngine) (inspector : SchemaInspector)
    (nowSecs : Nat) (answer : IntrospectionAnswer) : SchemaAnswer × SchemaInspector :=
  match inspector.refresh crates engine.upstreamUrl engine.routes nowSecs answer with
  | (.ok coverage, inspector) => (.coverage coverage, inspector)
  | (.error error, inspector) =>
    (.failure 502 (Json.ofMembers [("error", .string "Introspection Refresh Failed"), ("details", .string error),
      ("upstream_url", .string engine.upstreamUrl)]), inspector)

/-- The upstream is asked only as long as there is no report. -/
def handleSchema (crates : InspectorCrates) (engine : ReportingEngine) (inspector : SchemaInspector)
    (nowSecs : Nat) (answer : IntrospectionAnswer) : SchemaAnswer × SchemaInspector :=
  match inspector.cachedCoverage with
  | some coverage => (.coverage coverage, inspector)
  | none =>
    match inspector.refresh crates engine.upstreamUrl engine.routes nowSecs answer with
    | (.ok coverage, inspector) => (.coverage coverage, inspector)
    | (.error error, inspector) =>
      (.failure 502 (Json.ofMembers [("error", .string "Upstream Introspection Unavailable"),
        ("details", .string error), ("upstream_url", .string engine.upstreamUrl),
        ("suggestion", .string "Ensure the upstream GraphQL service is running and accessible.")]), inspector)

end ReportingEngine

/-! ## Hot reloads and reports -/

/-- A gateway as an administrator finds it. -/
structure AdminConsole where
  engine : ReportingEngine
  store : AdminStore
  inspector : SchemaInspector

/-- One request to the admin engine. -/
inductive ConsoleEvent where
  | job (job : AdminJob SpectraConfig)
  | schema (nowSecs : Nat) (answer : IntrospectionAnswer)
  | schemaRefresh (nowSecs : Nat) (answer : IntrospectionAnswer)

namespace AdminConsole

/-- Updates, reloads and rescans change the running configuration, the reports what is cached. -/
def step (texts : ConfigTexts) (crates : InspectorCrates) (console : AdminConsole) : ConsoleEvent → AdminConsole
  | .job job => { console with store := ((job.program texts.crates).interp workingStore console.store).2 }
  | .schema nowSecs answer =>
    { console with inspector := (console.engine.handleSchema crates console.inspector nowSecs answer).2 }
  | .schemaRefresh nowSecs answer =>
    { console with inspector := (console.engine.handleSchemaRefresh crates console.inspector nowSecs answer).2 }

def run (texts : ConfigTexts) (crates : InspectorCrates) (console : AdminConsole) (events : List ConsoleEvent) :
    AdminConsole :=
  events.foldl (step texts crates) console

variable {texts : ConfigTexts} {crates : InspectorCrates}

/-- Nothing that is asked of the engine changes its routes. -/
theorem engine_run (events : List ConsoleEvent) (console : AdminConsole) :
    (run texts crates console events).engine = console.engine := by
  induction events generalizing console with
  | nil => rfl
  | cons event rest inductionHypothesis =>
    refine (inductionHypothesis (step texts crates console event)).trans ?_
    cases event with
    | job job => rfl
    | schema nowSecs answer => rfl
    | schemaRefresh nowSecs answer => rfl

end AdminConsole

end SpectraGQL.Admin
