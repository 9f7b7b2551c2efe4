import Mathlib.Data.List.Find
import SpectraGQL.Admin.SchemaInspector
import SpectraGQL.Gateway.Forwarding

/-! # What a report says and what the router does

A report is made from the routes that the gateway was started with, and finds a route only if its
operation is spelled as in the schema.  The router goes by the running configuration, ignores the case
of letters, and refuses a route that is disabled.  `coverage_agrees_iff` says for which tables the two
come to the same.
-/

namespace SpectraGQL.Admin

open Interaction SpectraGQL.Http SpectraGQL.Protocol SpectraGQL.Gateway

/-! ## The router -/

/-- An anonymous mutation that selects one field. -/
def SelectsOnly (info : RequestInfo) (field : String) : Prop :=
  ∃ gql, info.gql = some gql ∧ gql.operationType = .mutation ∧ gql.operationName = none ∧
    gql.rootFields = [field]

/-- The route of such a mutation. -/
def runningRoute (routes : List SpectraRouteConfig) (field : String) : Option SpectraRouteConfig :=
  routes.find? fun route => eqIgnoreAsciiCase field route.operation

theorem matchRoute_of_selectsOnly {info : RequestInfo} {field : String} (selects : SelectsOnly info field)
    (routes : List SpectraRouteConfig) : StrategyRouter.matchRoute routes info = runningRoute routes field := by
  obtain ⟨gql, isGql, _, anonymous, single⟩ := selects
  simp [StrategyRouter.matchRoute, runningRoute, isGql, GraphQLRequestInfo.matchesOperation, anonymous, single]

/-- The upstream that a route is for, if there is one and it is not the default one. -/
def ownUpstream (dynamic : DynamicGatewayState) (route : SpectraRouteConfig) : Option SocketAddr :=
  (route.upstream.filter fun name => name ≠ "default").bind fun name => dynamic.namedUpstreams.lookup name

theorem resolveModeAUpstream_of_own {dynamic : DynamicGatewayState} {route : SpectraRouteConfig} {addr : SocketAddr}
    (own : ownUpstream dynamic route = some addr) :
    StrategyRouter.resolveModeAUpstream route dynamic.namedUpstreams = some addr := by
  obtain ⟨name, isName, known⟩ := Option.bind_eq_some_iff.mp own
  rw [StrategyRouter.resolveModeAUpstream, (Option.filter_eq_some_iff.mp isName).1]
  exact known

/-- How the request filter ends for a request, by its route. -/
def routeOutcome (dynamic : DynamicGatewayState) (exchange : Exchange) : Option SpectraRouteConfig → Outcome
  | none => ⟨.ok false, exchange⟩
  | some route =>
    if !route.enabled then ⟨.ok true, exchange⟩
    else if route.mode.isAsyncEdgeCommand then
      ⟨.ok true, { exchange with ctx := { exchange.ctx with isModeBTerminated := true } }⟩
    else ⟨.ok false, overrideRoute dynamic exchange route⟩

theorem routeRequest_returns (proxy : CompositeServiceProxy) (dynamic : DynamicGatewayState) (exchange : Exchange)
    (info : RequestInfo) : (routeRequest proxy dynamic exchange info).Returns fun outcome =>
      outcome = routeOutcome dynamic exchange (StrategyRouter.matchRoute dynamic.routes info) := by
  unfold routeRequest routeOutcome
  cases StrategyRouter.matchRoute dynamic.routes info with
  | none => exact forward_returns proxy exchange info
  | some route =>
    dsimp only
    split
    · exact refuseDisabled_returns exchange info route
    · split
      · exact (handleModeBEdge_returns proxy exchange route info).bind fun after same =>
          (Prog.returns_true _).bind fun _ _ => Prog.Returns.ret (by rw [same])
      · exact forward_returns proxy _ info

/-- A request is served in the way that a classification names. -/
inductive ServedAs (dynamic : DynamicGatewayState) (exchange : Exchange) (info : RequestInfo) :
    MutationClassification → Outcome → Prop where
  /-- The gateway has answered it with a receipt. -/
  | asyncReceipt (after : Exchange) (terminated : after.ctx.isModeBTerminated = true) :
      ServedAs dynamic exchange info .asyncReceipt ⟨.ok true, after⟩
  /-- It goes to the upstream of its route. -/
  | targetedService (route : SpectraRouteConfig) (addr : SocketAddr) (after : Exchange)
      (isRoute : StrategyRouter.matchRoute dynamic.routes info = some route)
      (own : ownUpstream dynamic route = some addr) (goes : after.ctx.targetUpstreamAddr = some addr) :
      ServedAs dynamic exchange info .targetedService ⟨.ok false, after⟩
  /-- It has a route, but none to another upstream. -/
  | configuredRoute (route : SpectraRouteConfig) (after : Exchange)
      (isRoute : StrategyRouter.matchRoute dynamic.routes info = some route)
      (shared : ownUpstream dynamic route = none) :
      ServedAs dynamic exchange info .configuredRoute ⟨.ok false, after⟩
  /-- It goes on as it has come. -/
  | defaultUpstream (noRoute : StrategyRouter.matchRoute dynamic.routes info = none) :
      ServedAs dynamic exchange info .defaultUpstream ⟨.ok false, exchange⟩

/-- How the router serves a request, if it does. -/
def handling (dynamic : DynamicGatewayState) : Option SpectraRouteConfig → Option MutationClassification
  | none => some .defaultUpstream
  | some route =>
    if !route.enabled then none
    else if route.mode.isAsyncEdgeCommand then some .asyncReceipt
    else if (ownUpstream dynamic route).isSome then some .targetedService
    else some .configuredRoute

theorem servedAs_of_handling {dynamic : DynamicGatewayState} {exchange : Exchange} {info : RequestInfo}
    {classification : MutationClassification}
    (handled : handling dynamic (StrategyRouter.matchRoute dynamic.routes info) = some classification) :
    ServedAs dynamic exchange info classification
      (routeOutcome dynamic exchange (StrategyRouter.matchRoute dynamic.routes info)) := by
  cases isRoute : StrategyRouter.matchRoute dynamic.routes info with
  | none =>
    rw [isRoute] at handled
    cases handled
    exact .defaultUpstream isRoute
  | some route =>
    rw [isRoute, handling] at handled
    rw [routeOutcome]
    split at handled
    · cases handled
    · rename_i enabled
      rw [if_neg enabled]
      split at handled
      · rename_i async
        cases handled
        rw [if_pos async]
        exact .asyncReceipt _ rfl
      · rename_i sync
        rw [if_neg sync]
        cases own : ownUpstream dynamic route with
        | some addr =>
          rw [own] at handled
          cases handled
          refine .targetedService route addr _ isRoute own ?_
          show (StrategyRouter.resolveModeAUpstream route dynamic.namedUpstreams <|> _) = some addr
          rw [resolveModeAUpstream_of_own own]
          rfl
        | none =>
          rw [own] at handled
          cases handled
          exact .configuredRoute route _ isRoute own

theorem handling_of_servedAs {dynamic : DynamicGatewayState} {exchange : Exchange} {info : RequestInfo}
    (notTerminated : exchange.ctx.isModeBTerminated = false) {classification : MutationClassification}
    (served : ServedAs dynamic exchange info classification
      (routeOutcome dynamic exchange (StrategyRouter.matchRoute dynamic.routes info))) :
    handling dynamic (StrategyRouter.matchRoute dynamic.routes info) = some classification := by
  generalize isOutcome :
    routeOutcome dynamic exchange (StrategyRouter.matchRoute dynamic.routes info) = outcome at served
  cases isRoute : StrategyRouter.matchRoute dynamic.routes info with
  | none =>
    rw [isRoute, routeOutcome] at isOutcome
    cases served with
    | asyncReceipt => cases isOutcome
    | targetedService _ _ _ isOther | configuredRoute _ _ isOther => cases isRoute.symm.trans isOther
    | defaultUpstream => rfl
  | some route =>
    rw [isRoute, routeOutcome] at isOutcome
    rw [handling]
    split at isOutcome
    · -- the exchange of a refused request is as it was
      cases isOutcome
      cases served with
      | asyncReceipt _ terminated => cases notTerminated.symm.trans terminated
    · rename_i enabled
      rw [if_neg enabled]
      split at isOutcome
      · rename_i async
        rw [if_pos async]
        cases isOutcome
        cases served with
        | asyncReceipt => rfl
      · rename_i sync
        rw [if_neg sync]
        cases served with
        | asyncReceipt => cases isOutcome
        | targetedService _ _ _ isOther own =>
          cases isRoute.symm.trans isOther
          simp [own]
        | configuredRoute _ _ isOther shared =>
          cases isRoute.symm.trans isOther
          simp [shared]
        | defaultUpstream noRoute => cases isRoute.symm.trans noRoute

/-! ## Agreement -/

/-- An entry says what the router does, with every request that is a mutation of its field alone. -/
def RoutedAsReported (dynamic : DynamicGatewayState) (entry : AdminMutationCoverageEntry) : Prop :=
  ∀ proxy environment world exchange info, SelectsOnly info entry.fieldName →
    exchange.ctx.isModeBTerminated = false →
      ServedAs dynamic exchange info entry.classification
        (run environment (routeRequest proxy dynamic exchange info) world).1

/-- `mutation { field }`. -/
def mutationOf (field : String) : RequestInfo where
  requestId := "0190163d-8694-739b-aea5-966c26f8ad91"
  hlc := ⟨1000, 0⟩
  http := ⟨.post, ⟨"", "/graphql", none⟩, []⟩
  gql := some ⟨.mutation, none, [field], none, .null, none⟩

theorem routedAsReported_iff {dynamic : DynamicGatewayState} {entry : AdminMutationCoverageEntry} :
    RoutedAsReported dynamic entry ↔
      handling dynamic (runningRoute dynamic.routes entry.fieldName) = some entry.classification := by
  have outcome (proxy : CompositeServiceProxy) (environment : Environment) (world : World) (exchange : Exchange)
      (info : RequestInfo) := (routeRequest_returns proxy dynamic exchange info).interp (handle environment) world
  constructor
  · intro routed
    have selects : SelectsOnly (mutationOf entry.fieldName) entry.fieldName := ⟨_, rfl, rfl, rfl, rfl⟩
    let arrival := smallArrival .post [] payBody
    have served := routed smallProxy obliging ⟨fun _ => none, []⟩ (arrival.exchange dynamic) _ selects rfl
    rw [run, outcome] at served
    rw [← matchRoute_of_selectsOnly selects]
    exact handling_of_servedAs rfl served
  · intro handled proxy environment world exchange info selects _
    rw [← matchRoute_of_selectsOnly selects] at handled
    rw [run, outcome]
    exact servedAs_of_handling handled

/-- A route that names an upstream, and not the default one. -/
def namesOther (route : SpectraRouteConfig) : Bool := route.upstream.any fun name => name ≠ "default"

/-- The route that a report has found and the one that the router takes come to the same. -/
def SameHandling (dynamic : DynamicGatewayState) : Option SpectraRouteConfig → Option SpectraRouteConfig → Prop
  | none, none => True
  | some reported, some route =>
    route.enabled = true ∧ reported.mode = route.mode ∧
      (route.mode = .syncUpstreamExecution → namesOther reported = (ownUpstream dynamic route).isSome)
  | none, some _ | some _, none => False

instance (dynamic : DynamicGatewayState) (reported running : Option SpectraRouteConfig) :
    Decidable (SameHandling dynamic reported running) :=
  match reported, running with
  | none, none => .isTrue trivial
  | some _, some _ => inferInstanceAs (Decidable (_ ∧ _ ∧ (_ → _)))
  | none, some _ | some _, none => .isFalse id

/-- What a report says of a mutation, by the route that it has found. -/
def reportedAs : Option SpectraRouteConfig → MutationClassification
  | none => .defaultUpstream
  | some route =>
    if route.mode.isAsyncEdgeCommand then .asyncReceipt
    else if namesOther route then .targetedService
    else .configuredRoute

theorem classification_routedEntry (fieldName routeName : String) (route : SpectraRouteConfig) :
    (routedEntry fieldName routeName route).classification = reportedAs (some route) := by
  unfold routedEntry reportedAs namesOther
  dsimp only
  cases route.mode with
  | asyncCommandReceipt => rfl
  | syncUpstreamExecution =>
    cases route.upstream with
    | none => rfl
    | some upstream =>
      by_cases isDefault : upstream = "default" <;>
        simp [ExecutionStrategy.isAsyncEdgeCommand, syncEntry, isDefault]

theorem classification_coverageEntry (routes : RouteTable) (name : String) :
    (coverageEntry routes name).classification =
      reportedAs ((findRoute routes name).map fun route => route.2.1) := by
  unfold coverageEntry
  cases findRoute routes name with
  | none => rfl
  | some found => exact classification_routedEntry ..

theorem handling_reportedAs_iff {dynamic : DynamicGatewayState} {reported running : Option SpectraRouteConfig} :
    handling dynamic running = some (reportedAs reported) ↔ SameHandling dynamic reported running := by
  cases reported with
  | none =>
    cases running with
    | none => simp [handling, reportedAs, SameHandling]
    | some route =>
      simp only [handling, reportedAs, SameHandling, ExecutionStrategy.isAsyncEdgeCommand]
      cases route.enabled <;> cases route.mode <;> cases (ownUpstream dynamic route).isSome <;> simp
  | some reported =>
    cases running with
    | none =>
      simp only [handling, reportedAs, SameHandling, ExecutionStrategy.isAsyncEdgeCommand]
      cases reported.mode <;> cases namesOther reported <;> simp
    | some route =>
      simp only [handling, reportedAs, SameHandling, ExecutionStrategy.isAsyncEdgeCommand]
      cases route.enabled <;> cases route.mode <;> cases reported.mode <;>
        cases (ownUpstream dynamic route).isSome <;> cases namesOther reported <;> simp

/-- The entry of a mutation agrees with the router exactly if the routes of the two come to the same. -/
theorem routedAsReported_coverageEntry_iff {dynamic : DynamicGatewayState} {routes : RouteTable} {name : String} :
    RoutedAsReported dynamic (coverageEntry routes name) ↔
      SameHandling dynamic ((findRoute routes name).map fun route => route.2.1)
        (runningRoute dynamic.routes name) := by
  rw [routedAsReported_iff, fieldName_coverageEntry, classification_coverageEntry]
  exact handling_reportedAs_iff

/-- A report that the upstream has answered for. -/
theorem handleSchemaRefresh_eq {crates : InspectorCrates} {engine : ReportingEngine} {inspector : SchemaInspector}
    {answer : IntrospectionAnswer} {introspection : Json} {nowSecs : Nat} {report : AdminSchemaCoverageResponse}
    (answered : introspect crates engine.upstreamUrl answer = .ok introspection)
    (analyzed : analyzeMutationCoverage introspection engine.routes nowSecs = .ok report) :
    engine.handleSchemaRefresh crates inspector nowSecs answer = (.coverage report, ⟨some report⟩) := by
  unfold ReportingEngine.handleSchemaRefresh SchemaInspector.refresh
  rw [answered, Except.bind, analyzed]

/-- Whatever was reloaded before, a report agrees with the router exactly if, for every mutation of the
    schema, the route that the gateway was started with and the one that it runs with come to the same. -/
theorem coverage_agrees_iff (texts : ConfigTexts) (crates : InspectorCrates) (start : AdminConsole)
    (events : List ConsoleEvent) (nowSecs : Nat) (answer : IntrospectionAnswer) (introspection schema : Json)
    (answered : introspect crates start.engine.upstreamUrl answer = .ok introspection)
    (isSchema : schemaRoot introspection = some schema) :
    ∃ report,
      ((start.run texts crates events).engine.handleSchemaRefresh crates (start.run texts crates events).inspector
        nowSecs answer).1 = .coverage report ∧
      ((∀ entry ∈ report.mutations,
          RoutedAsReported (start.run texts crates events).store.state.toDynamicGatewayState entry) ↔
        ∀ name ∈ namesOf (mutationFields schema),
          SameHandling (start.run texts crates events).store.state.toDynamicGatewayState
            ((findRoute start.engine.routes name).map fun route => route.2.1)
            (runningRoute (start.run texts crates events).store.state.routes name)) := by
  rw [AdminConsole.engine_run]
  obtain ⟨report, analyzed, describes⟩ := analyzeMutationCoverage_describes isSchema start.engine.routes nowSecs
  refine ⟨report, congrArg Prod.fst (handleSchemaRefresh_eq answered analyzed), ?_⟩
  rw [describes.entries, List.forall_mem_map]
  simp only [routedAsReported_coverageEntry_iff]

/-! ### As started -/

/-- Where the router has what the report has, nothing is disabled or unknown, and operations are spelled
    as in the schema, there is nothing to disagree about. -/
theorem sameHandling_of_same {dynamic : DynamicGatewayState} {routes : RouteTable} {name : String}
    (same : dynamic.routes = routes.map fun route => route.2.1)
    (enabled : ∀ route ∈ dynamic.routes, route.enabled = true)
    (known : ∀ route ∈ dynamic.routes, namesOther route = (ownUpstream dynamic route).isSome)
    (spelled : ∀ route ∈ dynamic.routes, eqIgnoreAsciiCase name route.operation = true → route.operation = name) :
    SameHandling dynamic ((findRoute routes name).map fun route => route.2.1) (runningRoute dynamic.routes name) := by
  have found : (findRoute routes name).map (fun route => route.2.1) = runningRoute dynamic.routes name := by
    rw [runningRoute, same, findRoute, List.find?_map]
    refine congrArg (Option.map _) (List.find?_congr fun route member => ?_)
    have isRoute : route.2.1 ∈ dynamic.routes := by
      rw [same]
      exact List.mem_map_of_mem member
    rw [Bool.eq_iff_iff, decide_eq_true_iff]
    constructor
    · rintro rfl
      simp [eqIgnoreAsciiCase]
    · exact spelled _ isRoute
  rw [found]
  cases isRunning : runningRoute dynamic.routes name with
  | none => trivial
  | some route =>
    have member := List.mem_of_find?_eq_some isRunning
    exact ⟨enabled route member, rfl, fun _ => known route member⟩

/-! ### The stages before -/

section Stages

variable {proxy : CompositeServiceProxy} {dynamic : DynamicGatewayState} {environment : Environment}
  {world : World} {exchange : Exchange} {info : RequestInfo} {body : String}

/-- A request whose fingerprint is free, if it needs one, comes to the routes. -/
theorem run_afterPipeline_of_free {request : Exchange × String}
    (free : needsFingerprint request.1 info = true →
      world.engine (fingerprint proxy request.1 info request.2) = none) :
    ∃ key after, run environment (afterPipeline proxy dynamic info request) world =
      run environment (routeRequest proxy dynamic (request.1.setKey key) info) after := by
  unfold afterPipeline
  rw [claimFingerprint_eq]
  cases needs : needsFingerprint request.1 info with
  | false => exact ⟨request.1.ctx.idempotencyKey, world, rfl⟩
  | true =>
    let key := fingerprint proxy request.1 info request.2
    refine ⟨some key, world.lock key request.1.ctx.hlc, ?_⟩
    rw [if_pos rfl, run_andThen, run_claim_of_free (free needs)]

/-- What agrees with the router holds of the whole way from the decoded request on, once the pipeline
    has accepted it. -/
theorem servedAs_filterDecoded {entry : AdminMutationCoverageEntry} (routed : RoutedAsReported dynamic entry)
    (selects : SelectsOnly info entry.fieldName) (notTerminated : exchange.ctx.isModeBTerminated = false)
    (accepts : (pipelineVerdict dynamic exchange info body).isReject = false)
    (free : ∀ current text, world.engine (fingerprint proxy current info text) = none) :
    ∃ passed, passed.ctx.targetUpstreamAddr = exchange.ctx.targetUpstreamAddr ∧
      ServedAs dynamic passed info entry.classification
        (run environment (filterDecoded proxy dynamic exchange info body) world).1 := by
  obtain ⟨events, _, _, ran⟩ := run_filterDecoded environment world proxy accepts
  generalize isPassed : accepted (noteRequest dynamic exchange info body) body
    (pipelineVerdict dynamic exchange info body) = passed at ran
  have untouched : passed.1.ctx.isModeBTerminated = exchange.ctx.isModeBTerminated ∧
      passed.1.ctx.targetUpstreamAddr = exchange.ctx.targetUpstreamAddr := by
    subst isPassed
    cases pipelineVerdict dynamic exchange info body with
    | transform headers newBody => cases newBody <;> exact ⟨rfl, rfl⟩
    | pass | audit _ _ _ | reject _ => exact ⟨rfl, rfl⟩
  obtain ⟨key, after, came⟩ := @run_afterPipeline_of_free proxy dynamic environment
    ⟨world.engine, world.trace ++ events⟩ info passed fun _ => free _ _
  have served := routed proxy environment after (passed.1.setKey key) info selects
    (untouched.1.trans notTerminated)
  rw [ran, came]
  exact ⟨passed.1.setKey key, untouched.2, served⟩

end Stages

/-! ## Payments -/

/-- A payment is answered with a receipt, as long as it is enabled. -/
def payConfig (enabled : Bool) : SpectraConfig where
  boot := hostSettings apiHost
  dispatchPolicy := .none
  errorCapture := ⟨true, 4096⟩
  routes := [("pay", ⟨"pay", .asyncCommandReceipt, enabled, none, "ACCEPTED", none⟩, [])]

/-- A configuration in which payments are disabled. -/
def payTexts : ConfigTexts where
  updateRequest _ := none
  validateRequest _ := none
  fromTomlStr _ := .ok (payConfig false)
  sha256 _ := ""

def paySchema : Json := .object [("mutationType", .object [("fields", .array [.object [("name", .string "pay")]])])]

def payInspector : InspectorCrates := ⟨fun _ => .ok (.object [("__schema", paySchema)]), fun _ => ""⟩

def payConsole : AdminConsole where
  engine := .new (payConfig true)
  store :=
    { state :=
        { smallDynamic [] [⟨"pay", .asyncCommandReceipt, true, none, "ACCEPTED", none⟩] with
          upstreamTargets := [], rawConfig := "", version := 1, updatedAtEpochMs := 0, configHash := "" }
      persisted := none }
  inspector := ⟨none⟩

theorem coverage_agrees_iff_pay : ∃ report,
    ((payConsole.run payTexts payInspector []).engine.handleSchemaRefresh payInspector
      (payConsole.run payTexts payInspector []).inspector 0 (.response .ok (.ok []))).1 = .coverage report ∧
    ∀ entry ∈ report.mutations, RoutedAsReported payConsole.store.state.toDynamicGatewayState entry := by
  obtain ⟨report, refreshed, agrees⟩ := coverage_agrees_iff payTexts payInspector payConsole [] 0
    (.response .ok (.ok [])) (.object [("__schema", paySchema)]) paySchema rfl rfl
  refine ⟨report, refreshed, agrees.mpr fun name member => ?_⟩
  have names : namesOf (mutationFields paySchema) = ["pay"] := by decide
  rw [names, List.mem_singleton] at member
  subst member
  decide

/-- After an update that disables payments. -/
def disabledConsole : AdminConsole :=
  payConsole.run payTexts payInspector [.job (.update localMachine (requestOf "[gql]"))]

/-- Payments are still reported to be answered with receipts. -/
theorem disabled_route_reported : ∃ report entry,
    (disabledConsole.engine.handleSchemaRefresh payInspector disabledConsole.inspector 0
      (.response .ok (.ok []))).1 = .coverage report ∧
    entry ∈ report.mutations ∧ entry.fieldName = "pay" ∧ entry.classification = .asyncReceipt ∧
    (∀ proxy exchange info, SelectsOnly info "pay" →
      routeRequest proxy disabledConsole.store.state.toDynamicGatewayState exchange info =
        refuseDisabled exchange info ⟨"pay", .asyncCommandReceipt, false, none, "ACCEPTED", none⟩) ∧
    ¬ RoutedAsReported disabledConsole.store.state.toDynamicGatewayState entry := by
  refine ⟨_, coverageEntry payConsole.engine.routes "pay", rfl, .head _, rfl, rfl, ?_, ?_⟩
  · intro proxy exchange info selects
    unfold routeRequest
    rw [matchRoute_of_selectsOnly selects]
    rfl
  · rw [routedAsReported_coverageEntry_iff]
    decide

end SpectraGQL.Admin
