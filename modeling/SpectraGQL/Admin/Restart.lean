import SpectraGQL.Admin.Listings

/-! # Starting again

A hot reload and a start build the running configuration from one text, at different times: names
resolve to other addresses, and maps are iterated in another order.  `restart_resumes` says that a
gateway that starts after a reload comes up with the configuration that ran before it was stopped,
at the addresses that a rescan would have found.
-/

namespace SpectraGQL.Admin

open Interaction SpectraGQL.Http SpectraGQL.Interceptors SpectraGQL.Gateway

variable {Program Evaluator Module : Type}

/-! ## Calls in turn -/

/-- A text is read twice: the maps may be listed in another order the second time. -/
def SameReading : Except String SpectraConfig → Except String SpectraConfig → Prop
  | .ok config, .ok listed => Reordered config listed
  | .error error, .error other => error = other
  | .ok _, .error _ | .error _, .ok _ => False

structure ConfigTexts.Rereads (texts other : ConfigTexts) : Prop where
  sha256 : other.sha256 = texts.sha256
  fromTomlStr : ∀ text, SameReading (texts.fromTomlStr text) (other.fromTomlStr text)

/-- The interceptors are made as ever, and names resolve as they do now. -/
def surroundingsAt (engines : Engines Program Evaluator Module) (resolve : Resolver) (nowMs : Nat) :
    Surroundings SpectraConfig :=
  machine engines resolve (fun target => resolve target.2) nowMs

inductive AdminTask where
  | rescan
  | update (request : AdminRequest)
  | reload (request : AdminRequest)

def AdminTask.job {γ : Type} (surroundings : Surroundings γ) : AdminTask → AdminJob γ
  | .rescan => .rescan surroundings
  | .update request => .update surroundings request
  | .reload request => .reload surroundings request

/-- A call from its start to its end, with the texts, names and time that it meets. -/
structure AdminTurn where
  task : AdminTask
  texts : ConfigTexts
  resolve : Resolver
  nowMs : Nat
  before : AdminStore
  answer : AdminResponse
  after : AdminStore

def AdminTurn.Happens (engines : Engines Program Evaluator Module) (turn : AdminTurn) : Prop :=
  ∃ events, ((turn.task.job (surroundingsAt engines turn.resolve turn.nowMs)).program turn.texts.crates).Runs
    adminMeaning turn.before events turn.answer turn.after

/-- Calls one after the other. -/
inductive InTurn (texts : ConfigTexts) (engines : Engines Program Evaluator Module) :
    AdminStore → List AdminTurn → AdminStore → Prop where
  | nil (store : AdminStore) : InTurn texts engines store [] store
  | cons {turn : AdminTurn} {rest : List AdminTurn} {last : AdminStore} (rereads : texts.Rereads turn.texts)
      (happens : turn.Happens engines) (later : InTurn texts engines turn.after rest last) :
      InTurn texts engines turn.before (turn :: rest) last

/-- The client is told that its configuration is running. -/
def AdminResponse.isReloaded : AdminResponse → Bool
  | .reloaded _ _ _ applied _ => applied
  | .failure .. | .rescanned .. | .aborted _ => false

/-- The running configuration has been built from the persisted text. -/
def Activated (engines : Engines Program Evaluator Module) (turn : AdminTurn) : Prop :=
  ∃ content listed version, turn.after.persisted = some content ∧ turn.texts.fromTomlStr content = .ok listed ∧
    newFromConfig turn.texts.crates (surroundingsAt engines turn.resolve turn.nowMs) listed content version =
      .ok turn.after.state

theorem runs_hotReload_cases {γ : Type} {crates : ConfigCrates γ} {surroundings : Surroundings γ} {config : γ}
    {content message : String} {failed : String → AdminResponse} {before after : AdminStore}
    {events : List (Event adminSignature)} {answer : AdminResponse}
    (run : (hotReload crates surroundings config content failed message).Runs adminMeaning before events answer after) :
    (∃ error, answer = failed error ∧ after = before) ∨
      ∃ state, newFromConfig crates surroundings config content (nextVersion before.state) = .ok state ∧
        answer = .reloaded state.version state.configHash state.updatedAtEpochMs true message ∧
        after = { before with state := state } := by
  unfold hotReload at run
  cases run with
  | call loaded rest =>
    obtain ⟨rfl, same⟩ := loaded
    rw [same] at rest
    simp only [Prog.bind] at rest
    cases built : newFromConfig crates surroundings config content (nextVersion before.state) with
    | error error =>
      rw [built] at rest
      cases rest
      exact .inl ⟨error, rfl, rfl⟩
    | ok state =>
      rw [built] at rest
      cases rest with
      | call stored ended =>
        cases stored
        cases ended
        exact .inr ⟨state, rfl, rfl, rfl⟩

/-- A reload builds what is persisted, or changes nothing. -/
theorem runs_handleConfigReload_cases {γ : Type} {crates : ConfigCrates γ} {surroundings : Surroundings γ}
    {request : AdminRequest} {before after : AdminStore} {events : List (Event adminSignature)}
    {answer : AdminResponse}
    (run : (handleConfigReload crates surroundings connected request).Runs adminMeaning before events answer after) :
    (answer.isReloaded = false ∧ after = before) ∨
      ∃ content config state, before.persisted = some content ∧ crates.fromTomlStr content = .ok config ∧
        newFromConfig crates surroundings config content (nextVersion before.state) = .ok state ∧
        answer.isReloaded = true ∧ after = { before with state := state } := by
  unfold handleConfigReload at run
  split at run
  · cases run
    exact .inl ⟨rfl, rfl⟩
  · rw [if_neg (by simp [connected])] at run
    cases run with
    | @call _ _ _ _ _ found _ _ loaded rest =>
      obtain ⟨answered, same⟩ := loaded
      rw [same] at rest
      simp only [Prog.bind] at rest
      cases found with
      | error error =>
        cases rest
        exact .inl ⟨rfl, rfl⟩
      | ok loaded =>
        cases loaded with
        | none =>
          cases rest
          exact .inl ⟨rfl, rfl⟩
        | some content =>
          have persisted : before.persisted = some content := by
            rcases answered with answered | ⟨error, failed⟩
            · exact (Except.ok.inj answered).symm
            · cases failed
          dsimp only at rest
          cases parsed : crates.fromTomlStr content with
          | error error =>
            rw [parsed] at rest
            cases rest
            exact .inl ⟨rfl, rfl⟩
          | ok config =>
            rw [parsed] at rest
            rcases runs_hotReload_cases rest with ⟨error, rfl, left⟩ | ⟨state, built, rfl, left⟩
            · exact .inl ⟨rfl, left⟩
            · exact .inr ⟨content, config, state, persisted, parsed, built, rfl, left⟩

/-- A call either makes the persisted text run, or leaves what runs alone but for its addresses. -/
theorem turn_cases {engines : Engines Program Evaluator Module} {turn : AdminTurn} (happens : turn.Happens engines) :
    (turn.answer.isReloaded = true ∧ Activated engines turn) ∨
      (turn.answer.isReloaded = false ∧ (turn.after.state = turn.before.state ∨
        turn.after.state = rescanned (fun target => turn.resolve target.2) turn.nowMs turn.before.state)) := by
  obtain ⟨task, texts, resolve, nowMs, before, answer, after⟩ := turn
  obtain ⟨events, run⟩ := happens
  dsimp only [Activated] at run ⊢
  cases task with
  | rescan =>
    obtain ⟨rfl, rfl, -⟩ := runs_rescanDns run
    exact .inr ⟨rfl, .inr rfl⟩
  | update request =>
    rcases runs_handleConfigUpdate run with ⟨rfl, failed⟩ | ⟨content, reload, listed, accepts, effect⟩
    · have notReloaded : answer.isReloaded = false := by
        cases answer with
        | reloaded => cases failed
        | failure | rescanned | aborted => rfl
      exact .inr ⟨notReloaded, .inl rfl⟩
    · cases effect with
      | kept version epochMs hash message unasked =>
        have notReloaded : reload = false := by simpa [connected] using unasked
        exact .inr ⟨notReloaded, .inl rfl⟩
      | replaced message built => exact .inl ⟨rfl, content, listed, _, rfl, accepts.2.1, built⟩
      | notApplied asked isConnected failed => exact .inr ⟨rfl, .inl rfl⟩
  | reload request =>
    rcases runs_handleConfigReload_cases run with ⟨failed, rfl⟩ |
      ⟨content, listed, state, persisted, parsed, built, reloaded, rfl⟩
    · exact .inr ⟨failed, .inl rfl⟩
    · exact .inl ⟨reloaded, content, listed, _, persisted, parsed, built⟩

/-! ## Built from one text -/

def RunningState.settings (state : RunningState) : ConfigSettings where
  dispatchPolicy := state.dispatchPolicy
  routes := state.routes
  apps := state.apps
  defaultApp := state.defaultApp
  errorCapture := state.errorCapture

/-- The state has been built from its text, listed like this, and rescanned ever since. -/
structure Configured (texts : ConfigTexts) (engines : Engines Program Evaluator Module) (listed : SpectraConfig)
    (state : RunningState) : Prop where
  parsed : SameReading (texts.fromTomlStr state.rawConfig) (.ok listed)
  hash : state.configHash = texts.sha256 (asBytes state.rawConfig)
  settings : state.settings = listed.settings
  manager : fromSpectraConfig engines listed.interceptorSettings = .ok state.interceptorManager
  distinct : DistinctTargets state
  targets : ∀ wanted, state.upstreamTargets.lookup wanted = hostOf listed.boot wanted
  names : ∀ wanted, (state.namedUpstreams.lookup wanted).isSome = (state.upstreamTargets.lookup wanted).isSome

/-- Every name has the address that its host resolves to. -/
def Located (resolve : Resolver) (state : RunningState) : Prop :=
  ∀ wanted, state.namedUpstreams.lookup wanted = (state.upstreamTargets.lookup wanted).bind (resolution resolve)

section Configured

variable {texts other : ConfigTexts} {engines : Engines Program Evaluator Module} {listed : SpectraConfig}
  {state : RunningState} {resolve : Resolver} {nowMs : Nat}

theorem configured_of_built (rereads : texts.Rereads other) {content : String} {version : Nat}
    (parsed : other.fromTomlStr content = .ok listed)
    (built : newFromConfig other.crates (surroundingsAt engines resolve nowMs) listed content version = .ok state) :
    Configured texts engines listed state ∧ Located resolve state := by
  obtain ⟨⟨addrs, targets⟩, resolved, rest⟩ := exists_of_bind_eq_ok built
  obtain ⟨manager, isManager, ended⟩ := exists_of_bind_eq_ok rest
  have lookups := lookup_resolveAll resolved
  have reading := rereads.fromTomlStr content
  rw [parsed] at reading
  cases ended
  have located : ∀ wanted, addrs.lookup wanted = (targets.lookup wanted).bind (resolution resolve) := by
    intro wanted
    rw [(lookups wanted).1]
    exact (lookups wanted).2.1
  have named : ∀ wanted, (addrs.lookup wanted).isSome = (targets.lookup wanted).isSome := by
    intro wanted
    rw [(lookups wanted).2.1, (lookups wanted).1]
    exact (lookups wanted).2.2
  exact ⟨⟨reading, congrFun rereads.sha256 _, rfl, isManager, nodup_resolveAll resolved,
    fun wanted => (lookups wanted).1, named⟩, located⟩

/-- A rescan finds every host that resolves, and leaves the other names alone. -/
theorem lookup_rescanned (distinct : DistinctTargets state) (wanted : String) :
    (rescanned (fun target => resolve target.2) nowMs state).namedUpstreams.lookup wanted =
      ((state.upstreamTargets.lookup wanted).bind (resolution resolve) <|> state.namedUpstreams.lookup wanted) := by
  have unchanged (unresolved : ∀ target ∈ state.upstreamTargets, target.1 = wanted →
      newAddress (fun target => resolve target.2) target = none) :=
    @lookup_rescanned_of_unresolved (fun target => resolve target.2) state nowMs wanted unresolved
  cases isTarget : state.upstreamTargets.lookup wanted with
  | none =>
    rw [unchanged fun target member same => ?_]
    · rfl
    · have absent := List.lookup_eq_none_iff.mp isTarget target member
      exact absurd same.symm (by simpa using absent)
  | some host =>
    have member : (wanted, host) ∈ state.upstreamTargets := (lookup_eq_some_iff_mem distinct).mp isTarget
    rw [Option.bind_some]
    cases found : resolution resolve host with
    | some addr => exact lookup_rescanned_of_resolved nowMs distinct member found
    | none =>
      rw [unchanged fun target isMember same => ?_]
      · rfl
      · obtain rfl : target = (wanted, host) := List.inj_on_of_nodup_map distinct isMember member same
        exact found

theorem Configured.rescanned (configured : Configured texts engines listed state) :
    Configured texts engines listed (rescanned (fun target => resolve target.2) nowMs state) := by
  have frame := @rescanned_frame (fun target => resolve target.2) state nowMs
  rw [frame]
  refine ⟨configured.parsed, configured.hash, configured.settings, configured.manager, configured.distinct,
    configured.targets, fun wanted => ?_⟩
  change ((SpectraGQL.Admin.rescanned _ nowMs state).namedUpstreams.lookup wanted).isSome = _
  rw [lookup_rescanned configured.distinct]
  have named := configured.names wanted
  cases isTarget : state.upstreamTargets.lookup wanted with
  | none => simpa [isTarget] using named
  | some host =>
    rw [isTarget] at named
    cases resolution resolve host <;> simp_all

end Configured

/-! ## After a reload -/

/-- What runs has been built from what is persisted. -/
def Resumable (texts : ConfigTexts) (engines : Engines Program Evaluator Module) (store : AdminStore) : Prop :=
  store.persisted = some store.state.rawConfig ∧ ∃ listed, Configured texts engines listed store.state

section Resumable

variable {texts : ConfigTexts} {engines : Engines Program Evaluator Module} {turn : AdminTurn}

theorem resumable_of_activated (rereads : texts.Rereads turn.texts) (activated : Activated engines turn) :
    Resumable texts engines turn.after := by
  obtain ⟨content, listed, version, persisted, parsed, built⟩ := activated
  have sameText : turn.after.state.rawConfig = content := (newFromConfig_eq_ok built).1
  refine ⟨?_, listed, (configured_of_built rereads parsed built).1⟩
  rw [persisted, sameText]

/-- A call after which nothing is persisted that does not run. -/
def AdminTurn.Keeps (turn : AdminTurn) : Prop :=
  turn.answer.isReloaded = true ∨ turn.after.persisted = turn.before.persisted

theorem Resumable.next (resumable : Resumable texts engines turn.before) (rereads : texts.Rereads turn.texts)
    (happens : turn.Happens engines) (keeps : turn.Keeps) : Resumable texts engines turn.after := by
  rcases turn_cases happens with ⟨-, activated⟩ | ⟨notReloaded, effect⟩
  · exact resumable_of_activated rereads activated
  · have same : turn.after.persisted = turn.before.persisted := by
      rcases keeps with reloaded | same
      · rw [notReloaded] at reloaded
        cases reloaded
      · exact same
    obtain ⟨persisted, listed, configured⟩ := resumable
    rcases effect with unchanged | moved
    · refine ⟨?_, listed, ?_⟩
      · rw [same, unchanged, persisted]
      · rw [unchanged]
        exact configured
    · refine ⟨?_, listed, ?_⟩
      · rw [same, moved, rescanned_frame, persisted]
      · rw [moved]
        exact configured.rescanned

theorem Resumable.inTurn {initial last : AdminStore} {turns : List AdminTurn}
    (run : InTurn texts engines initial turns last) (resumable : Resumable texts engines initial)
    (keep : ∀ turn ∈ turns, turn.Keeps) : Resumable texts engines last := by
  induction run with
  | nil store => exact resumable
  | cons rereads happens later inductionHypothesis =>
    have kept := resumable.next rereads happens (keep _ List.mem_cons_self)
    exact inductionHypothesis kept fun turn member => keep turn (List.mem_cons_of_mem _ member)

/-- Whatever was before, the gateway can be resumed from a reload on. -/
theorem resumable_after_reload {initial last : AdminStore} {earlier later : List AdminTurn}
    (run : InTurn texts engines initial (earlier ++ turn :: later) last) (reloaded : turn.answer.isReloaded = true)
    (keep : ∀ turn ∈ later, turn.Keeps) : Resumable texts engines last := by
  induction earlier generalizing initial with
  | nil =>
    cases run with
    | cons rereads happens rest =>
      rcases turn_cases happens with ⟨-, activated⟩ | ⟨notReloaded, -⟩
      · exact (resumable_of_activated rereads activated).inTurn rest keep
      · rw [notReloaded] at reloaded
        cases reloaded
  | cons first rest inductionHypothesis =>
    cases run with
    | cons rereads happens following => exact inductionHypothesis following

end Resumable

/-! ## The start -/

/-- Two gateways treat every request alike, as far as it is up to their configurations. -/
structure RunsAlike (first second : RunningState) : Prop where
  rawConfig : first.rawConfig = second.rawConfig
  configHash : first.configHash = second.configHash
  dispatchPolicy : first.dispatchPolicy = second.dispatchPolicy
  apps : first.apps = second.apps
  defaultApp : first.defaultApp = second.defaultApp
  errorCapture : first.errorCapture = second.errorCapture
  routes : first.routes.Perm second.routes
  guards : GuardsAlike first.interceptorManager second.interceptorManager
  targets : ∀ name, first.upstreamTargets.lookup name = second.upstreamTargets.lookup name
  upstreams : ∀ name, first.namedUpstreams.lookup name = second.namedUpstreams.lookup name

def ConfigTexts.bootCrates (texts : ConfigTexts) (acceptsRoute : List String → String → Bool)
    (hasRoomFor : Nat → Bool) : BootCrates SpectraConfig :=
  { texts.crates with bootSettings := SpectraConfig.boot, acceptsRoute := acceptsRoute, hasRoomFor := hasRoomFor }

theorem state_of_assemble {γ : Type} {crates : BootCrates γ} {surroundings : Surroundings γ} {config : γ}
    {activeRaw : String} {service : CompositeService}
    (assembled : assemble crates surroundings config activeRaw = .ok service) :
    newFromConfig crates.toConfigCrates surroundings config activeRaw 1 = .ok service.state := by
  obtain ⟨state, built, rest⟩ := exists_of_bind_eq_ok assembled
  obtain ⟨_, _, rest⟩ := exists_of_bind_eq_ok rest
  obtain ⟨_, _, rest⟩ := exists_of_bind_eq_ok rest
  obtain ⟨_, _, rest⟩ := exists_of_bind_eq_ok rest
  obtain ⟨_, _, rest⟩ := exists_of_bind_eq_ok rest
  obtain ⟨_, _, rest⟩ := exists_of_bind_eq_ok rest
  obtain ⟨_, _, rest⟩ := exists_of_bind_eq_ok rest
  obtain ⟨_, _, ended⟩ := exists_of_bind_eq_ok rest
  cases ended
  exact built

theorem workingStore_sound (call : AdminCall) (store : AdminStore) :
    adminMeaning call store (workingStore call store).1 (workingStore call store).2 := by
  cases call with
  | loadState => exact ⟨rfl, rfl⟩
  | storeState state => rfl
  | saveConfig content => exact .inl ⟨rfl, rfl⟩
  | loadConfig => exact ⟨.inl rfl, rfl⟩

theorem runs_workingStore {α : Type} (program : AdminProg α) (store : AdminStore) :
    ∃ events, program.Runs adminMeaning store events (program.interp workingStore store).1
      (program.interp workingStore store).2 := by
  induction program generalizing store with
  | ret value => exact ⟨[], .ret value store⟩
  | call request next inductionHypothesis =>
    obtain ⟨events, rest⟩ := inductionHypothesis (workingStore request store).1 (workingStore request store).2
    exact ⟨_, .call (workingStore_sound request store) rest⟩

/-- A rescan that nothing interferes with. -/
theorem interp_rescanDns {γ : Type} (surroundings : Surroundings γ) (store : AdminStore) :
    ((rescanDns surroundings).interp workingStore store).2.state =
      rescanned surroundings.resolveTarget surroundings.nowMs store.state := by
  obtain ⟨events, run⟩ := runs_workingStore (rescanDns surroundings) store
  exact congrArg AdminStore.state (runs_rescanDns run).1

section Start

variable {texts : ConfigTexts} {engines : Engines Program Evaluator Module} {config first second : SpectraConfig}
  {resolve : Resolver} {nowMs : Nat} {started running : RunningState}

theorem settings_reordered (reordered : Reordered config first) (alsoReordered : Reordered config second) :
    { first.settings with routes := second.settings.routes } = second.settings ∧
      first.settings.routes.Perm second.settings.routes := by
  refine ⟨?_, (reordered.routes.symm.trans alsoReordered.routes).map _⟩
  rw [reordered.rest, alsoReordered.rest]
  rfl

/-- A state that was built now, and one that was built of the same text and is rescanned now. -/
theorem runsAlike_of_configured (orderFree : OrderFree config)
    (parsed : texts.fromTomlStr running.rawConfig = .ok config) (sameText : started.rawConfig = running.rawConfig)
    (fresh : Configured texts engines first started) (located : Located resolve started)
    (configured : Configured texts engines second running) :
    RunsAlike started (rescanned (fun target => resolve target.2) nowMs running) := by
  have reordered : Reordered config first := by
    have reading := fresh.parsed
    rwa [sameText, parsed] at reading
  have alsoReordered : Reordered config second := by
    have reading := configured.parsed
    rwa [parsed] at reading
  have sameTargets : ∀ name, started.upstreamTargets.lookup name = running.upstreamTargets.lookup name := by
    intro name
    rw [fresh.targets, configured.targets, hostOf_reordered orderFree reordered,
      hostOf_reordered orderFree alsoReordered]
  obtain ⟨sameSettings, sameRoutes⟩ := settings_reordered reordered alsoReordered
  rw [← fresh.settings, ← configured.settings] at sameSettings sameRoutes
  have upstreams : ∀ name, started.namedUpstreams.lookup name =
      (rescanned (fun target => resolve target.2) nowMs running).namedUpstreams.lookup name := by
    intro name
    rw [lookup_rescanned configured.distinct, ← sameTargets, located name]
    have named := fresh.names name
    rw [located name] at named
    have alsoNamed := configured.names name
    rw [← sameTargets] at alsoNamed
    cases isTarget : started.upstreamTargets.lookup name with
    | none =>
      rw [isTarget] at alsoNamed
      exact (Option.isSome_eq_false_iff.mp alsoNamed |> Option.isNone_iff_eq_none.mp).symm
    | some host =>
      rw [isTarget] at named
      obtain ⟨addr, found⟩ := Option.isSome_iff_exists.mp named
      rw [Option.bind_some] at found ⊢
      rw [found]
      rfl
  rw [rescanned_frame]
  exact {
    rawConfig := sameText
    configHash := by rw [fresh.hash, configured.hash, sameText]
    dispatchPolicy := congrArg ConfigSettings.dispatchPolicy sameSettings
    apps := congrArg ConfigSettings.apps sameSettings
    defaultApp := congrArg ConfigSettings.defaultApp sameSettings
    errorCapture := congrArg ConfigSettings.errorCapture sameSettings
    routes := sameRoutes
    guards := guardsAlike_reordered engines orderFree alsoReordered reordered configured.manager fresh.manager
    targets := sameTargets
    upstreams := upstreams }

/-- From a reload on, as long as everything that is persisted runs as well, a start of the gateway
    leads to the configuration that runs, as a rescan would leave it.  The text must not be blank,
    and no two entries of it may be entered under one name. -/
theorem restart_resumes (texts other : ConfigTexts) (engines : Engines Program Evaluator Module)
    (acceptsRoute : List String → String → Bool) (hasRoomFor : Nat → Bool) (startup : Startup SpectraConfig)
    (initial last : AdminStore) (earlier later : List AdminTurn) (turn : AdminTurn) (resolve : Resolver)
    (nowMs : Nat) (config : SpectraConfig) (service : CompositeService)
    (run : InTurn texts engines initial (earlier ++ turn :: later) last) (reloaded : turn.answer.isReloaded = true)
    (keep : ∀ turn ∈ later, turn.Keeps) (parsed : texts.fromTomlStr last.state.rawConfig = .ok config)
    (filled : trim last.state.rawConfig ≠ "") (orderFree : OrderFree config) (rereads : texts.Rereads other)
    (starts : ((buildCompositeService (other.bootCrates acceptsRoute hasRoomFor)
      (surroundingsAt engines resolve nowMs) startup).interp workingStore last).1 = .ok service) :
    RunsAlike service.state
      ((rescanDns (surroundingsAt engines resolve nowMs)).interp workingStore last).2.state := by
  obtain ⟨persisted, second, configured⟩ := resumable_after_reload run reloaded keep
  -- the text that is persisted is the one that the start finds
  have reading := rereads.fromTomlStr last.state.rawConfig
  rw [parsed] at reading
  cases listing : other.fromTomlStr last.state.rawConfig with
  | error error =>
    rw [listing] at reading
    cases reading
  | ok first =>
    unfold buildCompositeService at starts
    rw [Prog.interp_bind, hydrate_stored persisted filled listing] at starts
    have built := state_of_assemble starts
    obtain ⟨fresh, located⟩ := configured_of_built rereads listing built
    have sameText : service.state.rawConfig = last.state.rawConfig := (newFromConfig_eq_ok built).1
    rw [interp_rescanDns]
    exact runsAlike_of_configured orderFree parsed sameText fresh located configured

end Start

/-! ## Two hosts that move -/

def twoHosts (upstreams : List (String × SpectraUpstreamConfig)) : SpectraConfig :=
  { defaultConfig with boot := { defaultConfig.boot with upstreams := upstreams } }

def hostA : String × SpectraUpstreamConfig := ("a", ⟨"", "a:80"⟩)
def hostB : String × SpectraUpstreamConfig := ("b", ⟨"", "b:80"⟩)

/-- Every text names the two hosts. -/
def twoHostsTexts (upstreams : List (String × SpectraUpstreamConfig)) : ConfigTexts :=
  { ghostTexts with fromTomlStr := fun _ => .ok (twoHosts upstreams) }

/-- A call that nothing interferes with. -/
def AdminTurn.alone (engines : Engines Program Evaluator Module) (task : AdminTask) (texts : ConfigTexts)
    (resolve : Resolver) (nowMs : Nat) (store : AdminStore) : AdminTurn :=
  let result := ((task.job (surroundingsAt engines resolve nowMs)).program texts.crates).interp workingStore store
  ⟨task, texts, resolve, nowMs, store, result.1, result.2⟩

theorem happens_alone (engines : Engines Program Evaluator Module) (task : AdminTask) (texts : ConfigTexts)
    (resolve : Resolver) (nowMs : Nat) (store : AdminStore) :
    (AdminTurn.alone engines task texts resolve nowMs store).Happens engines :=
  runs_workingStore _ _

/-- Every host has moved. -/
def resolveMoved : Resolver := fun addr => .ok [addr ++ "!"]

theorem orderFree_twoHosts : OrderFree (twoHosts [hostA, hostB]) where
  upstreamKeys := by decide
  interceptorKeys := by decide
  hosts := by
    intro wanted entry member other otherMember named otherNamed
    simp only [twoHosts, List.mem_cons, List.not_mem_nil, or_false] at member otherMember
    rcases member with rfl | rfl <;> rcases otherMember with rfl | rfl <;>
      grind [hostA, hostB, SpectraUpstreamConfig.IsNamed]
  guards := by
    intro route member
    cases member

/-- A reload and a rescan; the start finds the hosts in the other order, at their new addresses. -/
theorem restart_resumes_moved : ∃ store service,
    ((buildCompositeService ((twoHostsTexts [hostB, hostA]).bootCrates (fun _ _ => true) fun _ => true)
      (surroundingsAt passingEngines resolveMoved 3) ⟨defaultConfig, ""⟩).interp workingStore store).1 =
        .ok service ∧
      RunsAlike service.state
        ((rescanDns (surroundingsAt passingEngines resolveMoved 3)).interp workingStore store).2.state ∧
      service.state.namedUpstreams.lookup "a" = some "a:80!" := by
  let texts := twoHostsTexts [hostA, hostB]
  let reload := AdminTurn.alone passingEngines (.update (requestOf "# two hosts")) texts resolveLiteral 1 firstVersion
  let rescan := AdminTurn.alone passingEngines .rescan texts (fun _ => .error "no name server") 2 reload.after
  have rereads : ∀ upstreams, [hostA, hostB].Perm upstreams → texts.Rereads (twoHostsTexts upstreams) :=
    fun upstreams same => ⟨rfl, fun _ => ⟨same, .refl _, .refl _, rfl⟩⟩
  have run : InTurn texts passingEngines firstVersion ([] ++ reload :: [rescan]) rescan.after :=
    .cons (rereads _ (.refl _)) (happens_alone ..) (.cons (rereads _ (.refl _)) (happens_alone ..) (.nil _))
  obtain ⟨service, starts⟩ : ∃ service, ((buildCompositeService ((twoHostsTexts [hostB, hostA]).bootCrates
      (fun _ _ => true) fun _ => true) (surroundingsAt passingEngines resolveMoved 3)
        ⟨defaultConfig, ""⟩).interp workingStore rescan.after).1 = .ok service := ⟨_, rfl⟩
  have alike := restart_resumes texts (twoHostsTexts [hostB, hostA]) passingEngines (fun _ _ => true) (fun _ => true)
    ⟨defaultConfig, ""⟩ firstVersion rescan.after [] [rescan] reload resolveMoved 3 (twoHosts [hostA, hostB]) service
    run rfl (by
      intro turn member
      rw [List.mem_singleton.mp member]
      exact .inr rfl) rfl (by decide +kernel) orderFree_twoHosts (rereads _ (.swap ..)) starts
  exact ⟨rescan.after, service, starts, alike, by rw [alike.upstreams]; rfl⟩

end SpectraGQL.Admin
