import SpectraGQL.Admin.Boot

/-! # One update after the other

An update persists its configuration before it builds it, and nothing is undone when it
cannot be built.  `updates_atomic` says which updates are harmless: those whose text the
gateway would also start from.
-/

namespace SpectraGQL.Admin

open Interaction SpectraGQL.Http SpectraGQL.Protocol SpectraGQL.Gateway

variable {γ : Type}

/-! ## What one update does -/

/-- The configuration of an update that is authorized, read and parsed. -/
def Accepts (crates : ConfigCrates γ) (request : AdminRequest) (content : String) (reload : Bool)
    (config : γ) : Prop :=
  request.authorized = true ∧ crates.fromTomlStr content = .ok config ∧
    ∃ body, readConfigBody request.readError [] request.chunks = .ok body ∧
      updateContent crates body = some (content, reload)

def persist (engine : AdminEngine) (content : String) (store : AdminStore) : AdminStore :=
  if engine.configStore then { store with persisted := some content } else store

/-- The client is told that its configuration was taken. -/
def AdminResponse.isSuccess : AdminResponse → Bool
  | .reloaded .. => true
  | .failure .. | .rescanned .. | .aborted _ => false

/-- The answers to an update that was persisted, and the stores they leave. -/
inductive ApplyEffect (crates : ConfigCrates γ) (surroundings : Surroundings γ) (engine : AdminEngine)
    (config : γ) (content : String) (reload : Bool) (saved : AdminStore) :
    AdminResponse → AdminStore → Prop where
  | kept (version epochMs : Nat) (hash message : String)
      (unasked : reload = false ∨ engine.dynamicState = false) :
      ApplyEffect crates surroundings engine config content reload saved
        (.reloaded version hash epochMs reload message) saved
  | replaced {state : RunningState} (message : String)
      (built : newFromConfig crates surroundings config content (nextVersion saved.state) = .ok state) :
      ApplyEffect crates surroundings engine config content reload saved
        (.reloaded state.version state.configHash state.updatedAtEpochMs true message)
        { saved with state := state }
  | notApplied {error : String} (asked : reload = true) (connected : engine.dynamicState = true)
      (failed : newFromConfig crates surroundings config content (nextVersion saved.state) = .error error) :
      ApplyEffect crates surroundings engine config content reload saved (updateNotApplied error) saved

section Effects

variable {crates : ConfigCrates γ} {surroundings : Surroundings γ} {engine : AdminEngine}
  {config : γ} {content : String} {reload : Bool} {request : AdminRequest}
  {before after : AdminStore} {events : List (Event adminSignature)} {answer : AdminResponse}

theorem runs_applyUpdate
    (run : (applyUpdate crates surroundings engine config content reload).Runs adminMeaning
      before events answer after) :
    ApplyEffect crates surroundings engine config content reload before answer after := by
  unfold applyUpdate at run
  cases asked : reload with
  | false =>
    rw [asked] at run
    cases tracked : engine.dynamicState with
    | false =>
      rw [tracked] at run
      cases run
      exact .kept _ _ _ _ (.inl rfl)
    | true =>
      rw [tracked] at run
      cases run with
      | call loaded rest =>
        obtain ⟨rfl, rfl⟩ := loaded
        cases rest
        exact .kept _ _ _ _ (.inl rfl)
  | true =>
    rw [asked] at run
    cases tracked : engine.dynamicState with
    | false =>
      rw [tracked] at run
      cases run
      exact .kept _ _ _ _ (.inr tracked)
    | true =>
      rw [tracked] at run
      cases run with
      | call loaded rest =>
        -- a new state is built from what is loaded, or nothing is replaced
        obtain ⟨rfl, same⟩ := loaded
        rw [same] at rest
        simp only [Prog.bind] at rest
        cases built : newFromConfig crates surroundings config content (nextVersion before.state) with
        | error error =>
          rw [built] at rest
          cases rest
          exact .notApplied rfl tracked built
        | ok state =>
          rw [built] at rest
          cases rest with
          | call stored ended =>
            cases stored
            cases ended
            exact .replaced _ built

/-- An update is refused and changes nothing, or it is persisted and applied. -/
theorem runs_handleConfigUpdate
    (run : (handleConfigUpdate crates surroundings engine request).Runs adminMeaning
      before events answer after) :
    (after = before ∧ answer.isSuccess = false) ∨ ∃ content reload config, Accepts crates request content reload config ∧
      ApplyEffect crates surroundings engine config content reload (persist engine content before)
        answer after := by
  unfold handleConfigUpdate at run
  split at run
  · cases run
    exact .inl ⟨rfl, rfl⟩
  rename_i authorized
  cases read : readConfigBody request.readError [] request.chunks with
  | error error =>
    rw [read] at run
    cases run
    exact .inl ⟨rfl, rfl⟩
  | ok body =>
    rw [read] at run
    dsimp only at run
    cases isUpdate : updateContent crates body with
    | none =>
      rw [isUpdate] at run
      cases run
      exact .inl ⟨rfl, rfl⟩
    | some update =>
      obtain ⟨content, reload⟩ := update
      rw [isUpdate] at run
      dsimp only at run
      cases parsed : crates.fromTomlStr content with
      | error error =>
        rw [parsed] at run
        cases run
        exact .inl ⟨rfl, rfl⟩
      | ok config =>
        rw [parsed] at run
        have accepts : Accepts crates request content reload config :=
          ⟨by simpa using authorized, parsed, body, read, isUpdate⟩
        unfold persistUpdate at run
        cases connected : engine.configStore with
        | false =>
          rw [connected] at run
          refine .inr ⟨content, reload, config, accepts, ?_⟩
          simp only [persist, connected]
          exact runs_applyUpdate run
        | true =>
          rw [connected] at run
          cases run with
          | call saved rest =>
            rcases saved with ⟨rfl, rfl⟩ | ⟨⟨error, rfl⟩, rfl⟩
            · refine .inr ⟨content, reload, config, accepts, ?_⟩
              simp only [persist, connected]
              exact runs_applyUpdate rest
            · -- what cannot be saved is not applied
              cases rest
              exact .inl ⟨rfl, rfl⟩

theorem handleConfigUpdate_of_accepts (accepts : Accepts crates request content reload config) :
    handleConfigUpdate crates surroundings engine request =
      persistUpdate crates surroundings engine config content reload := by
  obtain ⟨authorized, parsed, body, read, isUpdate⟩ := accepts
  unfold handleConfigUpdate
  rw [read, authorized]
  simp only [Bool.not_true, Bool.false_eq_true, if_false, isUpdate, parsed]

end Effects

/-! ## Sequences of updates -/

structure UpdateStep where
  request : AdminRequest
  nowMs : Nat
  before : AdminStore
  answer : AdminResponse
  after : AdminStore

/-- Updates one after the other, in surroundings of which only the clock moves. -/
inductive UpdateRun (crates : ConfigCrates γ) (surroundings : Surroundings γ) (engine : AdminEngine) :
    AdminStore → List UpdateStep → Prop where
  | nil (store : AdminStore) : UpdateRun crates surroundings engine store []
  | cons {step : UpdateStep} {events : List (Event adminSignature)} {rest : List UpdateStep}
      (run : (handleConfigUpdate crates { surroundings with nowMs := step.nowMs } engine
        step.request).Runs adminMeaning step.before events step.answer step.after)
      (later : UpdateRun crates surroundings engine step.after rest) :
      UpdateRun crates surroundings engine step.before (step :: rest)

/-- An error leaves both configurations as they were. -/
def UpdateStep.Atomic (step : UpdateStep) : Prop :=
  ∀ status error message, step.answer = .failure status error message → step.after = step.before

/-- A configuration that would be persisted is one that the gateway starts from; one that is
    to be loaded at once, and is not the persisted one anyway, can be built. -/
def Harmless (crates : BootCrates γ) (surroundings : Surroundings γ) (startup : Startup γ)
    (engine : AdminEngine) (store : AdminStore) (request : AdminRequest) : Prop :=
  ∀ content reload config, Accepts crates.toConfigCrates request content reload config →
    engine.configStore = true →
      Bootable crates surroundings startup { store with persisted := some content } ∧
      (reload = true → engine.dynamicState = true → store.persisted ≠ some content →
        (newFromConfig crates.toConfigCrates surroundings config content 1).isOk)

section Sequences

variable {crates : BootCrates γ} {surroundings : Surroundings γ} {startup : Startup γ}
  {engine : AdminEngine}

/-- Unless its text is blank, what the gateway starts from can be built. -/
theorem harmless_of_bootable {store : AdminStore} {request : AdminRequest}
    (boots : ∀ content reload config, Accepts crates.toConfigCrates request content reload config →
      trim content ≠ "" ∧ Bootable crates surroundings startup { store with persisted := some content }) :
    Harmless crates surroundings startup engine store request := by
  intro content reload config accepts stored
  obtain ⟨filled, bootable⟩ := boots content reload config accepts
  refine ⟨bootable, fun _ _ _ => ?_⟩
  exact newFromConfig_isOk_of_assemble ((bootable_stored rfl filled accepts.2.1).mp bootable) _ _

/-- The clock does not matter either. -/
theorem newFromConfig_isOk_later {config : γ} {content rawContent : String} {version later nowMs : Nat} :
    (newFromConfig crates.toConfigCrates { surroundings with nowMs := nowMs } config content later).isOk ↔
      (newFromConfig crates.toConfigCrates surroundings config rawContent version).isOk := by
  rw [newFromConfig_isOk_iff, newFromConfig_isOk_iff]

theorem persist_eq_of_same {store : AdminStore} {content : String}
    (same : engine.configStore = true → store.persisted = some content) :
    persist engine content store = store := by
  unfold persist
  split
  · rename_i stored
    rw [← same stored]
  · rfl

/-- A harmless update is atomic, and the gateway still starts. -/
theorem step_of_harmless {step : UpdateStep} {events : List (Event adminSignature)}
    (run : (handleConfigUpdate crates.toConfigCrates { surroundings with nowMs := step.nowMs } engine
      step.request).Runs adminMeaning step.before events step.answer step.after)
    (bootable : Bootable crates surroundings startup step.before)
    (harmless : Harmless crates surroundings startup engine step.before step.request) :
    step.Atomic ∧ Bootable crates surroundings startup step.after := by
  rcases runs_handleConfigUpdate run with ⟨same, -⟩ | ⟨content, reload, config, accepts, effect⟩
  · rw [same]
    exact ⟨fun _ _ _ _ => same, bootable⟩
  · have starts : Bootable crates surroundings startup (persist engine content step.before) := by
      unfold persist
      split
      · rename_i stored
        exact (harmless content reload config accepts stored).1
      · exact bootable
    generalize answered : step.answer = answer at effect
    generalize left : step.after = after at effect
    cases effect with
    | kept version epochMs hash message _ =>
      refine ⟨fun status error text failed => ?_, starts⟩
      rw [answered] at failed
      cases failed
    | replaced message _ =>
      refine ⟨fun status error text failed => ?_, (bootable_persisted (by rfl)).mp starts⟩
      rw [answered] at failed
      cases failed
    | notApplied asked connected failed =>
      refine ⟨fun _ _ _ _ => ?_, starts⟩
      rw [left]
      -- a text that cannot be built was persisted before
      refine persist_eq_of_same fun stored => ?_
      by_contra different
      have built := (harmless content reload config accepts stored).2 asked connected different
      rw [← newFromConfig_isOk_later, failed] at built
      cases built

/-- The run of an accepted update whose text the store takes. -/
theorem runs_of_accepts {surroundings : Surroundings γ} {request : AdminRequest} {content : String}
    {reload : Bool} {config : γ} {store after : AdminStore} {events : List (Event adminSignature)}
    {answer : AdminResponse} (accepts : Accepts crates.toConfigCrates request content reload config)
    (stored : engine.configStore = true)
    (applied : (applyUpdate crates.toConfigCrates surroundings engine config content reload).Runs
      adminMeaning { store with persisted := some content } events answer after) :
    (handleConfigUpdate crates.toConfigCrates surroundings engine request).Runs adminMeaning store
      (⟨.saveConfig content, .ok ()⟩ :: events) answer after := by
  rw [handleConfigUpdate_of_accepts accepts]
  unfold persistUpdate
  rw [if_pos stored]
  exact .call (.inl ⟨rfl, rfl⟩) applied

theorem adminMeaning_total (call : AdminCall) (before : AdminStore) :
    ∃ answer after, adminMeaning call before answer after := by
  cases call with
  | loadState => exact ⟨before.state, before, rfl, rfl⟩
  | storeState state => exact ⟨(), _, rfl⟩
  | saveConfig content => exact ⟨.ok (), _, .inl ⟨rfl, rfl⟩⟩
  | loadConfig => exact ⟨.ok before.persisted, before, .inl rfl, rfl⟩

/-- An update that is not harmless can go wrong, whatever came before. -/
theorem exists_harm {store : AdminStore} {request : AdminRequest}
    (harmful : ¬ Harmless crates surroundings startup engine store request) :
    ∃ step, UpdateRun crates.toConfigCrates surroundings engine store [step] ∧
      step.request = request ∧
      ¬ (step.Atomic ∧ Bootable crates surroundings startup step.after) := by
  unfold Harmless at harmful
  push Not at harmful
  obtain ⟨content, reload, config, accepts, stored, harm⟩ := harmful
  by_cases starts : Bootable crates surroundings startup { store with persisted := some content }
  · -- the text is persisted, cannot be built, and the client gets an error
    obtain ⟨rfl, connected, different, unbuilt⟩ := harm starts
    cases built : newFromConfig crates.toConfigCrates { surroundings with nowMs := 0 } config content
        (nextVersion store.state) with
    | ok state =>
      have ok : (newFromConfig crates.toConfigCrates { surroundings with nowMs := 0 } config content
          (nextVersion store.state)).isOk := by
        rw [built]
        rfl
      exact absurd (newFromConfig_isOk_later.mp ok) unbuilt
    | error error =>
      have applied : (applyUpdate crates.toConfigCrates { surroundings with nowMs := 0 } engine config
          content true).Runs adminMeaning { store with persisted := some content }
          [⟨.loadState, store.state⟩] (updateNotApplied error)
          { store with persisted := some content } := by
        unfold applyUpdate
        rw [if_pos rfl, if_pos connected]
        refine .call ⟨rfl, rfl⟩ ?_
        simp only [Prog.bind, built]
        exact .ret _ _
      let step : UpdateStep :=
        ⟨request, 0, store, updateNotApplied error, { store with persisted := some content }⟩
      have run : UpdateRun crates.toConfigCrates surroundings engine step.before [step] :=
        .cons (runs_of_accepts accepts stored applied) (.nil _)
      refine ⟨step, run, rfl, fun good => different ?_⟩
      have same := good.1 500 _ _ rfl
      exact (congrArg AdminStore.persisted same).symm
  · obtain ⟨events, answer, after, applied⟩ := Prog.exists_runs adminMeaning_total
      (applyUpdate crates.toConfigCrates { surroundings with nowMs := 0 } engine config content reload)
      { store with persisted := some content }
    let step : UpdateStep := ⟨request, 0, store, answer, after⟩
    have run : UpdateRun crates.toConfigCrates surroundings engine step.before [step] :=
      .cons (runs_of_accepts accepts stored applied) (.nil _)
    refine ⟨step, run, rfl, fun good => starts ?_⟩
    have persisted : after.persisted = some content := by
      cases runs_applyUpdate applied <;> rfl
    exact (bootable_persisted persisted).mp good.2

/-- Harmless updates are atomic and leave a store from which the gateway starts, however many
    there are; an update that is not harmless has a run in which one of the two fails. -/
theorem updates_atomic (crates : BootCrates γ) (surroundings : Surroundings γ) (startup : Startup γ)
    (engine : AdminEngine) :
    (∀ initial steps, UpdateRun crates.toConfigCrates surroundings engine initial steps →
      Bootable crates surroundings startup initial →
      (∀ step ∈ steps, Harmless crates surroundings startup engine step.before step.request) →
      ∀ step ∈ steps, step.Atomic ∧ Bootable crates surroundings startup step.after) ∧
    (∀ store request, ¬ Harmless crates surroundings startup engine store request →
      ∃ step, UpdateRun crates.toConfigCrates surroundings engine store [step] ∧
        step.request = request ∧
        ¬ (step.Atomic ∧ Bootable crates surroundings startup step.after)) := by
  refine ⟨fun initial steps runs bootable harmless => ?_, fun store request => exists_harm⟩
  induction runs with
  | nil store => exact fun step member => absurd member List.not_mem_nil
  | @cons step events rest run later inductionHypothesis =>
    have first := step_of_harmless run bootable (harmless step List.mem_cons_self)
    intro other member
    cases List.mem_cons.mp member with
    | inl here =>
      rw [here]
      exact first
    | inr there =>
      exact inductionHypothesis first.2 (fun step member => harmless step (List.mem_cons_of_mem _ member))
        other there

end Sequences

/-! ## An upstream that is gone -/

/-- Configurations of which only the address of the upstream matters. -/
def upstreamToml (addr : String) : String := "[upstream]\naddr = \"" ++ addr ++ "\"\n"

def apiHost : String := "api.internal:80"
def goneHost : String := "gone.invalid:80"

def hostSettings (host : String) : BootSettings where
  gqlUpstream := ⟨"", host⟩
  restUpstream := ⟨"", host⟩
  gqlDispatch := ⟨"nats", "127.0.0.1:4222"⟩
  restDispatch := ⟨"nats", "127.0.0.1:4222"⟩
  gqlPaths := "/gql,/graphql"
  restPaths := "/api"
  opsToDispatch := "mutation"
  upstreams := []
  idempotencyCapacity := some 1024

/-- The TOML of the two hosts is read as it is meant. -/
def hostCrates : BootCrates String where
  updateRequest := fun _ => none
  fromTomlStr := fun text => .ok (if text = upstreamToml goneHost then goneHost else apiHost)
  settings := fun _ => ⟨.responseWithFailure, [], [], none, ⟨false, 0⟩⟩
  sha256 := fun _ => ""
  bootSettings := hostSettings
  acceptsRoute := fun routes route => !routes.contains route
  hasRoomFor := fun _ => true

/-- Only one of the hosts has an address. -/
def resolveHost (host : String) : Except String (List SocketAddr) :=
  if host = apiHost then .ok ["10.0.0.1:80"] else .error "failed to lookup address information"

def hostSurroundings : Surroundings String :=
  ⟨resolveHost, fun target => resolveHost target.2,
    fun host => resolveAllUpstreamsWithTargets resolveHost (hostSettings host), fun _ => .ok ⟨[], [], [], []⟩, 1⟩

def apiStore : AdminStore := { firstVersion with persisted := some (upstreamToml apiHost) }

def goneUpdate : AdminRequest := ⟨true, [asBytes (upstreamToml goneHost)], none⟩

/-- The client gets an error, the text is persisted all the same, and the gateway does not
    start from it. -/
theorem failed_update_persists :
    Bootable hostCrates hostSurroundings ⟨apiHost, upstreamToml apiHost⟩ apiStore ∧
    ∃ step, UpdateRun hostCrates.toConfigCrates hostSurroundings connected apiStore [step] ∧
      step.request = goneUpdate ∧
      step.answer = updateNotApplied "failed to lookup address information" ∧
      step.after.persisted = some (upstreamToml goneHost) ∧ step.after ≠ step.before ∧
      ¬ Bootable hostCrates hostSurroundings ⟨apiHost, upstreamToml apiHost⟩ step.after := by
  let step : UpdateStep :=
    ⟨goneUpdate, 1, apiStore, updateNotApplied "failed to lookup address information",
      { apiStore with persisted := some (upstreamToml goneHost) }⟩
  have run : UpdateRun hostCrates.toConfigCrates hostSurroundings connected step.before [step] :=
    .cons (.call (.inl ⟨rfl, rfl⟩) (.call ⟨rfl, rfl⟩ (.ret _ _))) (.nil _)
  refine ⟨by decide +kernel, step, run, rfl, rfl, rfl, fun same => ?_, by decide +kernel⟩
  have persisted := congrArg AdminStore.persisted same
  exact absurd persisted (by decide)

end SpectraGQL.Admin
