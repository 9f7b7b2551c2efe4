import SpectraGQL.Admin.Config
import SpectraGQL.Interaction.Automaton
import SpectraGQL.Interaction.Schedule
import Mathlib.Data.List.Chain

/-! # Calls that replace the configuration, side by side

Rescans, updates and reloads load the running configuration and store another one later,
with nothing to keep them apart.  `no_lost_update` says what holds of the runs in which
every store finds the configuration that its call has loaded, and `rescan_undoes_update`
is a run in which one does not.
-/

namespace SpectraGQL.Admin

open Interaction SpectraGQL.Http SpectraGQL.Interceptors SpectraGQL.Gateway

/-- What the calls share. -/
structure AdminStore where
  state : RunningState
  persisted : Option String

/-- The two loads and stores; the config store may fail, and then does nothing. -/
def adminMeaning : Semantics adminSignature AdminStore
  | .loadState, before, answer, after => answer = before.state ∧ after = before
  | .storeState state, before, _, after => after = { before with state := state }
  | .saveConfig content, before, answer, after =>
    (answer = .ok () ∧ after = { before with persisted := some content }) ∨
      ((∃ error, answer = .error error) ∧ after = before)
  | .loadConfig, before, answer, after =>
    (answer = .ok before.persisted ∨ ∃ error, answer = .error error) ∧ after = before

inductive AdminJob (γ : Type) where
  | rescan (surroundings : Surroundings γ)
  | update (surroundings : Surroundings γ) (request : AdminRequest)
  | reload (surroundings : Surroundings γ) (request : AdminRequest)

def AdminJob.isRescan {γ : Type} : AdminJob γ → Bool
  | .rescan _ => true
  | _ => false

/-- A gateway with a running configuration and a config store. -/
def connected : AdminEngine := ⟨true, true⟩

variable {γ ι : Type}

def AdminJob.program (crates : ConfigCrates γ) : AdminJob γ → AdminProg AdminResponse
  | .rescan surroundings => rescanDns surroundings
  | .update surroundings request => handleConfigUpdate crates surroundings connected request
  | .reload surroundings request => handleConfigReload crates surroundings connected request

def adminSystem (crates : ConfigCrates γ) (jobs : ι → AdminJob γ) :
    System adminSignature ι Empty AdminStore AdminResponse where
  program thread := (jobs thread).program crates
  meaning _ := adminMeaning
  environment event := event.elim

abbrev AdminLabel (ι : Type) := Label adminSignature ι Empty AdminResponse

/-! ## What an observer keeps track of -/

/-- The two configurations, and what each call has loaded. -/
structure Ledger (ι : Type) where
  state : RunningState
  persisted : Option String
  loaded : ι → Option RunningState

variable [DecidableEq ι]

def Ledger.record (ledger : Ledger ι) : AdminLabel ι → Ledger ι
  | .perform thread ⟨.loadState, state⟩ =>
    { ledger with loaded := Function.update ledger.loaded thread (some state) }
  | .perform _ ⟨.storeState state, _⟩ => { ledger with state := state }
  | .perform _ ⟨.saveConfig content, .ok ()⟩ => { ledger with persisted := some content }
  | _ => ledger

def AdminStore.ledger (store : AdminStore) : Ledger ι := ⟨store.state, store.persisted, fun _ => none⟩

def ledgerOf (initial : AdminStore) (history : List (AdminLabel ι)) : Ledger ι :=
  history.foldl Ledger.record initial.ledger

/-- A store finds the state that its call has loaded; one that brings a new version finds its
    own configuration persisted, and there are versions left. -/
def Undisturbed (jobs : ι → AdminJob γ) (ledger : Ledger ι) : AdminLabel ι → Prop
  | .perform thread ⟨.storeState state, _⟩ =>
    ledger.loaded thread = some ledger.state ∧
      ((jobs thread).isRescan = false →
        ledger.persisted = some state.rawConfig ∧ ledger.state.version + 1 < 2 ^ 64)
  | _ => True

def AllUndisturbed (jobs : ι → AdminJob γ) : Ledger ι → List (AdminLabel ι) → Prop
  | _, [] => True
  | ledger, label :: rest =>
    Undisturbed jobs ledger label ∧ AllUndisturbed jobs (ledger.record label) rest

theorem allUndisturbed_append {jobs : ι → AdminJob γ} {ledger : Ledger ι}
    {history : List (AdminLabel ι)} {label : AdminLabel ι} :
    AllUndisturbed jobs ledger (history ++ [label]) ↔
      AllUndisturbed jobs ledger history ∧ Undisturbed jobs (history.foldl Ledger.record ledger) label := by
  induction history generalizing ledger with
  | nil => simp [AllUndisturbed]
  | cons first rest inductionHypothesis =>
    simp only [List.cons_append, AllUndisturbed, inductionHypothesis, List.foldl_cons, and_assoc]

/-- The states that were stored, the first one first. -/
def storedStates (history : List (AdminLabel ι)) : List RunningState :=
  history.filterMap fun
    | .perform _ ⟨.storeState state, _⟩ => some state
    | _ => none

/-- The versions that updates and reloads have stored. -/
def acceptedVersions (jobs : ι → AdminJob γ) (history : List (AdminLabel ι)) : List Nat :=
  history.filterMap fun
    | .perform thread ⟨.storeState state, _⟩ =>
      if (jobs thread).isRescan then none else some state.version
    | _ => none

/-- A state is newer than another, or has the same version and configuration. -/
def NotOlder (old new : RunningState) : Prop :=
  old.version < new.version ∨
    (new.version = old.version ∧ new.rawConfig = old.rawConfig ∧ new.routes = old.routes ∧
      new.interceptorManager = old.interceptorManager)

/-! ## How far a call is -/

inductive Phase where
  | fresh (rescan : Bool)
  /-- The content is persisted, and not running yet. -/
  | saved (content : String)
  | read (content : String)
  | rescanning (base : RunningState)
  | updating (content : String) (base : RunningState)
  | reloading (content : String) (base : RunningState)
  | ended

namespace Phase

/-- The state that the call has loaded. -/
def base : Phase → Option RunningState
  | rescanning base | updating _ base | reloading _ base => some base
  | _ => none

/-- The call has persisted a configuration that it is still to store. -/
def pending : Phase → Bool
  | saved _ | updating _ _ => true
  | _ => false

def allowed : Phase → AdminCall → Prop
  | fresh true, .loadState => True
  | fresh false, .saveConfig _ => True
  | fresh false, .loadConfig => True
  | saved _, .loadState => True
  | read _, .loadState => True
  | rescanning base, .storeState state =>
    state.version = base.version ∧ state.rawConfig = base.rawConfig ∧ state.routes = base.routes ∧
      state.interceptorManager = base.interceptorManager
  | updating content base, .storeState state =>
    state.rawConfig = content ∧ state.version = nextVersion base
  | reloading content base, .storeState state =>
    state.rawConfig = content ∧ state.version = nextVersion base
  | _, _ => False

def next : Phase → Event adminSignature → Phase
  | fresh true, ⟨.loadState, state⟩ => rescanning state
  | fresh false, ⟨.saveConfig content, .ok ()⟩ => saved content
  | fresh false, ⟨.loadConfig, .ok (some content)⟩ => read content
  | saved content, ⟨.loadState, state⟩ => updating content state
  | read content, ⟨.loadState, state⟩ => reloading content state
  | _, _ => ended

/-- Rescans and the other calls have phases of their own. -/
def ofKind (rescan : Bool) : Phase → Prop
  | fresh kind => kind = rescan
  | rescanning _ => rescan = true
  | saved _ | read _ | updating _ _ | reloading _ _ => rescan = false
  | ended => True

theorem ofKind_next {rescan : Bool} (phase : Phase) (event : Event adminSignature)
    (kind : phase.ofKind rescan) : (phase.next event).ofKind rescan := by
  unfold next
  split <;> simp_all [ofKind]

end Phase

def callAutomaton : Automaton adminSignature Phase := ⟨Phase.allowed, fun _ => True, Phase.next⟩

/-- An update asks for a reload, and its configuration can be built once it is parsed. -/
def AdminJob.Applies (crates : ConfigCrates γ) : AdminJob γ → Prop
  | .update surroundings request => ∀ body content reload config,
    readConfigBody request.readError [] request.chunks = .ok body →
    updateContent crates body = some (content, reload) → crates.fromTomlStr content = .ok config →
    reload = true ∧ ∀ version, (newFromConfig crates surroundings config content version).isOk
  | _ => True

/-- No configuration is left persisted and not running by a call that has ended. -/
def settled (_ : AdminResponse) (phase : Phase) : Prop := phase.pending = false

theorem obeys_hotReload {crates : ConfigCrates γ} {surroundings : Surroundings γ} {config : γ}
    {content : String} {failed : String → AdminResponse} {message : String} {start : Phase}
    (loads : ∀ state, start.next ⟨.loadState, state⟩ = .updating content state ∧
        (∀ version, (newFromConfig crates surroundings config content version).isOk) ∨
      start.next ⟨.loadState, state⟩ = .reloading content state)
    (mayLoad : start.allowed .loadState) :
    (hotReload crates surroundings config content failed message).Obeys callAutomaton settled start := by
  refine ⟨mayLoad, fun prev _ => ?_⟩
  simp only [Prog.bind, callAutomaton]
  cases built : newFromConfig crates surroundings config content (nextVersion prev) with
  | ok newState =>
    obtain ⟨raw, version⟩ := newFromConfig_eq_ok built
    rcases loads prev with ⟨phase, -⟩ | phase
    · rw [phase]
      exact ⟨⟨raw, version⟩, fun _ _ => rfl⟩
    · rw [phase]
      exact ⟨⟨raw, version⟩, fun _ _ => rfl⟩
  | error error =>
    rcases loads prev with ⟨-, builds⟩ | phase
    · have ok := builds (nextVersion prev)
      rw [built] at ok
      cases ok
    · rw [phase]
      exact rfl

theorem obeys_rescanDns (surroundings : Surroundings γ) :
    (rescanDns surroundings).Obeys callAutomaton settled (.fresh true) := by
  refine ⟨trivial, fun current _ => ?_⟩
  show Prog.Obeys callAutomaton settled (if _ then _ else _) (.rescanning current)
  split
  · exact ⟨⟨rfl, rfl, rfl, rfl⟩, fun _ _ => rfl⟩
  · exact rfl

theorem obeys_handleConfigUpdate {crates : ConfigCrates γ} {surroundings : Surroundings γ}
    {request : AdminRequest} (applies : (AdminJob.update surroundings request).Applies crates) :
    (handleConfigUpdate crates surroundings connected request).Obeys callAutomaton settled
      (.fresh false) := by
  unfold handleConfigUpdate
  split
  · exact rfl
  cases read : readConfigBody request.readError [] request.chunks with
  | error error => exact rfl
  | ok body =>
    dsimp only
    cases isUpdate : updateContent crates body with
    | none => exact rfl
    | some update =>
      obtain ⟨content, reload⟩ := update
      dsimp only
      cases parsed : crates.fromTomlStr content with
      | error error => exact rfl
      | ok config =>
        obtain ⟨rfl, builds⟩ := applies body content reload config read isUpdate parsed
        refine ⟨trivial, fun answer _ => ?_⟩
        cases answer with
        | error error => exact rfl
        | ok saved => exact obeys_hotReload (fun state => .inl ⟨rfl, builds⟩) trivial

theorem obeys_handleConfigReload (crates : ConfigCrates γ) (surroundings : Surroundings γ)
    (request : AdminRequest) :
    (handleConfigReload crates surroundings connected request).Obeys callAutomaton settled
      (.fresh false) := by
  unfold handleConfigReload
  split
  · exact rfl
  refine ⟨trivial, fun answer _ => ?_⟩
  cases answer with
  | error error => exact rfl
  | ok persisted =>
    cases persisted with
    | none => exact rfl
    | some content =>
      simp only [Prog.bind]
      cases crates.fromTomlStr content with
      | error error => exact rfl
      | ok config => exact obeys_hotReload (fun state => .inr rfl) trivial

theorem obeys_program {crates : ConfigCrates γ} (job : AdminJob γ) (applies : job.Applies crates) :
    (job.program crates).Obeys callAutomaton settled (.fresh job.isRescan) := by
  cases job with
  | rescan surroundings => exact obeys_rescanDns surroundings
  | update surroundings request => exact obeys_handleConfigUpdate applies
  | reload surroundings request => exact obeys_handleConfigReload crates surroundings request

/-! ## Undisturbed runs -/

section Runs

variable {crates : ConfigCrates γ} {jobs : ι → AdminJob γ} {initial : AdminStore}

abbrev AdminConfig (ι : Type) := Config adminSignature ι Empty AdminStore AdminResponse

/-- How far a call is in a history. -/
def phaseIn (jobs : ι → AdminJob γ) (history : List (AdminLabel ι)) (thread : ι) : Phase :=
  callAutomaton.phaseOf (.fresh (jobs thread).isRescan) thread history

theorem phaseIn_perform (history : List (AdminLabel ι)) (thread : ι) (event : Event adminSignature) :
    phaseIn jobs (history ++ [.perform thread event]) thread = (phaseIn jobs history thread).next event := by
  unfold phaseIn
  rw [Automaton.phaseOf_append]
  simp [Automaton.follow, callAutomaton]

theorem phaseIn_other {history : List (AdminLabel ι)} {label : AdminLabel ι} {thread : ι}
    (other : label.thread? ≠ some thread) :
    phaseIn jobs (history ++ [label]) thread = phaseIn jobs history thread := by
  unfold phaseIn
  rw [Automaton.phaseOf_append, Automaton.follow_other _ _ other]

theorem phaseIn_ofKind (jobs : ι → AdminJob γ) (history : List (AdminLabel ι)) (thread : ι) :
    (phaseIn jobs history thread).ofKind (jobs thread).isRescan :=
  callAutomaton.phaseOf_induction (Phase.ofKind (jobs thread).isRescan)
    (fun phase event kind => Phase.ofKind_next phase event kind)
    (show (Phase.fresh (jobs thread).isRescan).ofKind (jobs thread).isRescan from rfl) thread history

theorem phaseIn_quiet {history : List (AdminLabel ι)} {label : AdminLabel ι}
    (quiet : ∀ thread event, label ≠ .perform thread event) (thread : ι) :
    phaseIn jobs (history ++ [label]) thread = phaseIn jobs history thread := by
  unfold phaseIn
  rw [Automaton.phaseOf_append]
  cases label with
  | perform other event => exact absurd rfl (quiet other event)
  | start _ | finish _ _ | environment _ => rfl

theorem ledgerOf_append (history : List (AdminLabel ι)) (label : AdminLabel ι) :
    ledgerOf initial (history ++ [label]) = (ledgerOf initial history).record label := by
  simp [ledgerOf]

theorem obeys_of_running (applies : ∀ thread, (jobs thread).Applies crates)
    {config : AdminConfig ι} (reaches : (adminSystem crates jobs).Reaches initial config) {thread : ι}
    {program : AdminProg AdminResponse} (running : config.threads thread = .running program) :
    program.Obeys callAutomaton settled (phaseIn jobs config.moment.history thread) :=
  reaches.obeys (obeys_program (jobs thread) (applies thread)) (fun _ => trivial) running

/-- A call of a running job is one that its phase allows. -/
theorem allowed_of_running (applies : ∀ thread, (jobs thread).Applies crates)
    {config : AdminConfig ι} (reaches : (adminSystem crates jobs).Reaches initial config) {thread : ι}
    {request : AdminCall} {next : request.Answer → AdminProg AdminResponse}
    (running : config.threads thread = .running (.call request next)) :
    (phaseIn jobs config.moment.history thread).allowed request := by
  have obeys := obeys_of_running applies reaches running
  exact obeys.1

/-! ### The ledger is right -/

/-- The ledger of a run has the shared configurations, and what each call has loaded. -/
structure Tracked (jobs : ι → AdminJob γ) (initial : AdminStore) (config : AdminConfig ι) : Prop where
  state : (ledgerOf initial config.moment.history).state = config.moment.shared.state
  persisted : (ledgerOf initial config.moment.history).persisted = config.moment.shared.persisted
  loaded : ∀ thread base, (phaseIn jobs config.moment.history thread).base = some base →
    (ledgerOf initial config.moment.history).loaded thread = some base

theorem Tracked.quiet {config : AdminConfig ι} (tracked : Tracked jobs initial config)
    {threads : ι → Thread adminSignature AdminResponse} {label : AdminLabel ι}
    (quiet : ∀ thread event, label ≠ .perform thread event) :
    Tracked jobs initial ⟨threads, config.moment.push config.moment.shared label⟩ := by
  have same : ledgerOf initial (config.moment.history ++ [label]) =
      ledgerOf initial config.moment.history := by
    rw [ledgerOf_append]
    cases label with
    | perform other event => exact absurd rfl (quiet other event)
    | start _ | finish _ _ | environment _ => rfl
  refine ⟨?_, ?_, fun thread base found => ?_⟩
  · rw [Moment.push_history, same]
    exact tracked.state
  · rw [Moment.push_history, same]
    exact tracked.persisted
  · rw [Moment.push_history, phaseIn_quiet quiet] at found
    rw [Moment.push_history, same]
    exact tracked.loaded thread base found

/-- The phase after a call, of the caller and of the others. -/
theorem phaseIn_cases (jobs : ι → AdminJob γ) {history : List (AdminLabel ι)} (thread other : ι)
    (event : Event adminSignature) :
    (other = thread ∧ phaseIn jobs (history ++ [.perform thread event]) other =
      (phaseIn jobs history thread).next event) ∨
    (other ≠ thread ∧ phaseIn jobs (history ++ [.perform thread event]) other =
      phaseIn jobs history other) := by
  by_cases same : other = thread
  · subst same
    exact .inl ⟨rfl, phaseIn_perform history other event⟩
  · refine .inr ⟨same, phaseIn_other ?_⟩
    simpa [Label.thread?] using Ne.symm same

/-- Only loading gives a call a state to work on. -/
theorem Phase.base_next {phase : Phase} {event : Event adminSignature} {base : RunningState}
    (found : (phase.next event).base = some base) : event = ⟨.loadState, base⟩ := by
  unfold Phase.next at found
  split at found <;> cases found <;> rfl

theorem tracked_of_reaches {config : AdminConfig ι}
    (reaches : (adminSystem crates jobs).Reaches initial config) : Tracked jobs initial config := by
  induction reaches with
  | initial => exact ⟨rfl, rfl, fun thread base found => nomatch found⟩
  | @step config config' label earlier step inductionHypothesis =>
    cases step with
    | start idle => exact inductionHypothesis.quiet (by simp)
    | finish running => exact inductionHypothesis.quiet (by simp)
    | @environment event shared effect => exact event.elim
    | @perform thread request next answer shared running effect =>
      have loaded : ∀ other base, (phaseIn jobs (config.moment.history ++
          [.perform thread ⟨request, answer⟩]) other).base = some base →
          ((ledgerOf initial config.moment.history).record
            (.perform thread ⟨request, answer⟩)).loaded other = some base := by
        intro other base found
        rcases phaseIn_cases jobs thread other ⟨request, answer⟩ with ⟨rfl, phase⟩ | ⟨different, phase⟩
        · -- what a call works on it has just loaded
          rw [phase] at found
          cases Phase.base_next found
          simp [Ledger.record]
        · rw [phase] at found
          have kept := inductionHypothesis.loaded other base found
          cases request with
          | loadState => simpa [Ledger.record, different] using kept
          | storeState _ => exact kept
          | loadConfig => exact kept
          | saveConfig content =>
            cases answer with
            | ok _ => exact kept
            | error _ => exact kept
      have shares : ((ledgerOf initial config.moment.history).record
          (.perform thread ⟨request, answer⟩)).state = shared.state ∧
          ((ledgerOf initial config.moment.history).record
            (.perform thread ⟨request, answer⟩)).persisted = shared.persisted := by
        cases request with
        | loadState =>
          obtain ⟨-, rfl⟩ := effect
          exact ⟨inductionHypothesis.state, inductionHypothesis.persisted⟩
        | storeState state =>
          cases effect
          exact ⟨rfl, inductionHypothesis.persisted⟩
        | loadConfig =>
          obtain ⟨-, rfl⟩ := effect
          exact ⟨inductionHypothesis.state, inductionHypothesis.persisted⟩
        | saveConfig content =>
          rcases effect with ⟨rfl, rfl⟩ | ⟨⟨error, rfl⟩, rfl⟩
          · exact ⟨inductionHypothesis.state, rfl⟩
          · exact ⟨inductionHypothesis.state, inductionHypothesis.persisted⟩
      refine ⟨?_, ?_, ?_⟩
      · rw [Moment.push_history, ledgerOf_append]
        exact shares.1
      · rw [Moment.push_history, ledgerOf_append]
        exact shares.2
      · rw [Moment.push_history, ledgerOf_append]
        exact loaded

/-! ### Versions only grow -/

/-- The states stored so far are in order, and the running one is the last of them. -/
structure Ordered (jobs : ι → AdminJob γ) (initial : AdminStore) (config : AdminConfig ι) : Prop where
  chain : (initial.state :: storedStates config.moment.history).IsChain NotOlder
  last : (initial.state :: storedStates config.moment.history).getLast? =
    some config.moment.shared.state
  versions : (initial.state.version :: acceptedVersions jobs config.moment.history).Pairwise (· < ·)
  latest : ∀ version ∈ initial.state.version :: acceptedVersions jobs config.moment.history,
    version ≤ config.moment.shared.state.version

omit [DecidableEq ι] in
theorem storedStates_append (history : List (AdminLabel ι)) (label : AdminLabel ι) :
    storedStates (history ++ [label]) = storedStates history ++ storedStates [label] :=
  List.filterMap_append ..

omit [DecidableEq ι] in
theorem acceptedVersions_append (history : List (AdminLabel ι)) (label : AdminLabel ι) :
    acceptedVersions jobs (history ++ [label]) =
      acceptedVersions jobs history ++ acceptedVersions jobs [label] :=
  List.filterMap_append ..

omit [DecidableEq ι] in
/-- A step that stores no state keeps the order. -/
theorem Ordered.skip {config : AdminConfig ι} (ordered : Ordered jobs initial config)
    {threads : ι → Thread adminSignature AdminResponse} {shared : AdminStore} {label : AdminLabel ι}
    (noStore : ∀ thread state answer, label ≠ .perform thread ⟨.storeState state, answer⟩)
    (same : shared.state = config.moment.shared.state) :
    Ordered jobs initial ⟨threads, config.moment.push shared label⟩ := by
  have nothing : storedStates [label] = [] ∧ acceptedVersions jobs [label] = [] := by
    cases label with
    | start _ | finish _ _ | environment _ => exact ⟨rfl, rfl⟩
    | perform thread event =>
      obtain ⟨call, answer⟩ := event
      cases call with
      | storeState state => exact absurd rfl (noStore thread state answer)
      | loadState | saveConfig _ | loadConfig => exact ⟨rfl, rfl⟩
  obtain ⟨chain, last, versions, latest⟩ := ordered
  constructor
  all_goals
    simp only [Moment.push_history, Moment.push_shared, storedStates_append, acceptedVersions_append,
      nothing.1, nothing.2, List.append_nil, same]
    assumption

omit [DecidableEq ι] in
/-- A state that is not older is stored. -/
theorem Ordered.store {config : AdminConfig ι} (ordered : Ordered jobs initial config)
    {threads : ι → Thread adminSignature AdminResponse} {thread : ι} {state : RunningState}
    {answer : Unit} (notOlder : NotOlder config.moment.shared.state state)
    (newVersion : (jobs thread).isRescan = false →
      config.moment.shared.state.version < state.version) :
    Ordered jobs initial ⟨threads, config.moment.push { config.moment.shared with state := state }
      (.perform thread ⟨.storeState state, answer⟩)⟩ := by
  obtain ⟨chain, last, versions, latest⟩ := ordered
  have grows : config.moment.shared.state.version ≤ state.version := by
    rcases notOlder with newer | ⟨same, -⟩ <;> omega
  have accepted : acceptedVersions jobs [(.perform thread ⟨.storeState state, answer⟩ : AdminLabel ι)] =
      if (jobs thread).isRescan then [] else [state.version] := by
    cases isRescan : (jobs thread).isRescan <;> simp [acceptedVersions, isRescan]
  have stored : storedStates [(.perform thread ⟨.storeState state, answer⟩ : AdminLabel ι)] = [state] := rfl
  -- the new state is appended to the chain, and its version to those accepted unless it is a rescan's
  refine ⟨?_, ?_, ?_, ?_⟩
  · rw [Moment.push_history, storedStates_append, stored, ← List.cons_append, List.isChain_append]
    refine ⟨chain, List.isChain_singleton state, ?_⟩
    intro earlier isLast later isFirst
    rw [last] at isLast
    cases isLast
    cases isFirst
    exact notOlder
  · rw [Moment.push_history, storedStates_append, stored, ← List.cons_append, List.getLast?_concat]
    rfl
  · rw [Moment.push_history, acceptedVersions_append, accepted, ← List.cons_append]
    cases isRescan : (jobs thread).isRescan with
    | true => simpa using versions
    | false =>
      simp only [Bool.false_eq_true, if_false]
      refine List.pairwise_append.mpr ⟨versions, List.pairwise_singleton .., ?_⟩
      intro version earlier new isNew
      rw [List.mem_singleton.mp isNew]
      exact lt_of_le_of_lt (latest version earlier) (newVersion isRescan)
  · rw [Moment.push_history, acceptedVersions_append, accepted, ← List.cons_append]
    intro version member
    rcases List.mem_append.mp member with earlier | new
    · exact (latest version earlier).trans grows
    · cases isRescan : (jobs thread).isRescan <;> simp [isRescan] at new
      exact le_of_eq new

/-- What an undisturbed store puts in place of the running state. -/
theorem store_undisturbed (applies : ∀ thread, (jobs thread).Applies crates) {config : AdminConfig ι}
    (reaches : (adminSystem crates jobs).Reaches initial config) {thread : ι} {state : RunningState}
    {answer : Unit} {next : Unit → AdminProg AdminResponse}
    (running : config.threads thread = .running (.call (.storeState state) next))
    (undisturbed : Undisturbed jobs (ledgerOf initial config.moment.history)
      (.perform thread ⟨.storeState state, answer⟩)) :
    ((jobs thread).isRescan = true ∧
      (phaseIn jobs config.moment.history thread).pending = false ∧
      state.version = config.moment.shared.state.version ∧
      state.rawConfig = config.moment.shared.state.rawConfig ∧
      state.routes = config.moment.shared.state.routes ∧
      state.interceptorManager = config.moment.shared.state.interceptorManager) ∨
    ((jobs thread).isRescan = false ∧
      state.version = config.moment.shared.state.version + 1 ∧
      config.moment.shared.persisted = some state.rawConfig) := by
  have tracked := tracked_of_reaches reaches
  have allowed := allowed_of_running applies reaches running
  have kind := phaseIn_ofKind jobs config.moment.history thread
  have loaded := tracked.loaded thread
  obtain ⟨unchanged, brings⟩ := undisturbed
  rw [tracked.state] at unchanged brings
  rw [tracked.persisted] at brings
  cases phase : phaseIn jobs config.moment.history thread with
  | rescanning base =>
    -- undisturbed: what was loaded is what runs when it is replaced
    rw [phase] at allowed kind loaded
    have same : base = config.moment.shared.state :=
      Option.some.inj ((loaded base rfl).symm.trans unchanged)
    subst same
    exact .inl ⟨kind, rfl, allowed⟩
  | updating content base | reloading content base =>
    rw [phase] at allowed kind loaded
    have same : base = config.moment.shared.state :=
      Option.some.inj ((loaded base rfl).symm.trans unchanged)
    subst same
    obtain ⟨ownPersisted, versionsLeft⟩ := brings kind
    have version : state.version = _ := allowed.2
    unfold nextVersion at version
    rw [Nat.mod_eq_of_lt versionsLeft] at version
    exact .inr ⟨kind, version, ownPersisted⟩
  | fresh rescan =>
    rw [phase] at allowed
    cases rescan <;> cases allowed
  | saved content | read content | ended =>
    rw [phase] at allowed
    cases allowed

theorem ordered_of_reaches (applies : ∀ thread, (jobs thread).Applies crates) {config : AdminConfig ι}
    (reaches : (adminSystem crates jobs).Reaches initial config)
    (undisturbed : AllUndisturbed jobs initial.ledger config.moment.history) :
    Ordered jobs initial config := by
  induction reaches with
  | initial => exact ⟨List.isChain_singleton _, rfl, List.pairwise_singleton ..,
      by simp [acceptedVersions, System.initial]⟩
  | @step config config' label earlier step inductionHypothesis =>
    rw [step.history_eq, allUndisturbed_append] at undisturbed
    have ordered := inductionHypothesis undisturbed.1
    cases step with
    | start idle => exact ordered.skip (by simp) rfl
    | finish running => exact ordered.skip (by simp) rfl
    | @environment event shared effect => exact event.elim
    | @perform thread request next answer shared running effect =>
      cases request with
      | loadState =>
        obtain ⟨-, rfl⟩ := effect
        exact ordered.skip (by simp) rfl
      | loadConfig =>
        obtain ⟨-, rfl⟩ := effect
        exact ordered.skip (by simp) rfl
      | saveConfig content =>
        rcases effect with ⟨-, rfl⟩ | ⟨-, rfl⟩ <;> exact ordered.skip (by simp) rfl
      | storeState state =>
        cases effect
        -- a rescan keeps the version, every other store has a new one
        rcases store_undisturbed applies earlier running undisturbed.2 with
          ⟨isRescan, -, version, raw, routes, interceptors⟩ | ⟨-, version, -⟩
        · exact ordered.store (.inr ⟨version, raw, routes, interceptors⟩)
            (fun notRescan => by rw [isRescan] at notRescan; cases notRescan)
        · exact ordered.store (.inl (by omega)) (fun _ => by omega)

/-! ### The persisted configuration is running -/

/-- The persisted configuration is running, or in the hands of a call that is still to store it. -/
def Agrees (jobs : ι → AdminJob γ) (config : AdminConfig ι) : Prop :=
  config.moment.shared.persisted = some config.moment.shared.state.rawConfig ∨
    ∃ thread program, config.threads thread = .running program ∧
      (phaseIn jobs config.moment.history thread).pending = true

/-- A step of a call that holds nothing, and leaves both configurations in agreement. -/
theorem Agrees.step_other {config config' : AdminConfig ι} (agrees : Agrees jobs config)
    {label : AdminLabel ι} {thread : ι} (step : (adminSystem crates jobs).Step config label config')
    (mine : label.thread? = some thread)
    (idle : ∀ program, config.threads thread = .running program →
      (phaseIn jobs config.moment.history thread).pending = false)
    (keeps : config.moment.shared.persisted = some config.moment.shared.state.rawConfig →
      config'.moment.shared.persisted = some config'.moment.shared.state.rawConfig) :
    Agrees jobs config' := by
  rcases agrees with agreed | ⟨holder, program, running, pending⟩
  · exact .inl (keeps agreed)
  · have other : label.thread? ≠ some holder := by
      rw [mine]
      rintro ⟨rfl⟩
      rw [idle program running] at pending
      cases pending
    refine .inr ⟨holder, program, (step.threads_eq other).trans running, ?_⟩
    rw [step.history_eq, phaseIn_other other]
    exact pending

/-- A call that loads the running state keeps what it holds. -/
theorem Phase.pending_next_load {phase : Phase} (state : RunningState)
    (allowed : phase.allowed .loadState) : (phase.next ⟨.loadState, state⟩).pending = phase.pending := by
  cases phase with
  | fresh rescan => cases rescan <;> rfl
  | saved _ | read _ => rfl
  | rescanning _ | updating _ _ | reloading _ _ | ended => cases allowed

theorem Phase.not_pending_of_allowed {phase : Phase} (content : String)
    (allowed : phase.allowed (.saveConfig content) ∨ phase.allowed .loadConfig) :
    phase.pending = false := by
  cases phase with
  | fresh rescan => rfl
  | saved _ | read _ | rescanning _ | updating _ _ | reloading _ _ | ended =>
    rcases allowed with save | load
    · cases save
    · cases load

theorem agrees_of_reaches (applies : ∀ thread, (jobs thread).Applies crates) {config : AdminConfig ι}
    (agreed : initial.persisted = some initial.state.rawConfig)
    (reaches : (adminSystem crates jobs).Reaches initial config)
    (undisturbed : AllUndisturbed jobs initial.ledger config.moment.history) : Agrees jobs config := by
  induction reaches with
  | initial => exact .inl agreed
  | @step config config' label earlier taken inductionHypothesis =>
    rw [taken.history_eq, allUndisturbed_append] at undisturbed
    have agrees := inductionHypothesis undisturbed.1
    have step := taken
    cases taken with
    | @start thread idle =>
      refine agrees.step_other step rfl (fun program running => ?_) id
      rw [idle] at running
      cases running
    | @finish thread value running =>
      -- a call that returns holds nothing any more
      refine agrees.step_other step rfl (fun program same => ?_) id
      have obeys := obeys_of_running applies earlier running
      exact obeys
    | @environment event shared effect => exact event.elim
    | @perform thread request next answer shared running effect =>
      have allowed := allowed_of_running applies earlier running
      cases request with
      | loadState =>
        obtain ⟨rfl, rfl⟩ := effect
        rcases agrees with same | ⟨holder, program, held, pending⟩
        · exact .inl same
        · refine .inr ?_
          rcases phaseIn_cases jobs thread holder ⟨.loadState, config.moment.shared.state⟩ with
            ⟨rfl, phase⟩ | ⟨different, phase⟩
          · refine ⟨holder, next config.moment.shared.state, Function.update_self .., ?_⟩
            rw [step.history_eq, phase, Phase.pending_next_load _ allowed]
            exact pending
          · refine ⟨holder, program, (Function.update_of_ne different ..).trans held, ?_⟩
            rw [step.history_eq, phase]
            exact pending
      | loadConfig =>
        obtain ⟨-, rfl⟩ := effect
        exact agrees.step_other step rfl
          (fun _ _ => Phase.not_pending_of_allowed "" (.inr allowed)) id
      | saveConfig content =>
        have idle := Phase.not_pending_of_allowed content (.inl allowed)
        rcases effect with ⟨rfl, rfl⟩ | ⟨⟨error, rfl⟩, rfl⟩
        · -- now the caller holds the content
          refine .inr ⟨thread, next (.ok ()), Function.update_self .., ?_⟩
          rw [step.history_eq, phaseIn_perform]
          have kind := phaseIn_ofKind jobs config.moment.history thread
          cases phase : phaseIn jobs config.moment.history thread with
          | fresh rescan =>
            rw [phase] at allowed
            cases rescan with
            | true => cases allowed
            | false => rfl
          | saved _ | read _ | rescanning _ | updating _ _ | reloading _ _ | ended =>
            rw [phase] at allowed
            cases allowed
        · exact agrees.step_other step rfl (fun _ _ => idle) id
      | storeState state =>
        cases effect
        rcases store_undisturbed applies earlier running undisturbed.2 with
          ⟨-, idle, -, raw, -, -⟩ | ⟨-, -, persisted⟩
        · refine agrees.step_other step rfl (fun _ _ => idle) fun same => ?_
          exact same.trans (congrArg some raw.symm)
        · exact .inl persisted

end Runs

/-! ## Lost updates -/

/-- In a run in which every store is undisturbed: the versions that updates and reloads store
    grow strictly, no state is replaced by an older one, and once all calls have ended the
    persisted configuration is running. -/
theorem no_lost_update (crates : ConfigCrates γ) (jobs : ι → AdminJob γ) (initial : AdminStore)
    (config : AdminConfig ι) (applies : ∀ thread, (jobs thread).Applies crates)
    (agreed : initial.persisted = some initial.state.rawConfig)
    (reaches : (adminSystem crates jobs).Reaches initial config)
    (undisturbed : AllUndisturbed jobs initial.ledger config.moment.history) :
    (initial.state.version :: acceptedVersions jobs config.moment.history).Pairwise (· < ·) ∧
    (initial.state :: storedStates config.moment.history).IsChain NotOlder ∧
    (initial.state :: storedStates config.moment.history).getLast? =
      some config.moment.shared.state ∧
    ((∀ thread program, config.threads thread ≠ .running program) →
      config.moment.shared.persisted = some config.moment.shared.state.rawConfig) := by
  have ordered := ordered_of_reaches applies reaches undisturbed
  refine ⟨ordered.versions, ordered.chain, ordered.last, fun ended => ?_⟩
  rcases agrees_of_reaches applies agreed reaches undisturbed with same | ⟨thread, program, running, -⟩
  · exact same
  · exact absurd running (ended thread program)

/-! ## A rescan and an update -/

/-- Runs in which the config store never fails. -/
def adminScheduler (crates : ConfigCrates γ) (jobs : ι → AdminJob γ) :
    Scheduler (adminSystem crates jobs) Unit where
  answer := fun _ _ call store =>
    match call with
    | .loadState => some (store.state, store)
    | .storeState state => some ((), { store with state := state })
    | .saveConfig content => some (.ok (), { store with persisted := some content })
    | .loadConfig => some (.ok store.persisted, store)
  event := fun event => event.elim
  answer_sound := by
    intro _ thread call before result answered
    cases call with
    | loadState =>
      cases answered
      exact ⟨rfl, rfl⟩
    | storeState state =>
      cases answered
      rfl
    | saveConfig content =>
      cases answered
      exact .inl ⟨rfl, rfl⟩
    | loadConfig =>
      cases answered
      exact ⟨.inl rfl, rfl⟩
  event_sound := fun event => event.elim

def plainCrates : ConfigCrates Unit :=
  ⟨fun _ => some ("v2", true), fun _ => .ok (), fun _ => ⟨.none, [], [], none, ⟨false, 0⟩⟩, fun _ => ""⟩

/-- The host of the only upstream has moved. -/
def movedHost : Surroundings Unit :=
  ⟨fun _ => .ok ["10.0.0.2:80"], fun _ => .ok ["10.0.0.2:80"],
    fun _ => .ok ([("api", "10.0.0.2:80")], [("api", "api:80")]), fun _ => .ok ⟨[], [], [], []⟩, 1⟩

def firstVersion : AdminStore where
  state :=
    { namedUpstreams := [("api", "10.0.0.1:80")], dispatchPolicy := .none, routes := [], apps := []
      defaultApp := none, interceptorManager := ⟨[], [], [], []⟩, errorCapture := ⟨false, 0⟩
      upstreamTargets := [("api", "api:80")], rawConfig := "v1", version := 1
      updatedAtEpochMs := 0, configHash := "" }
  persisted := some "v1"

/-- Call 0 rescans, call 1 updates the configuration to `v2`. -/
def rescanAndUpdate : Fin 2 → AdminJob Unit
  | 0 => .rescan movedHost
  | 1 => .update movedHost ⟨true, [], none⟩

theorem rescanAndUpdate_applies : ∀ thread, (rescanAndUpdate thread).Applies plainCrates := by
  intro thread
  match thread with
  | 0 => trivial
  | 1 =>
    rintro body content reload config - isUpdate -
    cases isUpdate
    exact ⟨rfl, fun _ => rfl⟩

theorem no_lost_update_in_turn : ∃ config,
    (adminSystem plainCrates rescanAndUpdate).Reaches firstVersion config ∧
      config.moment.shared.persisted = some "v2" ∧ config.moment.shared.state.version = 2 ∧
      (firstVersion.state :: storedStates config.moment.history).IsChain NotOlder := by
  have run : ∃ config, (adminSystem plainCrates rescanAndUpdate).Reaches firstVersion config ∧
      AllUndisturbed rescanAndUpdate firstVersion.ledger config.moment.history ∧
      config.moment.shared.persisted = some "v2" ∧ config.moment.shared.state.version = 2 :=
    ⟨_, (adminScheduler plainCrates rescanAndUpdate).run_reaches
      ([1, 1, 1, 1, 1, 0, 0, 0].map fun thread => .thread thread ()) .initial rfl,
      ⟨trivial, trivial, trivial, ⟨rfl, fun _ => ⟨rfl, by decide⟩⟩, trivial, trivial, trivial, trivial,
        trivial⟩, rfl, rfl⟩
  obtain ⟨config, reaches, undisturbed, persisted, version⟩ := run
  exact ⟨config, reaches, persisted, version, (no_lost_update plainCrates rescanAndUpdate firstVersion
    config rescanAndUpdate_applies rfl reaches undisturbed).2.1⟩

/-- The rescan loads the running state, the update is made in full, and the rescan stores. -/
theorem rescan_undoes_update : ∃ config,
    (adminSystem plainCrates rescanAndUpdate).Reaches firstVersion config ∧
      (∀ thread, ∃ response, config.threads thread = .finished response) ∧
      acceptedVersions rescanAndUpdate config.moment.history = [2] ∧
      config.moment.shared.state.version = 1 ∧ config.moment.shared.state.rawConfig = "v1" ∧
      config.moment.shared.persisted = some "v2" := by
  refine ⟨_, (adminScheduler plainCrates rescanAndUpdate).run_reaches
    ([0, 0, 1, 1, 1, 1, 1, 0, 0].map fun thread => .thread thread ()) .initial rfl, ?_, rfl, rfl, rfl,
    rfl⟩
  intro thread
  match thread with
  | 0 => exact ⟨_, rfl⟩
  | 1 => exact ⟨_, rfl⟩

end SpectraGQL.Admin
