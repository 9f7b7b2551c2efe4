import SpectraGQL.Admin.Console
import SpectraGQL.Admin.Reload
import SpectraGQL.Admin.Update

/-! # Where the configuration comes from

Any number of requests of any kind come to the console at the same time, and a thread follows the
hosts meanwhile.  `configuration_provenance` says that whatever is persisted or runs then has been
there from the start or has been brought by a request that was entitled to: from an allowed address,
with the token, and not with `GET`.  The thread that follows the hosts changes addresses only.
-/

namespace SpectraGQL.Admin

open Interaction SpectraGQL.Http SpectraGQL.Interceptors SpectraGQL.Gateway

variable {Program Evaluator Module ρ ι : Type}

inductive ConsoleJob where
  | serve (moment : ConsoleMoment) (request : ConsoleRequest)
  /-- One round of the `spectra-dns-refresher` thread. -/
  | refresh (moment : ConsoleMoment)

def ConsoleJob.program (matchit : Matchit ρ) (engines : Engines Program Evaluator Module) (console : Console ρ) :
    ConsoleJob → AdminProg ConsoleAnswer
  | .serve moment request => console.handleRequest matchit engines moment request
  | .refresh moment => do
    let response ← rescanDns (moment.surroundings engines)
    return .admin response

def consoleSystem (matchit : Matchit ρ) (engines : Engines Program Evaluator Module) (console : Console ρ)
    (jobs : ι → ConsoleJob) : System adminSignature ι Empty AdminStore ConsoleAnswer where
  program thread := (jobs thread).program matchit engines console
  meaning _ := adminMeaning
  environment event := event.elim

abbrev ConsoleLabel (ι : Type) := Label adminSignature ι Empty ConsoleAnswer

abbrev ConsoleState (ι : Type) := Moment adminSignature ι Empty AdminStore ConsoleAnswer

/-! ## Who may write -/

structure MayWrite (console : Console ρ) (request : ConsoleRequest) : Prop where
  address : isIpAllowed (extractClientIp request.session) console.config.allowedIps = true
  method : request.method = .post ∨ request.method = .put
  token : authRequired (expectedToken console.env console.config) = false ∨
    Presents (expectedToken console.env console.config) request.session.headers

def AdminCall.isWrite : AdminCall → Bool
  | .storeState _ | .saveConfig _ => true
  | .loadState | .loadConfig => false

/-- Who follows the hosts never persists anything. -/
def Entitled (console : Console ρ) (call : AdminCall) : ConsoleJob → Prop
  | .serve _ request => MayWrite console request
  | .refresh _ => ∃ state, call = .storeState state

/-- Only who may write hears of more than the missing token. -/
abbrev WrittenRightly (console : Console ρ) (request : ConsoleRequest) (response : AdminResponse) : Prop :=
  response = unauthorized ∨ MayWrite console request

/-- What a client is told: strangers are shut out, and a handler that writes tells of success only
    who may write. -/
structure ToldRightly (console : Console ρ) (request : ConsoleRequest) (answer : ConsoleAnswer) : Prop where
  stranger : isIpAllowed (extractClientIp request.session) console.config.allowedIps = false →
    answer = .forbidden (extractClientIp request.session)
  written : ∀ response, answer = .admin response → WrittenRightly console request response

/-- An answer that comes from no handler that writes. -/
def ConsoleAnswer.isPage : ConsoleAnswer → Bool
  | .admin _ => false
  | _ => true

def ConsoleJob.Told (console : Console ρ) (answer : ConsoleAnswer) : ConsoleJob → Prop
  | .serve _ request => ToldRightly console request answer
  | .refresh _ => True

/-! ## Where it comes from -/

/-- The same configuration, its hosts elsewhere. -/
def MovedFrom (first state : RunningState) : Prop :=
  state = { first with namedUpstreams := state.namedUpstreams, updatedAtEpochMs := state.updatedAtEpochMs }

theorem MovedFrom.refl (state : RunningState) : MovedFrom state state := rfl

theorem MovedFrom.move {first state : RunningState} (moved : MovedFrom first state)
    (upstreams : List (String × SocketAddr)) (nowMs : Nat) :
    MovedFrom first { state with namedUpstreams := upstreams, updatedAtEpochMs := nowMs } := by
  unfold MovedFrom at moved ⊢
  rw [moved]

section Sources

variable (engines : Engines Program Evaluator Module) (console : Console ρ) (jobs : ι → ConsoleJob)
  (initial : AdminStore)

/-- A request that may write has come in by then. -/
structure Admitted (history : List (ConsoleLabel ι)) (moment : ConsoleMoment) (request : ConsoleRequest) : Prop where
  made : ∃ thread, jobs thread = .serve moment request ∧ .start thread ∈ history
  mayWrite : MayWrite console request

/-- The text is what the body of the request asks for, and a configuration. -/
structure Brings (texts : ConfigTexts) (request : ConsoleRequest) (text : String) : Prop where
  content : ∃ body reload, readConfigBody request.readError [] request.chunks = .ok body ∧
    updateContent texts.crates body = some (text, reload)
  parses : ∃ config, texts.fromTomlStr text = .ok config

/-- What may be persisted: what was, or what a request has brought that may write. -/
def Authentic (history : List (ConsoleLabel ι)) (persisted : Option String) : Prop :=
  persisted = initial.persisted ∨ ∃ text moment request, persisted = some text ∧
    Admitted console jobs history moment request ∧ Brings moment.texts request text

/-- What may run, wherever the hosts are: what did, or what a request that may write has built
    from an authentic text. -/
def Sourced (history : List (ConsoleLabel ι)) (state : RunningState) : Prop :=
  MovedFrom initial.state state ∨ ∃ text moment request config version built,
    Authentic console jobs initial history (some text) ∧ Admitted console jobs history moment request ∧
      moment.texts.fromTomlStr text = .ok config ∧
      newFromConfig moment.texts.crates (moment.surroundings engines) config text version = .ok built ∧
      MovedFrom built state

/-- Everything that is persisted or runs has its source, and everything has been written by
    those who may. -/
structure Accounted (now : ConsoleState ι) : Prop where
  persisted : Authentic console jobs initial now.history now.shared.persisted
  state : Sourced engines console jobs initial now.history now.shared.state
  writes : ∀ thread event, .perform thread event ∈ now.history → event.call.isWrite = true →
    Entitled console event.call (jobs thread)

variable {engines console jobs initial} {past future : List (ConsoleLabel ι)}

theorem Admitted.later {moment : ConsoleMoment} {request : ConsoleRequest}
    (admitted : Admitted console jobs past moment request) (grows : past <+: future) :
    Admitted console jobs future moment request := by
  obtain ⟨thread, isJob, started⟩ := admitted.made
  exact ⟨⟨thread, isJob, grows.subset started⟩, admitted.mayWrite⟩

theorem Authentic.later {persisted : Option String} (authentic : Authentic console jobs initial past persisted)
    (grows : past <+: future) : Authentic console jobs initial future persisted := by
  rcases authentic with kept | ⟨text, moment, request, isText, admitted, brings⟩
  · exact .inl kept
  · exact .inr ⟨text, moment, request, isText, admitted.later grows, brings⟩

theorem Sourced.later {state : RunningState} (sourced : Sourced engines console jobs initial past state)
    (grows : past <+: future) : Sourced engines console jobs initial future state := by
  rcases sourced with kept | ⟨text, moment, request, config, version, built, authentic, admitted, parsed, isBuilt,
    moved⟩
  · exact .inl kept
  · exact .inr ⟨text, moment, request, config, version, built, authentic.later grows, admitted.later grows, parsed,
      isBuilt, moved⟩

theorem Sourced.move {history : List (ConsoleLabel ι)} {state : RunningState}
    (sourced : Sourced engines console jobs initial history state) (upstreams : List (String × SocketAddr))
    (nowMs : Nat) : Sourced engines console jobs initial history
      { state with namedUpstreams := upstreams, updatedAtEpochMs := nowMs } := by
  rcases sourced with kept | ⟨text, moment, request, config, version, built, authentic, admitted, parsed, isBuilt,
    moved⟩
  · exact .inl (kept.move upstreams nowMs)
  · exact .inr ⟨text, moment, request, config, version, built, authentic, admitted, parsed, isBuilt,
      moved.move upstreams nowMs⟩

/-- A step that writes nothing, or writes what has its source. -/
theorem Accounted.push {now : ConsoleState ι} {shared : AdminStore} {label : ConsoleLabel ι}
    (accounted : Accounted engines console jobs initial now)
    (persisted : Authentic console jobs initial (now.history ++ [label]) shared.persisted)
    (state : Sourced engines console jobs initial (now.history ++ [label]) shared.state)
    (entitled : ∀ thread event, label = .perform thread event → event.call.isWrite = true →
      Entitled console event.call (jobs thread)) :
    Accounted engines console jobs initial (now.push shared label) := by
  refine ⟨persisted, state, fun thread event member isWrite => ?_⟩
  rcases List.mem_append.mp member with before | last
  · exact accounted.writes thread event before isWrite
  · exact entitled thread event (List.mem_singleton.mp last).symm isWrite

theorem Accounted.quiet {now : ConsoleState ι} {label : ConsoleLabel ι}
    (accounted : Accounted engines console jobs initial now)
    (reads : ∀ thread event, label = .perform thread event → event.call.isWrite = false) :
    Accounted engines console jobs initial (now.push now.shared label) := by
  have grows : now.history <+: now.history ++ [label] := List.prefix_append _ _
  refine accounted.push (accounted.persisted.later grows) (accounted.state.later grows) ?_
  intro thread event isLabel isWrite
  rw [reads thread event isLabel] at isWrite
  cases isWrite

end Sources

/-! ## What every call keeps -/

section Calls

variable (matchit : Matchit ρ) (engines : Engines Program Evaluator Module) (console : Console ρ)
  (jobs : ι → ConsoleJob) (initial : AdminStore)

def provenance : Discipline (consoleSystem matchit engines console jobs) where
  assume := fun _ => True
  inv := Accounted engines console jobs initial
  rely := fun _ before after => before.history <+: after.history
  guar := fun _ _ before after => Accounted engines console jobs initial after ∧ before.history <+: after.history
  post := fun thread answer _ => (jobs thread).Told console answer
  assume_init := fun _ => trivial
  rely_refl := fun _ _ => List.prefix_rfl
  rely_trans := List.IsPrefix.trans
  inv_perform := fun _ guarantee => guarantee.1
  rely_perform := fun _ guarantee _ => guarantee.2
  inv_start := fun accounted _ => accounted.quiet (by simp)
  rely_start := fun _ => List.prefix_append _ _
  inv_finish := fun accounted _ => accounted.quiet (by simp)
  rely_finish := fun _ _ => List.prefix_append _ _
  inv_environment := fun {event} => event.elim
  rely_environment := fun {event} => event.elim
  post_stable := fun told _ _ => told

abbrev KeepsAccount {β : Type} (thread : ι) (post : β → Prop) (program : AdminProg β) (now : ConsoleState ι) :
    Prop :=
  (provenance matchit engines console jobs initial).Safe thread (fun value _ => post value) program now

variable {matchit engines console jobs initial} {thread : ι} {now : ConsoleState ι}

/-- After a first part there is more history than before. -/
theorem KeepsAccount.bind {β δ : Type} {post : β → Prop} {final : δ → Prop} {program : AdminProg β}
    {next : β → AdminProg δ} (first : KeepsAccount matchit engines console jobs initial thread post program now)
    (second : ∀ value later, now.history <+: later.history → post value →
      KeepsAccount matchit engines console jobs initial thread final (next value) later) :
    KeepsAccount matchit engines console jobs initial thread final (program >>= next) now := by
  induction program generalizing now with
  | ret value =>
    exact Discipline.safe_of_later fun later grows inv => second value later grows (first later grows inv)
  | call request rest inductionHypothesis =>
    intro later grows inv answer shared effect assumed
    obtain ⟨guarantee, safe⟩ := first later grows inv answer shared effect assumed
    refine ⟨guarantee, inductionHypothesis answer safe fun value last more => ?_⟩
    exact second value last (grows.trans (guarantee.2.trans more))

theorem keepsAccount_of_reads {β : Type} {post : β → Prop} {program : AdminProg β}
    (reads : program.Only fun call => AdminCall.isWrite call = false) (returns : program.Returns post) :
    KeepsAccount matchit engines console jobs initial thread post program now := by
  induction program generalizing now with
  | ret value => exact fun _ _ _ => returns
  | call request next inductionHypothesis =>
    intro now _ accounted answer shared effect _
    have untouched : shared = now.shared := by
      cases request with
      | loadState => exact effect.2
      | loadConfig => exact effect.2
      | storeState state => cases reads.1
      | saveConfig content => cases reads.1
    rw [untouched]
    refine ⟨⟨accounted.quiet ?_, List.prefix_append _ _⟩,
      inductionHypothesis answer (reads.2 answer trivial) (returns.2 answer trivial)⟩
    rintro other event ⟨⟩
    exact reads.1

theorem keepsAccount_storeState {post : Prop} {state : RunningState}
    (entitled : Entitled console (.storeState state) (jobs thread))
    (sourced : Sourced engines console jobs initial now.history state) (holds : post) :
    KeepsAccount matchit engines console jobs initial thread (fun _ => post) (storeState state) now := by
  intro now grows accounted answer shared effect _
  obtain rfl : shared = { now.shared with state := state } := effect
  have more : now.history <+: now.history ++ [.perform thread ⟨.storeState state, answer⟩] := List.prefix_append _ _
  refine ⟨⟨accounted.push (accounted.persisted.later more) (sourced.later (grows.trans more)) ?_, more⟩,
    fun _ _ _ => holds⟩
  rintro other event ⟨⟩ -
  exact entitled

/-- What a rescan stores is what it has loaded, elsewhere. -/
theorem keepsAccount_rescanDns {post : AdminResponse → Prop} {γ : Type} {surroundings : Surroundings γ}
    (entitled : ∀ state, Entitled console (.storeState state) (jobs thread)) (holds : ∀ response, post response) :
    KeepsAccount matchit engines console jobs initial thread post (rescanDns surroundings) now := by
  have loads : (provenance matchit engines console jobs initial).Safe thread
      (fun state later => Sourced engines console jobs initial later.history state) loadState now := by
    apply Discipline.Safe.perform
    · exact fun state before after sourced grows => sourced.later grows
    · rintro later - accounted answer shared ⟨rfl, untouched⟩ -
      rw [untouched]
      have more : later.history <+: later.history ++ [.perform thread ⟨.loadState, later.shared.state⟩] :=
        List.prefix_append _ _
      refine ⟨⟨accounted.quiet ?_, more⟩, accounted.state.later more⟩
      rintro other event ⟨⟩
      rfl
  refine loads.bind fun current later _ sourced => ?_
  dsimp only
  split
  · exact Discipline.Safe.bind (keepsAccount_storeState (entitled _) (sourced.move _ _) trivial)
      fun _ _ _ _ => fun _ _ _ => holds _
  · exact fun _ _ _ => holds _

variable {moment : ConsoleMoment} {request : ConsoleRequest}

theorem keepsAccount_hotReload {content message : String} {config : SpectraConfig} {failed : String → AdminResponse}
    (isJob : jobs thread = .serve moment request) (admitted : Admitted console jobs now.history moment request)
    (authentic : Authentic console jobs initial now.history (some content))
    (parsed : moment.texts.fromTomlStr content = .ok config) :
    KeepsAccount matchit engines console jobs initial thread (WrittenRightly console request)
      (hotReload moment.texts.crates (moment.surroundings engines) config content failed message) now := by
  have entitled : ∀ call, Entitled console call (jobs thread) := by
    intro call
    rw [isJob]
    exact admitted.mayWrite
  have loads : KeepsAccount matchit engines console jobs initial thread (fun _ => True) loadState now :=
    keepsAccount_of_reads ⟨rfl, fun _ _ => trivial⟩ ⟨trivial, fun _ _ => trivial⟩
  refine loads.bind fun prev later grows _ => ?_
  cases built : newFromConfig moment.texts.crates (moment.surroundings engines) config content (nextVersion prev) with
  | error error => exact fun _ _ _ => .inr admitted.mayWrite
  | ok newState =>
    have sourced : Sourced engines console jobs initial later.history newState :=
      .inr ⟨content, moment, request, config, _, newState, authentic.later grows, admitted.later grows, parsed, built,
        .refl _⟩
    exact (keepsAccount_storeState (entitled _) sourced trivial).bind
      fun _ _ _ _ => fun _ _ _ => .inr admitted.mayWrite

theorem keepsAccount_applyUpdate {engine : AdminEngine} {content : String} {config : SpectraConfig} {reload : Bool}
    (isJob : jobs thread = .serve moment request) (admitted : Admitted console jobs now.history moment request)
    (authentic : Authentic console jobs initial now.history (some content))
    (parsed : moment.texts.fromTomlStr content = .ok config) :
    KeepsAccount matchit engines console jobs initial thread (WrittenRightly console request)
      (applyUpdate moment.texts.crates (moment.surroundings engines) engine config content reload) now := by
  have told : ∀ response, WrittenRightly console request response := fun _ => .inr admitted.mayWrite
  unfold applyUpdate
  split
  · dsimp only
    split
    · exact keepsAccount_hotReload isJob admitted authentic parsed
    · exact fun _ _ _ => told _
  · split
    · exact keepsAccount_of_reads ⟨rfl, fun _ _ => trivial⟩ ⟨trivial, fun _ _ => told _⟩
    · exact fun _ _ _ => told _

theorem keepsAccount_saveConfig {content : String} (isJob : jobs thread = .serve moment request)
    (admitted : Admitted console jobs now.history moment request) (brings : Brings moment.texts request content) :
    KeepsAccount matchit engines console jobs initial thread (fun _ => True) (saveConfig content) now := by
  intro later grows accounted answer shared effect _
  have more : later.history <+: later.history ++ [.perform thread ⟨.saveConfig content, answer⟩] :=
    List.prefix_append _ _
  have authentic : Authentic console jobs initial (later.history ++ [.perform thread ⟨.saveConfig content, answer⟩])
      shared.persisted := by
    rcases effect with ⟨-, rfl⟩ | ⟨-, rfl⟩
    · exact .inr ⟨content, moment, request, rfl, admitted.later (grows.trans more), brings⟩
    · exact accounted.persisted.later more
  have sameState : shared.state = later.shared.state := by
    rcases effect with ⟨-, rfl⟩ | ⟨-, rfl⟩ <;> rfl
  refine ⟨⟨accounted.push authentic (sameState ▸ accounted.state.later more) ?_, more⟩, fun _ _ _ => trivial⟩
  rintro other event ⟨⟩ -
  rw [isJob]
  exact admitted.mayWrite

theorem keepsAccount_handleConfigUpdate {engine : AdminEngine} {asked : AdminRequest}
    (isJob : jobs thread = .serve moment request) (chunks : asked.chunks = request.chunks)
    (readError : asked.readError = request.readError)
    (admitted : asked.authorized = true → Admitted console jobs now.history moment request) :
    KeepsAccount matchit engines console jobs initial thread (WrittenRightly console request)
      (handleConfigUpdate moment.texts.crates (moment.surroundings engines) engine asked) now := by
  unfold handleConfigUpdate
  cases authorized : asked.authorized with
  | false => exact fun _ _ _ => .inl rfl
  | true =>
    have mine := admitted authorized
    have told : ∀ response, WrittenRightly console request response := fun _ => .inr mine.mayWrite
    rw [chunks, readError, if_neg (by simp)]
    cases read : readConfigBody request.readError [] request.chunks with
    | error error => exact fun _ _ _ => told _
    | ok body =>
      dsimp only
      cases isContent : updateContent moment.texts.crates body with
      | none => exact fun _ _ _ => told _
      | some update =>
        obtain ⟨content, reload⟩ := update
        dsimp only
        cases parsed : moment.texts.crates.fromTomlStr content with
        | error error => exact fun _ _ _ => told _
        | ok config =>
          have brings : Brings moment.texts request content := ⟨⟨body, reload, read, isContent⟩, config, parsed⟩
          have authentic : Authentic console jobs initial now.history (some content) :=
            .inr ⟨content, moment, request, rfl, mine, brings⟩
          dsimp only
          unfold persistUpdate
          split
          · refine (keepsAccount_saveConfig isJob mine brings).bind fun saved later grows _ => ?_
            cases saved with
            | error error => exact fun _ _ _ => told _
            | ok _ => exact keepsAccount_applyUpdate isJob (mine.later grows) (authentic.later grows) parsed
          · exact keepsAccount_applyUpdate isJob mine authentic parsed

/-- What has been loaded stays authentic. -/
theorem keepsAccount_loadConfig :
    (provenance matchit engines console jobs initial).Safe thread
      (fun loaded later => now.history <+: later.history ∧
        ∀ persisted, loaded = .ok persisted → Authentic console jobs initial later.history persisted)
      loadConfig now := by
  apply Discipline.Safe.perform
  · rintro loaded before after ⟨known, authentic⟩ grows
    exact ⟨known.trans grows, fun persisted isLoaded => (authentic persisted isLoaded).later grows⟩
  · rintro later grows accounted answer shared ⟨answered, untouched⟩ -
    rw [untouched]
    have more : later.history <+: later.history ++ [.perform thread ⟨.loadConfig, answer⟩] := List.prefix_append _ _
    refine ⟨⟨accounted.quiet ?_, more⟩, grows.trans more, fun persisted isLoaded => ?_⟩
    · rintro other event ⟨⟩
      rfl
    · rcases answered with isPersisted | ⟨error, failed⟩
      · obtain rfl : later.shared.persisted = persisted := Except.ok.inj (isPersisted.symm.trans isLoaded)
        exact accounted.persisted.later more
      · rw [failed] at isLoaded
        cases isLoaded

theorem keepsAccount_handleConfigReload {engine : AdminEngine} {asked : AdminRequest}
    (isJob : jobs thread = .serve moment request)
    (admitted : asked.authorized = true → Admitted console jobs now.history moment request) :
    KeepsAccount matchit engines console jobs initial thread (WrittenRightly console request)
      (handleConfigReload moment.texts.crates (moment.surroundings engines) engine asked) now := by
  unfold handleConfigReload
  cases authorized : asked.authorized with
  | false => exact fun _ _ _ => .inl rfl
  | true =>
    have mine := admitted authorized
    have told : ∀ response, WrittenRightly console request response := fun _ => .inr mine.mayWrite
    rw [if_neg (by simp)]
    split
    · exact fun _ _ _ => told _
    refine keepsAccount_loadConfig.bind fun loaded later _ known => ?_
    obtain ⟨grows, authentic⟩ := known
    rcases loaded with error | _ | content
    · exact fun _ _ _ => told _
    · exact fun _ _ _ => told _
    · dsimp only
      cases parsed : moment.texts.crates.fromTomlStr content with
      | error error => exact fun _ _ _ => told _
      | ok config =>
        dsimp only
        split
        · exact keepsAccount_hotReload isJob (mine.later grows) (authentic _ rfl) parsed
        · exact fun _ _ _ => told _

theorem keepsAccount_handleDnsRescan {engine : AdminEngine} {asked : AdminRequest}
    (isJob : jobs thread = .serve moment request) (mayWrite : asked.authorized = true → MayWrite console request) :
    KeepsAccount matchit engines console jobs initial thread (WrittenRightly console request)
      (handleDnsRescan (moment.surroundings engines) engine asked) now := by
  unfold handleDnsRescan
  cases authorized : asked.authorized with
  | false => exact fun _ _ _ => .inl rfl
  | true =>
    have entitled : ∀ state, Entitled console (.storeState state) (jobs thread) := by
      intro state
      rw [isJob]
      exact mayWrite authorized
    rw [if_neg (by simp)]
    split
    · exact keepsAccount_rescanDns entitled fun _ => .inr (mayWrite authorized)
    · exact fun _ _ _ => .inr (mayWrite authorized)

theorem toldRightly_of_isPage {answer : ConsoleAnswer}
    (allowed : isIpAllowed (extractClientIp request.session) console.config.allowedIps = true)
    (isPage : answer.isPage = true) : ToldRightly console request answer := by
  constructor
  · intro stranger
    rw [allowed] at stranger
    cases stranger
  · rintro response rfl
    cases isPage

/-- The handlers that only read. -/
theorem only_returns_of_reads {route : AdminRoute} (reads : route.writes = false) :
    (console.handleRoute engines moment request route).Only (fun call => AdminCall.isWrite call = false) ∧
      (console.handleRoute engines moment request route).Returns fun answer => answer.isPage = true := by
  cases route with
  | configUpdate | configReload | dnsRescan => cases reads
  | configGet =>
    show (handleConfigGet console.engine).Only _ ∧ (handleConfigGet console.engine).Returns _
    unfold handleConfigGet
    split
    · exact ⟨⟨rfl, fun _ _ => trivial⟩, trivial, fun _ _ => rfl⟩
    · split
      · constructor
        · refine ⟨rfl, fun loaded _ => ?_⟩
          rcases loaded with error | _ | content <;> trivial
        · refine ⟨trivial, fun loaded _ => ?_⟩
          rcases loaded with error | _ | content <;> rfl
      · exact ⟨trivial, rfl⟩
  | dnsStatus =>
    show (handleDnsStatus console.engine).Only _ ∧ (handleDnsStatus console.engine).Returns _
    unfold handleDnsStatus
    split
    · exact ⟨⟨rfl, fun _ _ => trivial⟩, trivial, fun _ _ => rfl⟩
    · exact ⟨trivial, rfl⟩
  | status | routes =>
    show (handlePage console.engine _).Only _ ∧ (handlePage console.engine _).Returns _
    unfold handlePage
    split
    · exact ⟨⟨rfl, fun _ _ => trivial⟩, trivial, fun _ _ => rfl⟩
    · exact ⟨trivial, rfl⟩
  | configValidate | authVerify | dashboard | favicon | schema | schemaRefresh | subscriptions | idempotency
  | eventsink | traffic | trafficClear | telemetryReport | workers | workerLogs => exact ⟨trivial, rfl⟩

theorem keepsAccount_handleRoute {route : AdminRoute} (isJob : jobs thread = .serve moment request)
    (started : .start thread ∈ now.history)
    (allowed : isIpAllowed (extractClientIp request.session) console.config.allowedIps = true)
    (method : route.writes = true → request.method = .post ∨ request.method = .put) :
    KeepsAccount matchit engines console jobs initial thread (ToldRightly console request)
      (console.handleRoute engines moment request route) now := by
  cases writes : route.writes with
  | false =>
    obtain ⟨only, returns⟩ := only_returns_of_reads writes
    exact (keepsAccount_of_reads only returns).mono fun answer _ => toldRightly_of_isPage allowed
  | true =>
    have mayWrite : (console.adminRequest request).authorized = true → MayWrite console request := fun authorized =>
      ⟨allowed, method writes, (isWriteAuthorized_iff _ _).mp authorized⟩
    have admitted : (console.adminRequest request).authorized = true →
        Admitted console jobs now.history moment request := fun authorized =>
      ⟨⟨thread, isJob, started⟩, mayWrite authorized⟩
    have told : ∀ response, WrittenRightly console request response →
        ToldRightly console request (.admin response) := by
      intro response rightly
      refine ⟨fun stranger => ?_, fun same isSame => ?_⟩
      · rw [allowed] at stranger
        cases stranger
      · cases isSame
        exact rightly
    cases route with
    | configUpdate =>
      exact (keepsAccount_handleConfigUpdate isJob rfl rfl admitted).bind
        fun response _ _ rightly => fun _ _ _ => told response rightly
    | configReload =>
      exact (keepsAccount_handleConfigReload isJob admitted).bind
        fun response _ _ rightly => fun _ _ _ => told response rightly
    | dnsRescan =>
      exact (keepsAccount_handleDnsRescan isJob mayWrite).bind
        fun response _ _ rightly => fun _ _ _ => told response rightly
    | _ => cases writes

theorem keepsAccount_handleRequest (honest : matchit.Honest) (isJob : jobs thread = .serve moment request)
    (router : console.router = AdminRouter.new matchit console.config.pathPrefix)
    (started : .start thread ∈ now.history) :
    KeepsAccount matchit engines console jobs initial thread (ToldRightly console request)
      (console.handleRequest matchit engines moment request) now := by
  unfold Console.handleRequest Admin.handleRequest
  by_cases allowed : isIpAllowed (extractClientIp request.session) console.config.allowedIps = true
  · rw [if_pos allowed]
    dsimp only
    cases matched : console.router.matchRoute matchit request.method request.path with
    | none => exact fun _ _ _ => toldRightly_of_isPage allowed rfl
    | some found =>
      rw [router] at matched
      exact keepsAccount_handleRoute isJob started allowed fun writes => method_of_writes honest matched writes
  · rw [if_neg allowed]
    refine fun _ _ _ => ⟨fun _ => rfl, ?_⟩
    rintro response ⟨⟩

/-- Each job keeps the account from its start. -/
theorem keepsAccount_program (honest : matchit.Honest)
    (router : console.router = AdminRouter.new matchit console.config.pathPrefix) (thread : ι)
    (started : .start thread ∈ now.history) :
    KeepsAccount matchit engines console jobs initial thread (fun answer => (jobs thread).Told console answer)
      ((jobs thread).program matchit engines console) now := by
  cases isJob : jobs thread with
  | serve moment request => exact keepsAccount_handleRequest honest isJob router started
  | refresh moment =>
    have entitled : ∀ state, Entitled console (.storeState state) (jobs thread) := by
      intro state
      rw [isJob]
      exact ⟨state, rfl⟩
    have rescans : KeepsAccount matchit engines console jobs initial thread (fun _ => True)
        (rescanDns (moment.surroundings engines)) now := keepsAccount_rescanDns entitled fun _ => trivial
    exact rescans.bind fun _ _ _ _ => fun _ _ _ => trivial

end Calls

/-! ## Every run -/

/-- In every run everything that is persisted or runs is what was at the start, or comes from
    requests that may write; nobody else writes anything but new addresses, and nobody else is told
    of success. -/
theorem configuration_provenance [DecidableEq ι] (matchit : Matchit ρ) (honest : matchit.Honest)
    (engines : Engines Program Evaluator Module) (config : SpectraAdminConfig) (env : String → Option String)
    (engine : AdminEngine) (jobs : ι → ConsoleJob) (initial : AdminStore)
    (now : Config adminSignature ι Empty AdminStore ConsoleAnswer)
    (reaches : (consoleSystem matchit engines (Console.new matchit config env engine) jobs).Reaches initial now) :
    Accounted engines (Console.new matchit config env engine) jobs initial now.moment ∧
      ∀ thread answer, now.threads thread = .finished answer →
        (jobs thread).Told (Console.new matchit config env engine) answer := by
  have start : Accounted engines (Console.new matchit config env engine) jobs initial ⟨initial, []⟩ :=
    ⟨.inl rfl, .inl rfl, fun thread event member => absurd member List.not_mem_nil⟩
  obtain ⟨accounted, threads⟩ :=
    (provenance matchit engines (Console.new matchit config env engine) jobs initial).sound start
      (fun thread moment _ _ => keepsAccount_program honest rfl thread (by simp)) reaches trivial
  refine ⟨accounted, fun thread answer finished => ?_⟩
  have told := threads thread
  rw [finished] at told
  exact told

/-! ## A stranger, an update and the hosts -/

/-- A router of plain paths. -/
def plainMatchit : Matchit (List (String × AdminRoute)) where
  new := []
  insert pattern route routes := routes ++ [(pattern, route)]
  lookup routes path := (routes.lookup path).map fun route => (route, [])

theorem plainMatchit_honest : plainMatchit.Honest := by
  have inserted : ∀ routes first : List (String × AdminRoute),
      routes.foldl (fun router route => plainMatchit.insert route.1 route.2 router) first = first ++ routes := by
    intro routes
    induction routes with
    | nil => simp
    | cons route rest inductionHypothesis =>
      intro first
      rw [List.foldl_cons, inductionHypothesis]
      exact List.append_assoc first [route] rest
  intro routes path found looked
  obtain ⟨route, isRoute, rfl⟩ := Option.map_eq_some_iff.mp looked
  have isListed : AdminRouter.insertAll plainMatchit routes = routes := inserted routes []
  rw [isListed] at isRoute
  obtain ⟨front, back, rfl, -⟩ := List.lookup_eq_some_iff.mp isRoute
  exact ⟨path, by simp⟩

/-- Runs in which the config store of the console never fails. -/
def consoleScheduler [DecidableEq ι] (matchit : Matchit ρ) (engines : Engines Program Evaluator Module)
    (console : Console ρ) (jobs : ι → ConsoleJob) :
    Scheduler (consoleSystem matchit engines console jobs) Unit where
  answer := fun _ _ call store => some (workingStore call store)
  event := fun event => event.elim
  answer_sound := by
    rintro _ thread call before result ⟨⟩
    cases call with
    | loadState => exact ⟨rfl, rfl⟩
    | storeState state => rfl
    | saveConfig content => exact .inl ⟨rfl, rfl⟩
    | loadConfig => exact ⟨.inl rfl, rfl⟩
  event_sound := fun event => event.elim

def secondVersion : ConfigTexts :=
  { ghostTexts with updateRequest := fun _ => some ("# v2", true), fromTomlStr := fun _ => .ok defaultConfig }

/-- An update with a token, from the machine of the gateway. -/
def updateWith (token : String) : ConsoleRequest where
  method := .post
  path := "/admin/api/v1/config"
  session := ⟨[("authorization", HeaderValue.ofString ("Bearer " ++ token))], some (.v4 0x7f000001)⟩
  chunks := [asBytes "\x7b\"content\":\"# v2\"\x7d"]
  readError := none

/-- Call 0 guesses the token, call 1 knows it, and call 2 finds the hosts elsewhere. -/
def guessAndUpdate : Fin 3 → ConsoleJob
  | 0 => .serve ⟨secondVersion, resolveLiteral, 1⟩ (updateWith "guess")
  | 1 => .serve ⟨secondVersion, resolveLiteral, 2⟩ (updateWith "s3cret")
  | 2 => .refresh ⟨secondVersion, fun _ => .ok ["10.0.0.9:4000"], 3⟩

def guardedAdmin : SpectraAdminConfig := ⟨"/admin", defaultAllowedIps, some "s3cret"⟩

def guardedConsole : Console (List (String × AdminRoute)) :=
  Console.new plainMatchit guardedAdmin (fun _ => none) connected

theorem configuration_provenance_guess : ∃ now,
    (consoleSystem plainMatchit passingEngines guardedConsole guessAndUpdate).Reaches firstVersion now ∧
      now.threads 0 = .finished (.admin unauthorized) ∧ now.moment.shared.persisted = some "# v2" ∧
      now.moment.shared.state.namedUpstreams.lookup "default" = some "10.0.0.9:4000" ∧
      Accounted passingEngines guardedConsole guessAndUpdate firstVersion now.moment := by
  have run : ∃ now,
      (consoleSystem plainMatchit passingEngines guardedConsole guessAndUpdate).Reaches firstVersion now ∧
        now.threads 0 = .finished (.admin unauthorized) ∧ now.moment.shared.persisted = some "# v2" ∧
        now.moment.shared.state.namedUpstreams.lookup "default" = some "10.0.0.9:4000" :=
    ⟨_, (consoleScheduler plainMatchit passingEngines guardedConsole guessAndUpdate).run_reaches
      ([0, 1, 1, 0, 2, 1, 1, 1, 2, 2, 2].map fun thread => .thread thread ()) .initial rfl, rfl, rfl, rfl⟩
  obtain ⟨now, reaches, told, persisted, moved⟩ := run
  have accounted := (configuration_provenance plainMatchit plainMatchit_honest passingEngines guardedAdmin
    (fun _ => none) connected guessAndUpdate firstVersion now reaches).1
  exact ⟨now, reaches, told, persisted, moved, accounted⟩

end SpectraGQL.Admin
