import SpectraGQL.Gateway.Mediation

/-! # Which requests give their lock back

A request that gets a key leaves an in-flight record in the engine.  `releases_lock_iff`
says for which requests that record is completed or removed by the end of the logging
phase: for all but those that are given a key of their own choice and whose body is then
not read to its end or not decoded.
-/

namespace SpectraGQL.Gateway

open Interaction SpectraGQL.Core SpectraGQL.Http SpectraGQL.Protocol SpectraGQL.Interceptors
open SpectraGQL.Telemetry SpectraGQL.Idempotency

/-- The engine holds no in-flight record of the request with this timestamp. -/
def Unheld (hlc : HlcTimestamp) (engine : Engine) : Prop :=
  ∀ key, engine key ≠ some (.inProgress hlc)

/-- An in-flight record of the request can only be under this key. -/
def HeldAt (hlc : HlcTimestamp) (key : String) (engine : Engine) : Prop :=
  ∀ other, engine other = some (.inProgress hlc) → other = key

section Engine

variable {hlc : HlcTimestamp} {key : String} {engine : Engine}

theorem Unheld.lock (unheld : Unheld hlc engine) :
    HeldAt hlc key (Function.update engine key (some (.inProgress hlc))) := by
  intro other held
  by_contra different
  rw [Function.update_of_ne different] at held
  exact unheld other held

/-- Whatever replaces the record under the only key it can be at, the request holds nothing. -/
theorem HeldAt.replace {state : Option KeyState} (held : HeldAt hlc key engine)
    (settled : state ≠ some (.inProgress hlc)) : Unheld hlc (Function.update engine key state) := by
  intro other
  by_cases same : other = key
  · rw [same, Function.update_self]
    exact settled
  · rw [Function.update_of_ne same]
    exact fun still => same (held other still)

theorem HeldAt.remove (held : HeldAt hlc key engine) :
    Unheld hlc (engineAfter (.remove key) engine) :=
  held.replace fun gone => by cases gone

theorem HeldAt.complete {completer : HlcTimestamp} {statusCode : UInt16} {headers : HeaderMap}
    {body : String} (held : HeldAt hlc key engine) :
    Unheld hlc (engineAfter (.complete key completer statusCode headers body) engine) :=
  held.replace fun settled => by cases settled

end Engine

/-! ## The end of a request -/

/-- What logging needs to know of a request to settle its lock. -/
structure Loggable (exchange : Exchange) : Prop where
  service : exchange.ctx.service.isSome
  notReplay : exchange.ctx.isReplay = false
  notModeB : exchange.ctx.isModeBTerminated = false
  method : isTransportCheck exchange.session.reqHeader.method = false
  topic : (loggingTopic exchange.ctx (loggedRequest exchange)).isSome

/-- The lock of a request before the logging phase: there is none, or logging settles it. -/
inductive Tracked (hlc : HlcTimestamp) (exchange : Exchange) (engine : Engine) : Prop where
  | released (unheld : Unheld hlc engine)
      (quiet : exchange.ctx.idempotencyKey = none ∨ exchange.ctx.isReplay = true ∨
        exchange.ctx.isModeBTerminated = true)
  | held (key : String) (mine : exchange.ctx.idempotencyKey = some key)
      (only : HeldAt hlc key engine) (loggable : Loggable exchange)

section Logging

variable {proxy : CompositeServiceProxy} {exchange : Exchange} {error : Option PingoraError}

/-! ### What logging calls -/

section Calls

variable {allowed : GatewayCall → Prop} {ctx : ProxyCtx}

theorem only_dispatchFailure (dispatches : ∀ topic event, allowed (.dispatchTerminalEvent topic event))
    (topic : String) (info : RequestInfo) (response : Option ResponseInfo) (text : String) :
    Prog.Only allowed (dispatchFailure proxy ctx topic info response text) := by
  unfold dispatchFailure
  split
  · exact Prog.Only.ret _
  · exact Prog.Only.bind (Prog.Only.perform (dispatches _ _)) fun _ => Prog.Only.ret _

theorem only_dispatchSuccess (dispatches : ∀ topic event, allowed (.dispatchTerminalEvent topic event))
    (topic : String) (info : RequestInfo) (response : ResponseInfo) :
    Prog.Only allowed (dispatchSuccess proxy ctx topic info response) := by
  unfold dispatchSuccess
  split
  · exact Prog.Only.ret _
  · exact Prog.Only.bind (Prog.Only.perform (dispatches _ _)) fun _ => Prog.Only.ret _

/-- The end of a request settles its key and dispatches an event. -/
theorem only_concludeRequest (dispatches : ∀ topic event, allowed (.dispatchTerminalEvent topic event))
    (releases : Prog.Only allowed (releaseKey ctx))
    (completes : ∀ status headers body, Prog.Only allowed (completeKey ctx status headers body))
    (topic : String) (info : RequestInfo) :
    Prog.Only allowed (concludeRequest proxy ctx topic info error) := by
  have fails : ∀ response text, Prog.Only allowed (do
      releaseKey ctx
      dispatchFailure proxy ctx topic info response text) := fun response text =>
    Prog.Only.bind releases fun _ => only_dispatchFailure dispatches topic info response text
  unfold concludeRequest
  split
  · exact fails _ _
  · split
    · exact fails _ _
    · dsimp only
      split
      · exact fails _ _
      · exact Prog.Only.bind (completes _ _ _) fun _ => only_dispatchSuccess dispatches topic info _

/-- What is not logged calls nothing. -/
theorem only_dispatchLogging
    (concludes : ∀ topic info, Prog.Only allowed (concludeRequest proxy exchange.ctx topic info error)) :
    Prog.Only allowed (dispatchLogging proxy exchange error) := by
  unfold dispatchLogging
  split
  · exact Prog.Only.ret _
  split
  · exact Prog.Only.ret _
  split
  · exact Prog.Only.ret _
  split
  · exact Prog.Only.ret _
  · exact concludes _ _

end Calls

theorem onlyReports_dispatchFailure (ctx : ProxyCtx) (topic : String) (info : RequestInfo)
    (response : Option ResponseInfo) (text : String) :
    OnlyReports (dispatchFailure proxy ctx topic info response text) :=
  only_dispatchFailure (fun _ _ => trivial) topic info response text

theorem onlyReports_dispatchSuccess (ctx : ProxyCtx) (topic : String) (info : RequestInfo)
    (response : ResponseInfo) : OnlyReports (dispatchSuccess proxy ctx topic info response) :=
  only_dispatchSuccess (fun _ _ => trivial) topic info response

/-- Without a key the end of a request is none of the engine's business. -/
theorem onlyReports_concludeRequest {ctx : ProxyCtx} (noKey : ctx.idempotencyKey = none)
    (topic : String) (info : RequestInfo) : OnlyReports (concludeRequest proxy ctx topic info error) := by
  have releases : OnlyReports (releaseKey ctx) := by
    unfold releaseKey
    rw [noKey]
    exact Prog.Only.ret _
  have completes : ∀ status headers body, OnlyReports (completeKey ctx status headers body) := by
    intro status headers body
    unfold completeKey
    rw [noKey]
    exact Prog.Only.ret _
  exact only_concludeRequest (fun _ _ => trivial) releases completes topic info

/-- What the end of a request leaves under its key: nothing, or the response if there is one
    and it is no error. -/
inductive Settles (proxy : CompositeServiceProxy) (ctx : ProxyCtx) (error : Option PingoraError) :
    Option KeyState → Prop where
  | released : Settles proxy ctx error none
  | completed (parts : ResponseHeader) (noError : error = none) (answered : ctx.responseParts = some parts)
      (success : parts.status.isError = false) :
      Settles proxy ctx error (some (.completed ctx.hlc parts.status.code (headerPairs parts.headers)
        (loggedBody proxy ctx).recorded))

/-- With a key, the end of a request settles the record under it. -/
theorem engine_concludeRequest (proxy : CompositeServiceProxy) {ctx : ProxyCtx} {key : String}
    (mine : ctx.idempotencyKey = some key) (topic : String) (info : RequestInfo)
    (error : Option PingoraError) (environment : Environment) (world : World) :
    ∃ state, Settles proxy ctx error state ∧
      (run environment (concludeRequest proxy ctx topic info error) world).2.engine =
        Function.update world.engine key state := by
  have releases : (run environment (releaseKey ctx) world).2.engine =
      Function.update world.engine key none := by
    unfold releaseKey
    rw [mine]
    rfl
  have fails : ∀ response text, (run environment (releaseKey ctx >>= fun _ =>
      dispatchFailure proxy ctx topic info response text) world).2.engine =
      Function.update world.engine key none := by
    intro response text
    rw [run_bind, (onlyReports_dispatchFailure ..).leavesEngine.engine_run, releases]
  unfold concludeRequest
  split
  · exact ⟨none, .released, fails _ _⟩
  · split
    · exact ⟨none, .released, fails _ _⟩
    · rename_i parts answered
      dsimp only
      split
      · exact ⟨none, .released, fails _ _⟩
      · rename_i success
        -- the response has no error status: the one way to a completed record
        refine ⟨_, .completed parts rfl answered (Bool.eq_false_iff.mpr success), ?_⟩
        rw [run_bind, (onlyReports_dispatchSuccess ..).leavesEngine.engine_run]
        unfold completeKey
        rw [mine]
        rfl

theorem onlyReports_recordLogged (service : ServiceConfig) :
    OnlyReports (recordLogged exchange service error) := by
  unfold recordLogged
  dsimp only
  split
  · exact Prog.Only.perform trivial
  · exact Prog.Only.ret _

/-- Logging leaves the engine alone when it stops early or has no key. -/
theorem onlyReports_logging
    (quiet : ¬ Loggable exchange ∨ exchange.ctx.idempotencyKey = none) :
    OnlyReports (logging proxy exchange error) := by
  unfold logging
  split
  · exact Prog.Only.ret _
  rename_i service found
  refine Prog.Only.bind (onlyReports_recordLogged service) fun _ => ?_
  unfold dispatchLogging
  split
  · exact Prog.Only.ret _
  rename_i notReplay
  split
  · exact Prog.Only.ret _
  rename_i notModeB
  split
  · exact Prog.Only.ret _
  rename_i method
  split
  · exact Prog.Only.ret _
  rename_i topic resolved
  have loggable : Loggable exchange :=
    ⟨by simp [found], Bool.eq_false_iff.mpr notReplay, Bool.eq_false_iff.mpr notModeB,
      Bool.eq_false_iff.mpr method, by simp [resolved]⟩
  exact onlyReports_concludeRequest (quiet.resolve_left (not_not_intro loggable)) _ _

/-- Logging settles the record under the key of a request that it looks at. -/
theorem engine_logging (proxy : CompositeServiceProxy) (loggable : Loggable exchange) {key : String}
    (mine : exchange.ctx.idempotencyKey = some key) (error : Option PingoraError)
    (environment : Environment) (world : World) :
    ∃ state, Settles proxy exchange.ctx error state ∧
      (run environment (logging proxy exchange error) world).2.engine =
        Function.update world.engine key state := by
  obtain ⟨service, found⟩ := Option.isSome_iff_exists.mp loggable.service
  obtain ⟨topic, resolved⟩ := Option.isSome_iff_exists.mp loggable.topic
  unfold logging dispatchLogging
  simp only [found, loggable.notReplay, loggable.notModeB, loggable.method, resolved,
    Bool.false_eq_true, if_false]
  rw [run_bind]
  obtain ⟨state, settled, engine⟩ :=
    engine_concludeRequest proxy mine topic (loggedRequest exchange) error environment
      (run environment (recordLogged exchange service error) world).2
  rw [engine, (onlyReports_recordLogged service).leavesEngine.engine_run]
  exact ⟨state, settled, rfl⟩

/-- The lock of a tracked request is settled when logging is done. -/
theorem Tracked.unheld_logging {hlc : HlcTimestamp} {world : World}
    (tracked : Tracked hlc exchange world.engine) (environment : Environment) :
    Unheld hlc (run environment (logging proxy exchange error) world).2.engine := by
  cases tracked with
  | released unheld quiet =>
    have leaves : LeavesEngine (logging proxy exchange error) := by
      apply OnlyReports.leavesEngine
      apply onlyReports_logging
      rcases quiet with noKey | replay | modeB
      · exact .inr noKey
      · exact .inl fun loggable => by simp [loggable.notReplay] at replay
      · exact .inl fun loggable => by simp [loggable.notModeB] at modeB
    rw [leaves.engine_run]
    exact unheld
  | held key mine only loggable =>
    obtain ⟨state, settled, engine⟩ := engine_logging proxy loggable mine error environment world
    rw [engine]
    refine only.replace ?_
    cases settled with
    | released => exact nofun
    | completed _ _ _ _ => exact nofun

end Logging

/-! ## Going upstream and back -/

/-- A context without what a response leaves in it. -/
def ProxyCtx.core (ctx : ProxyCtx) : ProxyCtx :=
  { ctx with
    buffer := [], responseParts := none, responseBody := none, hasResponseInterception := false
    auditTag := none, auditRule := none, responsePreview := none, errorPreview := none }

section Core

variable {before after : Exchange}

/-- What the response does not touch is the same in contexts with one core. -/
theorem field_of_core {α : Type} (field : ProxyCtx → α) (kept : ∀ ctx : ProxyCtx, field ctx.core = field ctx)
    (core : after.ctx.core = before.ctx.core) : field after.ctx = field before.ctx := by
  rw [← kept after.ctx, core, kept before.ctx]

theorem Loggable.of_core (session : after.session = before.session)
    (core : after.ctx.core = before.ctx.core) (loggable : Loggable before) : Loggable after := by
  refine ⟨?_, ?_, ?_, ?_, ?_⟩
  · rw [field_of_core ProxyCtx.service (fun _ => rfl) core]
    exact loggable.service
  · exact (field_of_core ProxyCtx.isReplay (fun _ => rfl) core).trans loggable.notReplay
  · exact (field_of_core ProxyCtx.isModeBTerminated (fun _ => rfl) core).trans loggable.notModeB
  · rw [session]
    exact loggable.method
  · have same : loggingTopic after.ctx.core (loggedRequest ⟨after.session, after.ctx.core⟩) =
        loggingTopic before.ctx.core (loggedRequest ⟨before.session, before.ctx.core⟩) := by
      rw [core, session]
    exact (congrArg Option.isSome same).trans loggable.topic

/-- The lock of a request does not depend on the response. -/
theorem Tracked.of_core {hlc : HlcTimestamp} {engine : Engine}
    (session : after.session = before.session) (core : after.ctx.core = before.ctx.core)
    (tracked : Tracked hlc before engine) : Tracked hlc after engine := by
  have key : after.ctx.idempotencyKey = before.ctx.idempotencyKey :=
    field_of_core ProxyCtx.idempotencyKey (fun _ => rfl) core
  have replay : after.ctx.isReplay = before.ctx.isReplay :=
    field_of_core ProxyCtx.isReplay (fun _ => rfl) core
  have modeB : after.ctx.isModeBTerminated = before.ctx.isModeBTerminated :=
    field_of_core ProxyCtx.isModeBTerminated (fun _ => rfl) core
  cases tracked with
  | released unheld quiet => exact .released unheld (by rw [key, replay, modeB]; exact quiet)
  | held name mine only loggable =>
    exact .held name (key.trans mine) only (loggable.of_core session core)

end Core

section Upstream

variable (proxy : CompositeServiceProxy) (dynamic : DynamicGatewayState)

theorem core_requestBodyFilter (ctx : ProxyCtx) (chunks : List Bytes) :
    (chunks.foldl requestBodyFilter ctx).core = ctx.core := by
  induction chunks generalizing ctx with
  | nil => rfl
  | cons chunk rest inductionHypothesis =>
    rw [List.foldl_cons, inductionHypothesis]
    unfold requestBodyFilter
    split <;> rfl

theorem core_responseFilter (ctx : ProxyCtx) (head : ResponseHeader) :
    (responseFilter dynamic ctx head).1.core = ctx.core := by
  unfold responseFilter
  dsimp only
  split <;> rfl

theorem core_responseBodyFilter (ctx : ProxyCtx) (elapsedMs : Nat) (body : Option Bytes)
    (endOfStream : Bool) :
    (responseBodyFilter proxy dynamic ctx elapsedMs body endOfStream).1.core = ctx.core := by
  unfold responseBodyFilter
  split
  · unfold interceptBody
    dsimp only
    split
    · unfold noteResponseBody noteVerdict
      split <;> rfl
    · rfl
  · have previewed : ∀ (captured : Bool) (seen : ProxyCtx) (text : Option String),
        (if captured then { seen with errorPreview := text } else seen).core = seen.core := by
      intro captured seen text
      cases captured <;> rfl
    unfold streamBody
    cases endOfStream with
    | true => exact (previewed _ _ _).trans (by cases body <;> rfl)
    | false => cases body <;> rfl

theorem core_streamChunks (elapsedMs : Nat) (broken : Option PingoraError) (ctx : ProxyCtx)
    (chunks : List (Option Bytes)) :
    (streamChunks proxy dynamic elapsedMs broken ctx chunks).Returns fun streamed =>
      streamed.2.core = ctx.core := by
  induction chunks generalizing ctx with
  | nil => exact Prog.Returns.ret rfl
  | cons chunk rest inductionHypothesis =>
    have kept := core_responseBodyFilter proxy dynamic ctx elapsedMs chunk
      (rest.isEmpty && broken.isNone)
    rw [← kept]
    unfold streamChunks
    dsimp only
    split
    · exact inductionHypothesis _
    · refine (Prog.returns_true _).bind fun written _ => ?_
      split
      · exact inductionHypothesis _
      · exact Prog.Returns.ret rfl

theorem core_proxyUpstream (exchange : Exchange) (upstream : Upstream) (elapsedMs : Nat) :
    (proxyUpstream proxy dynamic exchange upstream elapsedMs).Returns fun forwarded =>
      forwarded.2.session = exchange.session ∧ forwarded.2.ctx.core = exchange.ctx.core := by
  have sent := core_requestBodyFilter exchange.ctx exchange.session.chunks
  unfold proxyUpstream
  split
  · exact Prog.Returns.ret ⟨rfl, rfl⟩
  dsimp only
  split
  · exact Prog.Returns.ret ⟨rfl, sent⟩
  · rename_i head chunks broken
    have received := (core_responseFilter dynamic
      (exchange.session.chunks.foldl requestBodyFilter exchange.ctx) head).trans sent
    refine (Prog.returns_true _).bind fun written _ => ?_
    split
    · exact (core_streamChunks proxy dynamic ..).bind fun streamed core =>
        Prog.Returns.ret ⟨rfl, core.trans received⟩
    · exact Prog.Returns.ret ⟨rfl, received⟩

end Upstream

/-! ## A decoded request has a topic -/

section Topic

theorem dot_mem_append (front back : String) : '.' ∈ (front ++ "." ++ back).toList := by
  simp

theorem dot_mem_resolveDispatchTopic (info : RequestInfo) :
    '.' ∈ (TopicResolver.resolveDispatchTopic info).toList := by
  unfold TopicResolver.resolveDispatchTopic
  split
  · unfold toLowercase
    rw [String.toList_ofList]
    exact List.mem_map.mpr ⟨'.', dot_mem_append _ _, by decide⟩
  · exact dot_mem_append _ _

theorem dot_mem_appTopic {appPrefix : Option String} {baseTopic : String}
    (dotted : '.' ∈ baseTopic.toList) : '.' ∈ (appTopic appPrefix baseTopic).toList := by
  unfold appTopic
  cases appPrefix with
  | none => exact dotted
  | some topicPrefix =>
    dsimp only
    split
    · split
      · exact dot_mem_append _ _
      · exact dot_mem_append _ _
    · exact dot_mem_append _ _

theorem requestTopic_noteRequest (dynamic : DynamicGatewayState) (exchange : Exchange)
    (info : RequestInfo) (body : String) :
    (noteRequest dynamic exchange info body).ctx.requestTopic ≠ "spectra" := by
  intro same
  have dotted : '.' ∈ (noteRequest dynamic exchange info body).ctx.requestTopic.toList :=
    dot_mem_appTopic (dot_mem_resolveDispatchTopic info)
  rw [same] at dotted
  exact absurd dotted (by decide)

end Topic

/-! ## From the decoded request to the end of the phase -/

/-- A decoded request in the middle of the phase, with its lock or without one. -/
structure Ready (hlc : HlcTimestamp) (exchange : Exchange) (engine : Engine) : Prop where
  stamp : exchange.ctx.hlc = hlc
  service : exchange.ctx.service.isSome
  notReplay : exchange.ctx.isReplay = false
  notModeB : exchange.ctx.isModeBTerminated = false
  method : isTransportCheck exchange.session.reqHeader.method = false
  topic : exchange.ctx.requestTopic ≠ "spectra"
  lock : (exchange.ctx.idempotencyKey = none ∧ Unheld hlc engine) ∨
    ∃ key, exchange.ctx.idempotencyKey = some key ∧ HeldAt hlc key engine

section Phase

variable {environment : Environment} {world : World} {proxy : CompositeServiceProxy}
  {dynamic : DynamicGatewayState} {exchange : Exchange} {hlc : HlcTimestamp}

theorem Ready.tracked {engine : Engine} (ready : Ready hlc exchange engine) :
    Tracked hlc exchange engine := by
  rcases ready.lock with ⟨noKey, unheld⟩ | ⟨key, mine, only⟩
  · exact .released unheld (.inl noKey)
  · refine .held key mine only
      ⟨ready.service, ready.notReplay, ready.notModeB, ready.method, ?_⟩
    simp [loggingTopic, ready.topic]

/-- The state of a request and its lock after a stage. -/
def StageTracked {α : Type} (hlc : HlcTimestamp) (exchange : α → Exchange) :
    Stage α × World → Prop
  | (.done outcome, after) => Tracked hlc outcome.exchange after.engine
  | (.next value, after) => Ready hlc (exchange value) after.engine

theorem StageTracked.andThen {α : Type} {current : α → Exchange} {stage : GatewayProg (Stage α)}
    {rest : α → GatewayProg Outcome}
    (first : StageTracked hlc current (run environment stage world))
    (second : ∀ value after, Ready hlc (current value) (World.engine after) →
      Tracked hlc (run environment (rest value) after).1.exchange
        (run environment (rest value) after).2.engine) :
    Tracked hlc (run environment (Stage.andThen stage rest) world).1.exchange
      (run environment (Stage.andThen stage rest) world).2.engine := by
  rw [run_andThen]
  rcases ran : run environment stage world with ⟨ended | value, after⟩
  · rw [ran] at first
    exact first
  · rw [ran] at first
    exact second value after first

theorem incidental_answerRejection (exchange : Exchange) (info : RequestInfo)
    (rejection : InterceptorRejection) : OnlyIncidental (answerRejection exchange info rejection) := by
  unfold answerRejection
  refine Prog.Only.bind (onlyAnswers_writeResponse _ _).incidental fun written => ?_
  split
  · exact Prog.Only.bind (Prog.Only.perform trivial) fun _ =>
      Prog.Only.bind (Prog.Only.perform trivial) fun _ =>
      Prog.Only.bind (Prog.Only.perform trivial) fun _ => Prog.Only.ret _
  · exact Prog.Only.ret _

/-- A rejection gives the key back. -/
theorem tracked_rejectRequest (ready : Ready hlc exchange world.engine) (info : RequestInfo)
    (rejection : InterceptorRejection) :
    Tracked hlc (run environment (rejectRequest exchange info rejection) world).1.exchange
      (run environment (rejectRequest exchange info rejection) world).2.engine := by
  have released : Unheld hlc (run environment (releaseKey exchange.ctx) world).2.engine := by
    unfold releaseKey
    rcases ready.lock with ⟨noKey, unheld⟩ | ⟨key, mine, only⟩
    · rw [noKey]
      exact unheld
    · rw [mine]
      exact only.remove
  have kept := (answerRejection_returns (exchange.setKey none) info rejection).interp
    (handle environment)
  unfold rejectRequest
  rw [run_bind, (incidental_answerRejection ..).leavesEngine.engine_run]
  exact .released released (.inl (congrArg (fun outcome : Outcome => outcome.exchange.ctx.idempotencyKey) (kept _)))

theorem stageTracked_runPipeline (ready : Ready hlc exchange world.engine) (info : RequestInfo)
    (body : String) :
    StageTracked hlc Prod.fst (run environment (runPipeline dynamic exchange info body) world) := by
  unfold runPipeline
  dsimp only
  split
  · exact ready
  rw [run_bind]
  -- interceptors do not touch the records
  have unchanged : (run environment (interceptRequest
      (dynamic.interceptorManager.getRequestPipeline info.operationName)
      (interceptorContext exchange.ctx info) exchange.session.reqHeader body) world).2.engine =
        world.engine := rfl
  rw [← unchanged] at ready
  revert ready
  generalize (run environment (interceptRequest _ _ _ _) world).2 = after
  generalize (run environment (interceptRequest _ _ _ _) world).1 = verdict
  intro ready
  cases verdict with
  | pass => exact ready
  | audit ruleName tag reason =>
    exact ⟨ready.stamp, ready.service, ready.notReplay, ready.notModeB, ready.method, ready.topic,
      ready.lock⟩
  | reject rejection =>
    unfold afterVerdict
    rw [run_bind]
    exact tracked_rejectRequest ready info rejection
  | transform headers newBody =>
    cases newBody <;>
      exact ⟨ready.stamp, ready.service, ready.notReplay, ready.notModeB, ready.method, ready.topic,
        ready.lock⟩

/-- A mutation without a key gets one, or is answered for it. -/
theorem stageTracked_claimFingerprint (ready : Ready hlc exchange world.engine) (info : RequestInfo)
    (body : String) :
    StageTracked hlc id (run environment (claimFingerprint proxy exchange info body) world) := by
  rw [claimFingerprint_eq]
  split
  swap
  · exact ready
  rename_i mayClaim
  have noKey : exchange.ctx.idempotencyKey = none := by
    simpa using (Bool.and_eq_true_iff.mp mayClaim).1
  have unheld : Unheld hlc world.engine := by
    rcases ready.lock with ⟨-, unheld⟩ | ⟨key, mine, -⟩
    · exact unheld
    · simp [noKey] at mine
  generalize fingerprint proxy exchange info body = key
  -- a free key is locked from here on; with a taken one the answer has no key to settle
  cases stored : world.engine key with
  | none =>
    rw [run_claim_of_free stored, ready.stamp]
    exact ⟨ready.stamp, ready.service, ready.notReplay, ready.notModeB, ready.method, ready.topic,
      .inr ⟨key, rfl, unheld.lock⟩⟩
  | some found =>
    have ended : (run environment (claim exchange key none "Replay (Fingerprint)" info.operationName)
        world).1 = .done (endOfTaken exchange found) := run_claim_of_taken stored
    have kept : (run environment (claim exchange key none "Replay (Fingerprint)" info.operationName)
        world).2.engine = world.engine := engine_claim_of_taken stored
    generalize run environment (claim exchange key none _ _) world = ran at ended kept ⊢
    obtain ⟨_, after⟩ := ran
    cases ended
    rw [← kept] at unheld
    refine .released unheld ?_
    unfold endOfTaken
    split
    · exact .inl noKey
    · split
      · exact .inr (.inl rfl)
      · exact .inl noKey

/-- Mode B settles the key itself. -/
theorem unheld_settleKey (ready : Ready hlc exchange world.engine) (dispatchOk : Bool)
    (body : String) :
    Unheld hlc (run environment (StrategyRouter.settleKey exchange.ctx dispatchOk body) world).2.engine := by
  unfold StrategyRouter.settleKey
  rcases ready.lock with ⟨noKey, unheld⟩ | ⟨key, mine, only⟩
  · rw [noKey]
    exact unheld
  · rw [mine]
    cases dispatchOk with
    | true => exact only.complete
    | false => exact only.remove

theorem tracked_forward (ready : Ready hlc exchange world.engine) (info : RequestInfo) :
    Tracked hlc (run environment (forward proxy exchange info) world).1.exchange
      (run environment (forward proxy exchange info) world).2.engine := by
  unfold forward
  rw [run_bind, run_pure, (leavesEngine_modeADispatchPolicy ..).engine_run]
  exact ready.tracked

theorem tracked_routeRequest (ready : Ready hlc exchange world.engine) (info : RequestInfo) :
    Tracked hlc (run environment (routeRequest proxy dynamic exchange info) world).1.exchange
      (run environment (routeRequest proxy dynamic exchange info) world).2.engine := by
  unfold routeRequest
  split
  · exact tracked_forward ready info
  rename_i route matched
  split
  · have refused : (run environment (refuseDisabled exchange info route) world).1 = ⟨.ok true, exchange⟩ :=
      (refuseDisabled_returns exchange info route).interp (handle environment) world
    rw [refused, (onlyAnswers_refuseDisabled ..).leavesEngine.engine_run]
    exact ready.tracked
  split
  · rw [run_bind, run_bind, run_pure, (leavesEngine_recordTrafficEvent ..).engine_run]
    unfold StrategyRouter.handleModeBEdge
    dsimp only
    rw [run_bind, run_bind, run_bind, run_pure, (leavesEngine_writeResponse ..).engine_run]
    have dispatched : (run environment (dispatchRequestInfo (proxy.sanitize info)) world).2.engine =
        world.engine := rfl
    rw [← dispatched] at ready
    exact .released (unheld_settleKey ready _ _) (.inr (.inr rfl))
  · have overridden : Ready hlc (overrideRoute dynamic exchange route) world.engine :=
      ⟨ready.stamp, ready.service, ready.notReplay, ready.notModeB, ready.method, ready.topic,
        ready.lock⟩
    exact tracked_forward overridden info

theorem tracked_filterDecoded {info : RequestInfo} {body : String}
    (ready : Ready hlc (noteRequest dynamic exchange info body) world.engine) :
    Tracked hlc (run environment (filterDecoded proxy dynamic exchange info body) world).1.exchange
      (run environment (filterDecoded proxy dynamic exchange info body) world).2.engine := by
  unfold filterDecoded
  refine StageTracked.andThen (stageTracked_runPipeline ready info body) ?_
  rintro ⟨piped, text⟩ after ready
  refine StageTracked.andThen (stageTracked_claimFingerprint ready info text) ?_
  intro claimed after ready
  exact tracked_routeRequest ready info

/-- A tracked request holds nothing once it is logged, whatever the upstream does. -/
theorem Tracked.unheld_afterRequestFilter {arrival : Arrival} {outcome : Outcome}
    (tracked : Tracked hlc outcome.exchange world.engine) :
    Unheld hlc (run environment (afterRequestFilter proxy dynamic arrival outcome) world).2.engine := by
  unfold afterRequestFilter
  split
  · exact tracked.unheld_logging environment
  · exact tracked.unheld_logging environment
  · rw [run_bind]
    obtain ⟨session, core⟩ := (core_proxyUpstream proxy dynamic outcome.exchange arrival.upstream
      arrival.elapsedMs).interp (handle environment) world
    refine Tracked.unheld_logging ?_ environment
    rw [(leavesEngine_proxyUpstream ..).engine_run]
    exact tracked.of_core session core

/-- A request that logging passes over leaves the engine as it is. -/
theorem engine_afterRequestFilter {arrival : Arrival} {outcome : Outcome}
    (passedOver : ¬ Loggable outcome.exchange) :
    (run environment (afterRequestFilter proxy dynamic arrival outcome) world).2.engine =
      world.engine := by
  unfold afterRequestFilter
  split
  · exact (onlyReports_logging (.inl passedOver)).leavesEngine.engine_run ..
  · exact (onlyReports_logging (.inl passedOver)).leavesEngine.engine_run ..
  · rw [run_bind]
    obtain ⟨session, core⟩ := (core_proxyUpstream proxy dynamic outcome.exchange arrival.upstream
      arrival.elapsedMs).interp (handle environment) world
    have still : ¬ Loggable (run environment (proxyUpstream proxy dynamic outcome.exchange
        arrival.upstream arrival.elapsedMs) world).1.2 := fun loggable =>
      passedOver (loggable.of_core session.symm core.symm)
    rw [(onlyReports_logging (.inl still)).leavesEngine.engine_run, (leavesEngine_proxyUpstream ..).engine_run]

end Phase

/-! ## The body decides -/

/-- A request that nothing is known of yet but its head. -/
structure Fresh (hlc : HlcTimestamp) (exchange : Exchange) : Prop where
  stamp : exchange.ctx.hlc = hlc
  topic : exchange.ctx.requestTopic = "spectra"
  operation : exchange.ctx.activeOperation = none
  info : exchange.ctx.requestInfo = none
  notReplay : exchange.ctx.isReplay = false
  notModeB : exchange.ctx.isModeBTerminated = false
  buffer : exchange.ctx.buffer = []

/-- The body of a request is not read to its end and decoded, and if it is too long the
    client does not take the whole refusal.  The refusal is written after `calls` calls. -/
def Abandoned (proxy : CompositeServiceProxy) (environment : Environment) (calls : Nat)
    (exchange : Exchange) : Prop :=
  match bodyRead exchange with
  | .failed _ _ => True
  | .tooLarge _ =>
    (environment.clientTakes calls && environment.clientTakes (calls + 1)) = false
  | .complete buffer => decodeBody proxy (examined exchange buffer) = none

section Body

variable {environment : Environment} {world : World} {proxy : CompositeServiceProxy}
  {dynamic : DynamicGatewayState} {exchange current : Exchange} {hlc : HlcTimestamp}

/-- Logging passes over a request that was not decoded. -/
theorem Fresh.not_loggable (fresh : Fresh hlc exchange) (buffer : Bytes) :
    ¬ Loggable (setBuffer exchange buffer) := by
  intro loggable
  have known := loggable.topic
  simp [loggingTopic, setBuffer, fresh.topic, fresh.operation, loggedRequest, fresh.info,
    RequestInfo.new] at known

/-- Only the body of a POST request is there to be decoded. -/
theorem method_of_decodeBody (empty : exchange.ctx.buffer = []) {buffer : Bytes}
    (read : bodyRead exchange = .complete buffer)
    {request : String × RequestInfo}
    (success : decodeBody proxy (setBuffer exchange buffer) = some request) :
    exchange.session.reqHeader.method = .post := by
  by_contra other
  have unread : buffer = [] := by
    simp only [bodyRead, other, if_false, empty, BodyRead.complete.injEq] at read
    exact read.symm
  exact (decodeBody_eq_some success).1 unread

theorem run_writeResponse_result (header : ResponseHeader) (body : String) :
    (run environment (writeResponse header body) world).1 =
      (environment.clientTakes world.trace.length &&
        environment.clientTakes (world.trace.length + 1)) := by
  unfold writeResponse
  rw [run_bind]
  have taken : (run environment (writeResponseHeader header) world).1 =
      environment.clientTakes world.trace.length := rfl
  rw [taken]
  cases environment.clientTakes world.trace.length with
  | false => rfl
  | true =>
    have length : (run environment (writeResponseHeader header) world).2.trace.length =
        world.trace.length + 1 := List.length_append
    rw [Bool.true_and, ← length]
    rfl

/-- The key of a body that is too long is given back once the client has the refusal. -/
theorem run_refusePayload (environment : Environment) (world : World) (exchange : Exchange)
    {key : String} (mine : exchange.ctx.idempotencyKey = some key) :
    (run environment (refusePayload exchange) world).1.exchange =
        (if environment.clientTakes world.trace.length &&
          environment.clientTakes (world.trace.length + 1) then exchange.setKey none else exchange) ∧
      (run environment (refusePayload exchange) world).2.engine =
        (if environment.clientTakes world.trace.length &&
          environment.clientTakes (world.trace.length + 1)
          then engineAfter (.remove key) world.engine else world.engine) := by
  unfold refusePayload
  dsimp only
  rw [run_bind, run_writeResponse_result]
  split
  · simp only [mine]
    rw [run_bind]
    refine ⟨rfl, ?_⟩
    have removed : ∀ world, (run environment (remove key) world).2.engine =
        engineAfter (.remove key) world.engine := fun _ => rfl
    rw [run_pure, removed, (leavesEngine_writeResponse ..).engine_run]
  · exact ⟨rfl, (leavesEngine_writeResponse ..).engine_run ..⟩

theorem run_refusePayload_of_no_key (environment : Environment) (world : World) (exchange : Exchange)
    (noKey : exchange.ctx.idempotencyKey = none) :
    (run environment (refusePayload exchange) world).1.exchange = exchange ∧
      (run environment (refusePayload exchange) world).2.engine = world.engine := by
  unfold refusePayload
  dsimp only
  rw [run_bind, noKey]
  split
  · exact ⟨rfl, (leavesEngine_writeResponse ..).engine_run ..⟩
  · exact ⟨rfl, (leavesEngine_writeResponse ..).engine_run ..⟩

/-- From the body on, a request without a lock, or whose body is not abandoned, is tracked. -/
theorem tracked_filterExamined (inHand : InHand exchange current) (fresh : Fresh hlc current)
    (service : current.ctx.service.isSome)
    (lock : (current.ctx.idempotencyKey = none ∧ Unheld hlc world.engine) ∨
      ∃ key, current.ctx.idempotencyKey = some key ∧ HeldAt hlc key world.engine ∧
        ¬ Abandoned proxy environment world.trace.length exchange) :
    Tracked hlc (run environment (filterExamined proxy dynamic current) world).1.exchange
      (run environment (filterExamined proxy dynamic current) world).2.engine := by
  cases read : bodyRead exchange with
  | failed error buffer =>
    unfold filterExamined
    rw [readRequestBody_eq, inHand.bodyRead, read]
    rcases lock with ⟨noKey, unheld⟩ | ⟨key, -, -, notAbandoned⟩
    · exact .released unheld (.inl noKey)
    · simp [Abandoned, read] at notAbandoned
  | tooLarge buffer =>
    unfold filterExamined
    rw [readRequestBody_eq, inHand.bodyRead, read]
    dsimp only
    rw [andThen_bind, run_bind]
    rcases lock with ⟨noKey, unheld⟩ | ⟨key, mine, only, notAbandoned⟩
    · obtain ⟨kept, engine⟩ := run_refusePayload_of_no_key environment world (setBuffer current buffer)
        noKey
      refine .released ?_ (.inl ?_)
      · exact engine ▸ unheld
      · exact (congrArg (fun ended : Exchange => ended.ctx.idempotencyKey) kept).trans noKey
    · -- the key is removed only if the client takes both writes of the refusal
      have taken : (environment.clientTakes world.trace.length &&
          environment.clientTakes (world.trace.length + 1)) = true := by
        simpa only [Abandoned, read, Bool.not_eq_false] using notAbandoned
      obtain ⟨kept, engine⟩ := run_refusePayload environment world (setBuffer current buffer) mine
      simp only [taken, if_true] at kept engine
      refine .released ?_ (.inl ?_)
      · exact engine ▸ only.remove
      · exact congrArg (fun ended : Exchange => ended.ctx.idempotencyKey) kept
  | complete buffer =>
    rw [run_filterExamined_of_complete (inHand.bodyRead.trans read)]
    unfold filterBody
    rw [inHand.decodeBody]
    cases success : decodeBody proxy (examined exchange buffer) with
    | none =>
      rcases lock with ⟨noKey, unheld⟩ | ⟨key, -, -, notAbandoned⟩
      · exact .released unheld (.inl noKey)
      · simp [Abandoned, read, success] at notAbandoned
    | some request =>
      obtain ⟨body, info⟩ := request
      have method : current.session.reqHeader.method = .post :=
        method_of_decodeBody fresh.buffer (inHand.bodyRead.trans read)
          ((inHand.decodeBody proxy buffer).trans success)
      refine tracked_filterDecoded ⟨fresh.stamp, service, fresh.notReplay, fresh.notModeB, ?_, ?_, ?_⟩
      · exact (congrArg isTransportCheck method).trans rfl
      · exact requestTopic_noteRequest dynamic (setBuffer current buffer) info body
      · rcases lock with ⟨noKey, unheld⟩ | ⟨key, mine, only, -⟩
        · exact .inl ⟨noKey, unheld⟩
        · exact .inr ⟨key, mine, only⟩

/-- An abandoned request keeps its key, and logging passes over it. -/
theorem stranded_filterExamined (dynamic : DynamicGatewayState) (world : World)
    (inHand : InHand exchange current) (fresh : Fresh hlc current) {key : String}
    (mine : current.ctx.idempotencyKey = some key)
    (abandoned : Abandoned proxy environment world.trace.length exchange) :
    ¬ Loggable (run environment (filterExamined proxy dynamic current) world).1.exchange ∧
      (run environment (filterExamined proxy dynamic current) world).2.engine = world.engine := by
  cases read : bodyRead exchange with
  | failed error buffer =>
    unfold filterExamined
    rw [readRequestBody_eq, inHand.bodyRead, read]
    exact ⟨fresh.not_loggable buffer, rfl⟩
  | tooLarge buffer =>
    -- one of the two writes of the refusal fails, so the release behind them is not reached
    have refused : (environment.clientTakes world.trace.length &&
        environment.clientTakes (world.trace.length + 1)) = false := by
      simpa only [Abandoned, read] using abandoned
    obtain ⟨kept, engine⟩ := run_refusePayload environment world (setBuffer current buffer) mine
    simp only [refused, Bool.false_eq_true, if_false] at kept engine
    unfold filterExamined
    rw [readRequestBody_eq, inHand.bodyRead, read]
    dsimp only
    rw [andThen_bind, run_bind]
    refine ⟨?_, engine⟩
    have notLoggable := fresh.not_loggable buffer
    rw [← kept] at notLoggable
    exact notLoggable
  | complete buffer =>
    have undecoded : decodeBody proxy (examined exchange buffer) = none := by
      simpa only [Abandoned, read] using abandoned
    rw [run_filterExamined_of_complete (inHand.bodyRead.trans read)]
    unfold filterBody
    rw [inHand.decodeBody, undecoded]
    exact ⟨fresh.not_loggable buffer, rfl⟩

end Body

/-! ## Which requests leave a lock behind -/

/-- The request gets a key of its own choice and its body is then abandoned.  The claim of
    the key is the only call before a refusal. -/
def Strands (proxy : CompositeServiceProxy) (dynamic : DynamicGatewayState)
    (environment : Environment) (engine : Engine) (arrival : Arrival) : Prop :=
  ∃ exchange key, Routed proxy dynamic arrival exchange ∧
    isSubscriptionUpgrade proxy exchange.session.reqHeader = false ∧
    explicitKey exchange.session = some key ∧ engine key = none ∧
    Abandoned proxy environment 1 exchange

section Arrival

variable {proxy : CompositeServiceProxy} {dynamic : DynamicGatewayState} {arrival : Arrival}
  {exchange : Exchange}

theorem resolveApp_eq (dynamic : DynamicGatewayState) (parts : RequestParts) (ctx : ProxyCtx) :
    ∃ appId addr, resolveApp dynamic parts ctx =
      { ctx with appId := appId, targetUpstreamAddr := addr } := by
  unfold resolveApp
  dsimp only
  split
  · exact ⟨_, _, rfl⟩
  · split <;> exact ⟨_, _, rfl⟩

/-- The early filter finds an app and a service and does nothing else. -/
theorem ctx_earlyRequestFilter {result : Except PingoraError Unit}
    (early : earlyRequestFilter proxy dynamic (arrival.exchange dynamic) = (result, exchange)) :
    ∃ appId addr service, exchange.ctx =
      { newCtx dynamic arrival.requestId arrival.hlc with
        appId := appId, targetUpstreamAddr := addr, service := service } := by
  unfold earlyRequestFilter at early
  dsimp only at early
  split at early
  · cases early
    exact ⟨_, _, _, rfl⟩
  · obtain ⟨appId, addr, resolved⟩ := resolveApp_eq dynamic arrival.session.reqHeader
      (newCtx dynamic arrival.requestId arrival.hlc)
    simp only [Arrival.exchange, resolved] at early
    split at early
    · cases early
      exact ⟨_, _, _, rfl⟩
    · cases early
      exact ⟨_, _, _, rfl⟩

theorem fresh_earlyRequestFilter {result : Except PingoraError Unit}
    (early : earlyRequestFilter proxy dynamic (arrival.exchange dynamic) = (result, exchange)) :
    Fresh arrival.hlc exchange ∧ exchange.ctx.idempotencyKey = none := by
  obtain ⟨appId, addr, service, same⟩ := ctx_earlyRequestFilter early
  refine ⟨⟨?_, ?_, ?_, ?_, ?_, ?_, ?_⟩, ?_⟩ <;> rw [same] <;> rfl

/-- A request that passes the early filter is routed to a service or answered at the edge. -/
theorem routed_or_edge
    (early : earlyRequestFilter proxy dynamic (arrival.exchange dynamic) = (.ok (), exchange)) :
    Routed proxy dynamic arrival exchange ∨
      (exchange.ctx.service = none ∧ isEdge proxy exchange.session.reqHeader = true) := by
  have ended := early
  unfold earlyRequestFilter at ended
  dsimp only at ended
  split at ended
  · rename_i edge
    cases ended
    exact .inr ⟨rfl, by simp only [isEdge, edge, Bool.true_or]⟩
  · split at ended
    · cases ended
      exact .inl ⟨early, rfl⟩
    · cases ended

theorem Fresh.stampRequest {hlc : HlcTimestamp} (fresh : Fresh hlc exchange) :
    Fresh hlc (stampRequest exchange) :=
  ⟨fresh.stamp, fresh.topic, fresh.operation, fresh.info, fresh.notReplay, fresh.notModeB,
    fresh.buffer⟩

theorem Fresh.setKey {hlc : HlcTimestamp} (fresh : Fresh hlc exchange) (key : Option String) :
    Fresh hlc (exchange.setKey key) :=
  ⟨fresh.stamp, fresh.topic, fresh.operation, fresh.info, fresh.notReplay, fresh.notModeB,
    fresh.buffer⟩

end Arrival

section Request

variable {proxy : CompositeServiceProxy} {dynamic : DynamicGatewayState} {environment : Environment}
  {engine : Engine} {arrival : Arrival} {exchange : Exchange}

/-- All that follows the early filter. -/
def afterEarlyFilter (proxy : CompositeServiceProxy) (dynamic : DynamicGatewayState)
    (arrival : Arrival) (exchange : Exchange) : GatewayProg Unit :=
  requestFilter proxy dynamic exchange >>= afterRequestFilter proxy dynamic arrival

theorem unheld_of_edge (edge : isEdge proxy exchange.session.reqHeader = true)
    (noKey : exchange.ctx.idempotencyKey = none) (unheld : Unheld arrival.hlc engine) :
    Unheld arrival.hlc
      (run environment (afterEarlyFilter proxy dynamic arrival exchange) ⟨engine, []⟩).2.engine := by
  obtain ⟨_, -, ended⟩ := run_answerAtEdge_of_edge environment ⟨engine, []⟩ edge
  unfold afterEarlyFilter requestFilter
  rw [run_bind, run_andThen_of_done ended]
  refine Tracked.unheld_afterRequestFilter (.released ?_ (.inl noKey))
  rw [(incidental_answerAtEdge ..).leavesEngine.engine_run]
  exact unheld

theorem unheld_of_taken (notEdge : isEdge proxy exchange.session.reqHeader = false) {key : String}
    (given : explicitKey exchange.session = some key) {found : KeyState}
    (stored : engine key = some found) (noKey : exchange.ctx.idempotencyKey = none)
    (unheld : Unheld arrival.hlc engine) :
    Unheld arrival.hlc
      (run environment (afterEarlyFilter proxy dynamic arrival exchange) ⟨engine, []⟩).2.engine := by
  have ended : (endOfTaken (stampRequest exchange) found).exchange.ctx.idempotencyKey = none := by
    cases found with
    | inProgress holder => exact noKey
    | completed holder statusCode headers body =>
      unfold endOfTaken
      dsimp only
      split <;> exact noKey
  unfold afterEarlyFilter
  rw [run_bind, run_requestFilter_of_taken notEdge given stored]
  refine Tracked.unheld_afterRequestFilter (.released ?_ (.inl ended))
  dsimp only
  rw [engine_claim_of_taken stored]
  exact unheld

theorem unheld_of_no_key (routed : Routed proxy dynamic arrival exchange)
    (notEdge : isEdge proxy exchange.session.reqHeader = false)
    (absent : explicitKey exchange.session = none) (fresh : Fresh arrival.hlc exchange)
    (noKey : exchange.ctx.idempotencyKey = none) (unheld : Unheld arrival.hlc engine) :
    Unheld arrival.hlc
      (run environment (afterEarlyFilter proxy dynamic arrival exchange) ⟨engine, []⟩).2.engine := by
  unfold afterEarlyFilter
  rw [run_bind, requestFilter_of_no_key notEdge absent]
  exact Tracked.unheld_afterRequestFilter (tracked_filterExamined (inHand_stampRequest exchange)
    fresh.stampRequest routed.2 (.inl ⟨noKey, unheld⟩))

/-- The lock of a request under its own key is settled exactly when the body is not abandoned. -/
theorem unheld_of_free_iff (routed : Routed proxy dynamic arrival exchange)
    (notEdge : isEdge proxy exchange.session.reqHeader = false) {key : String}
    (given : explicitKey exchange.session = some key) (free : engine key = none)
    (fresh : Fresh arrival.hlc exchange) (unheld : Unheld arrival.hlc engine) :
    Unheld arrival.hlc
        (run environment (afterEarlyFilter proxy dynamic arrival exchange) ⟨engine, []⟩).2.engine ↔
      ¬ Abandoned proxy environment 1 exchange := by
  unfold afterEarlyFilter
  rw [run_bind, run_requestFilter_of_free notEdge given free, fresh.stamp]
  have inHand := inHand_setKey exchange (some key)
  have claimed := fresh.stampRequest.setKey (some key)
  by_cases abandoned : Abandoned proxy environment 1 exchange
  · refine iff_of_false (fun settled => settled key ?_) (not_not_intro abandoned)
    obtain ⟨passedOver, kept⟩ := stranded_filterExamined dynamic
      (World.lock ⟨engine, []⟩ key arrival.hlc) inHand claimed rfl abandoned
    rw [engine_afterRequestFilter passedOver, kept]
    exact Function.update_self ..
  · refine iff_of_true (Tracked.unheld_afterRequestFilter ?_) abandoned
    exact tracked_filterExamined inHand claimed routed.2
      (.inr ⟨key, rfl, unheld.lock, abandoned⟩)

end Request

end SpectraGQL.Gateway
