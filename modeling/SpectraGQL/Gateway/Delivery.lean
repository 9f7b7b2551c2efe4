import SpectraGQL.Gateway.KeyProtocol

/-! # What a client receives of an upstream response

The gateway writes nothing to the client of a request that it sends upstream until the
response comes (`unanswered_requestFilter`).  Then the chunks of the body go through as they
are, or the interceptors make one body of them; `forwarded_of_ended` says what the client has
received in the end, and what the gateway has kept of it.
-/

namespace SpectraGQL.Gateway

open Interaction SpectraGQL.Core SpectraGQL.Http SpectraGQL.Protocol SpectraGQL.Interceptors
open SpectraGQL.Telemetry SpectraGQL.Idempotency

/-! ## What a client receives -/

structure Received where
  head : Option ResponseHeader
  body : Bytes

namespace Received

def none : Received := ⟨.none, []⟩

/-- A write that goes through adds to what the client has. -/
def add (got : Received) : Event gatewaySignature → Received
  | ⟨.writeResponseHeader header, taken⟩ =>
    match (taken : Bool) with
    | true => { got with head := some header }
    | false => got
  | ⟨.writeResponseBody bytes, taken⟩ =>
    match (taken : Bool) with
    | true => { got with body := got.body ++ bytes }
    | false => got
  | _ => got

def addBody (got : Received) (bytes : Bytes) : Received := { got with body := got.body ++ bytes }

theorem addBody_nil (got : Received) : got.addBody [] = got := by
  simp [addBody]

end Received

def received (trace : List (Event gatewaySignature)) : Received := trace.foldl Received.add .none

@[simp] theorem received_append (trace : List (Event gatewaySignature)) (event : Event gatewaySignature) :
    received (trace ++ [event]) = (received trace).add event := by
  simp [received]

def GatewayCall.isWrite : GatewayCall → Bool
  | .writeResponseHeader _ => true
  | .writeResponseBody _ => true
  | _ => false

/-- A call that writes nothing to the client. -/
def Silent (call : GatewayCall) : Prop := call.isWrite = false

theorem Received.add_of_silent {call : GatewayCall} (silent : Silent call) (answer : call.Answer)
    (got : Received) : got.add ⟨call, answer⟩ = got := by
  cases call <;> first | rfl | cases silent

theorem received_run {α : Type} {program : GatewayProg α} (silent : Prog.Only Silent program)
    (environment : Environment) (world : World) :
    received (run environment program world).2.trace = received world.trace := by
  refine Prog.Only.interp (fun world => received world.trace) silent (fun call before isSilent => ?_) world
  simp only [handle, received_append]
  exact Received.add_of_silent isSilent _ _

theorem OnlyReports.silent {α : Type} {program : GatewayProg α} (only : OnlyReports program) :
    Prog.Only Silent program :=
  only.mono fun call isReport => by cases call <;> first | rfl | cases isReport

theorem silent_logging (proxy : CompositeServiceProxy) (exchange : Exchange)
    (error : Option PingoraError) : Prog.Only Silent (logging proxy exchange error) := by
  have releases : ∀ ctx, Prog.Only Silent (releaseKey ctx) := by
    intro ctx
    unfold releaseKey
    split
    · exact Prog.Only.perform rfl
    · exact Prog.Only.ret _
  have completes : ∀ ctx status headers body, Prog.Only Silent (completeKey ctx status headers body) := by
    intro ctx status headers body
    unfold completeKey
    split
    · exact Prog.Only.perform rfl
    · exact Prog.Only.ret _
  unfold logging
  split
  · exact Prog.Only.ret _
  · exact Prog.Only.bind (onlyReports_recordLogged _).silent fun _ =>
      only_dispatchLogging fun topic info =>
        only_concludeRequest (fun _ _ => rfl) (releases _) (completes _) topic info

section Write

variable {environment : Environment} {world : World}
  (taken : environment.clientTakes world.trace.length = true)

include taken

theorem received_writeResponseHeader (header : ResponseHeader) :
    (run environment (writeResponseHeader header) world).1 = true ∧
      received (run environment (writeResponseHeader header) world).2.trace =
        { received world.trace with head := some header } := by
  refine ⟨taken, (received_append world.trace _).trans ?_⟩
  unfold answerOf
  dsimp only
  rw [taken]
  rfl

theorem received_writeResponseBody (bytes : Bytes) :
    (run environment (writeResponseBody bytes) world).1 = true ∧
      received (run environment (writeResponseBody bytes) world).2.trace =
        (received world.trace).addBody bytes := by
  refine ⟨taken, (received_append world.trace _).trans ?_⟩
  unfold answerOf
  dsimp only
  rw [taken]
  rfl

end Write

/-! ## Before the response -/

/-- Whether nothing was written to the client so far. -/
def silence : Automaton gatewaySignature Bool where
  allowed := fun _ _ => True
  possible := IsVerdict
  next := fun quiet event => quiet && !event.call.isWrite

/-- A request on its way upstream: nothing is written, and its context is as it came. -/
structure Unanswered (exchange : Exchange) (quiet : Bool) : Prop where
  isQuiet : quiet = true
  noBody : exchange.ctx.responseBody = none
  plain : exchange.ctx.hasResponseInterception = false
  notModeB : exchange.ctx.isModeBTerminated = false

/-- If the phase ends with the request on its way upstream, the client has got nothing. -/
def ForwardsUnanswered (outcome : Outcome) (quiet : Bool) : Prop :=
  outcome.result = .ok false → Unanswered outcome.exchange quiet

section Unanswered

variable {proxy : CompositeServiceProxy} {dynamic : DynamicGatewayState} {exchange : Exchange}
  {quiet : Bool}

theorem obeys_silence {α : Type} {program : GatewayProg α} {post : α → Prop}
    (returns : program.Returns post) (quiet : Bool) :
    program.Obeys silence (fun value _ => post value) quiet := by
  induction program generalizing quiet with
  | ret value => exact returns
  | call request rest inductionHypothesis =>
    exact ⟨trivial, fun answer _ => inductionHypothesis answer (returns.2 answer trivial) _⟩

theorem forwardsUnanswered_of_answered {program : GatewayProg Outcome}
    (answered : program.Returns fun outcome => outcome.result ≠ .ok false) (quiet : Bool) :
    program.Obeys silence ForwardsUnanswered quiet :=
  (obeys_silence answered quiet).mono fun _ _ notForwarded forwarded => absurd forwarded notForwarded

theorem quiet_of_silent {α : Type} {program : GatewayProg α} (silent : Prog.Only Silent program) :
    program.Obeys silence (fun _ after => after = quiet) quiet := by
  refine (Prog.Only.obeys silent (Prog.returns_true _) fun call isSilent => ⟨trivial, fun _ => ?_⟩).mono
    fun _ _ same => same.2
  simp [silence, show call.isWrite = false from isSilent]

theorem unanswered_claim (unanswered : Unanswered exchange quiet) (key : String)
    (shownKey : Option String) (mode : String) (operationName : Option String) :
    (claim exchange key shownKey mode operationName).Obeys silence
      (fun ended quiet => ended.Ends (ForwardsUnanswered · quiet) (Unanswered · quiet)) quiet := by
  unfold claim IdempotencyFilter.claimKey
  rw [Prog.bind_assoc]
  have asked : Prog.Only Silent (checkOrInsert key exchange.ctx.hlc) := Prog.Only.perform rfl
  refine (quiet_of_silent asked).bind ?_
  rintro outcome _ rfl
  by_cases isNew : outcome = .new
  · subst isNew
    exact ⟨unanswered.isQuiet, unanswered.noBody, unanswered.plain, unanswered.notModeB⟩
  · refine (obeys_silence (refused_answerClaim isNew ..) _).bind fun result _ refused => ?_
    refine (obeys_silence (afterClaim_of_refused refused exchange mode operationName) _).mono ?_
    rintro (outcome | after) _ ended
    · exact fun forwarded => absurd forwarded ended.1
    · exact ended.elim

theorem answered_true : (.ok true : Except PingoraError Bool) ≠ .ok false := by
  intro impossible
  cases impossible

theorem answered_rejectRequest (info : RequestInfo) (rejection : InterceptorRejection) :
    (rejectRequest exchange info rejection).Returns fun outcome => outcome.result ≠ .ok false := by
  refine (rejectRequest_returns exchange info rejection).mono ?_
  rintro _ _ rfl
  exact answered_true

theorem unanswered_routeRequest (unanswered : Unanswered exchange quiet) (info : RequestInfo) :
    (routeRequest proxy dynamic exchange info).Obeys silence ForwardsUnanswered quiet := by
  have forwards : ∀ current, Unanswered current quiet →
      (forward proxy current info).Obeys silence ForwardsUnanswered quiet := by
    intro current isUnanswered
    have silent : Prog.Only Silent
        (StrategyRouter.handleModeADispatchPolicy proxy current.ctx.dispatchPolicy info) := by
      unfold StrategyRouter.handleModeADispatchPolicy
      cases current.ctx.dispatchPolicy with
      | rawAudit => exact Prog.Only.bind (Prog.Only.perform rfl) fun _ => Prog.Only.ret _
      | responseOnly | responseWithFailure | none => exact Prog.Only.ret _
    refine (quiet_of_silent silent).bind ?_
    rintro _ _ rfl
    exact fun _ => isUnanswered
  unfold routeRequest
  split
  · exact forwards exchange unanswered
  split
  · refine forwardsUnanswered_of_answered ((refuseDisabled_returns exchange info _).mono ?_) _
    rintro _ _ rfl
    exact answered_true
  split
  · refine forwardsUnanswered_of_answered ?_ _
    refine (Prog.returns_true _).bind fun _ _ => (Prog.returns_true _).bind fun _ _ => ?_
    exact Prog.Returns.ret answered_true
  · exact forwards _
      ⟨unanswered.isQuiet, unanswered.noBody, unanswered.plain, unanswered.notModeB⟩

theorem Unanswered.accepted (unanswered : Unanswered exchange quiet) (body : String)
    (verdict : InterceptorVerdict) : Unanswered (accepted exchange body verdict).1 quiet := by
  obtain ⟨isQuiet, noBody, plain, notModeB⟩ := unanswered
  cases verdict with
  | transform headers newBody => cases newBody <;> exact ⟨isQuiet, noBody, plain, notModeB⟩
  | pass | audit _ _ _ | reject _ => exact ⟨isQuiet, noBody, plain, notModeB⟩

/-- The stages after the pipeline. -/
theorem unanswered_afterPipeline {request : Exchange × String} (unanswered : Unanswered request.1 quiet)
    (info : RequestInfo) :
    (afterPipeline proxy dynamic info request).Obeys silence ForwardsUnanswered quiet := by
  refine Stage.obeys_andThen Unanswered ?_ fun _ _ isUnanswered =>
    unanswered_routeRequest isUnanswered info
  rw [claimFingerprint_eq]
  split
  · exact unanswered_claim unanswered ..
  · exact unanswered

theorem unanswered_filterDecoded (unanswered : Unanswered exchange quiet) (info : RequestInfo)
    (body : String) :
    (filterDecoded proxy dynamic exchange info body).Obeys silence ForwardsUnanswered quiet := by
  have noted : Unanswered (noteRequest dynamic exchange info body) quiet :=
    ⟨unanswered.isQuiet, unanswered.noBody, unanswered.plain, unanswered.notModeB⟩
  have piped : (runPipeline dynamic (noteRequest dynamic exchange info body) info body).Obeys
      silence _ quiet :=
    runPipeline_obeys info body (fun _ possible => possible)
      (fun _ _ _ _ => ⟨trivial, fun _ => Bool.and_true quiet⟩)
      fun rejection => forwardsUnanswered_of_answered (answered_rejectRequest info rejection) quiet
  refine Stage.obeys_andThen _ piped ?_
  rintro request after ⟨rfl, -, rfl⟩
  exact unanswered_afterPipeline (noted.accepted body _) info

/-- From the body on. -/
theorem unanswered_filterExamined (unanswered : Unanswered exchange quiet) :
    (filterExamined proxy dynamic exchange).Obeys silence ForwardsUnanswered quiet := by
  have buffered : ∀ buffer, Unanswered (setBuffer exchange buffer) quiet := fun _ =>
    ⟨unanswered.isQuiet, unanswered.noBody, unanswered.plain, unanswered.notModeB⟩
  refine Stage.obeys_andThen Unanswered ?_ fun current quiet isUnanswered => ?_
  · rw [readRequestBody_eq]
    cases bodyRead exchange with
    | failed error buffer =>
      intro impossible
      cases impossible
    | tooLarge buffer =>
      have refused : (refusePayload (setBuffer exchange buffer)).Returns fun outcome =>
          outcome.result ≠ .ok false := by
        refine (refusePayload_returns _).mono ?_
        rintro _ _ ⟨_, rfl⟩
        exact answered_true
      exact (forwardsUnanswered_of_answered refused quiet).bind fun _ _ ended => ended
    | complete buffer => exact buffered buffer
  · unfold filterBody
    split
    · exact unanswered_filterDecoded isUnanswered _ _
    · exact fun _ => isUnanswered

theorem silent_admin (adminPrefix : Option String) (path : String) :
    Prog.Only Silent (AdminFilter.handle adminPrefix path) := by
  unfold AdminFilter.handle
  split
  · exact Prog.Only.bind (Prog.Only.perform rfl) fun
      | .ok () => Prog.Only.ret _
      | .error _ => Prog.Only.ret _
  · exact Prog.Only.ret _

/-- A filter that answers tells so. -/
theorem obeys_of_answers {program : GatewayProg Bool}
    (answers : program.Returns fun answers => answers = true) (quiet : Bool) :
    program.Obeys silence (fun answers after => answers = false → after = quiet) quiet := by
  refine (obeys_silence answers quiet).mono fun answers _ yes no => ?_
  rw [yes] at no
  cases no

theorem obeys_health (path : String) (quiet : Bool) :
    (HealthFilter.handle path).Obeys silence (fun answers after => answers = false → after = quiet) quiet := by
  unfold HealthFilter.handle
  split
  · exact obeys_of_answers ((Prog.returns_true _).bind fun _ _ => Prog.Returns.ret rfl) quiet
  · split
    · exact obeys_of_answers ((Prog.returns_true _).bind fun _ _ => Prog.Returns.ret rfl) quiet
    · exact fun _ => rfl

theorem obeys_favicon (faviconSvg path : String) (quiet : Bool) :
    (FaviconFilter.handle faviconSvg path).Obeys silence
      (fun answers after => answers = false → after = quiet) quiet := by
  unfold FaviconFilter.handle
  split
  · exact obeys_of_answers ((Prog.returns_true _).bind fun _ _ => Prog.Returns.ret rfl) quiet
  · exact fun _ => rfl

/-- A request that the edge does not answer has got nothing from it. -/
theorem unanswered_answerAtEdge (unanswered : Unanswered exchange quiet) :
    (answerAtEdge proxy exchange).Obeys silence
      (fun ended quiet => ended.Ends (ForwardsUnanswered · quiet) (Unanswered · quiet)) quiet := by
  have answered : ∀ quiet, (Stage.answered exchange).Ends (ForwardsUnanswered · quiet)
      (Unanswered · quiet) := by
    intro _ impossible
    cases impossible
  have failed : ∀ error quiet, (Stage.failed error exchange).Ends (ForwardsUnanswered · quiet)
      (Unanswered · quiet) := by
    intro _ _ impossible
    cases impossible
  -- each of the edge's own answers ends the request, what is left is as quiet as before
  unfold answerAtEdge
  refine (obeys_health _ quiet).bind fun isProbe _ stays => ?_
  split
  · exact answered _
  rename_i notProbe
  rw [stays (Bool.eq_false_iff.mpr notProbe)]
  refine (obeys_favicon _ _ quiet).bind fun isIcon _ stays => ?_
  split
  · exact answered _
  rename_i notIcon
  rw [stays (Bool.eq_false_iff.mpr notIcon)]
  refine (quiet_of_silent (silent_admin ..)).bind ?_
  rintro result _ rfl
  split
  · exact failed _ _
  · exact answered _
  · split
    · have upgraded : Prog.Only Silent handleWebsocketSubscription := Prog.Only.perform rfl
      refine (quiet_of_silent upgraded).bind ?_
      rintro result _ rfl
      split
      · exact failed _ _
      · exact answered _
    · exact unanswered

theorem unanswered_requestFilter (unanswered : Unanswered exchange quiet) :
    (requestFilter proxy dynamic exchange).Obeys silence ForwardsUnanswered quiet := by
  refine Stage.obeys_andThen Unanswered (unanswered_answerAtEdge unanswered) ?_
  intro exchange quiet unanswered
  have stamped : Unanswered (stampRequest exchange) quiet :=
    ⟨unanswered.isQuiet, unanswered.noBody, unanswered.plain, unanswered.notModeB⟩
  refine Stage.obeys_andThen Unanswered ?_ fun _ _ isUnanswered =>
    unanswered_filterExamined isUnanswered
  cases given : explicitKey (stampRequest exchange).session with
  | none =>
    rw [claimExplicitKey_of_none given]
    exact stamped
  | some key =>
    rw [claimExplicitKey_of_some given]
    exact unanswered_claim stamped ..

theorem isVerdict_handle (environment : Environment) (call : GatewayCall) (world : World) :
    IsVerdict ⟨call, (handle environment call world).1⟩ := by
  cases call <;> first | rfl | trivial

/-- A request that goes upstream has got nothing from the gateway. -/
theorem received_of_forwarded (unanswered : Unanswered exchange true) (environment : Environment)
    {world : World} (nothing : received world.trace = .none)
    (forwarded : (run environment (requestFilter proxy dynamic exchange) world).1.result = .ok false) :
    received (run environment (requestFilter proxy dynamic exchange) world).2.trace = .none ∧
      Unanswered (run environment (requestFilter proxy dynamic exchange) world).1.exchange true := by
  have keeps : ∀ (quiet : Bool) (call : GatewayCall) (world : World),
      (quiet = true → received world.trace = .none) → silence.allowed quiet call →
      silence.possible ⟨call, (handle environment call world).1⟩ ∧
        (silence.next quiet ⟨call, (handle environment call world).1⟩ = true →
          received (handle environment call world).2.trace = .none) := by
    intro quiet call world got _
    refine ⟨isVerdict_handle environment call world, fun quietAfter => ?_⟩
    obtain ⟨wasQuiet, isSilent⟩ := Bool.and_eq_true_iff.mp quietAfter
    have silent : call.isWrite = false := by simpa using isSilent
    simp only [handle, received_append]
    rw [Received.add_of_silent silent]
    exact got wasQuiet
  obtain ⟨quiet, holds, got⟩ :=
    (@unanswered_requestFilter proxy dynamic exchange true unanswered).interp _ keeps fun _ => nothing
  have isUnanswered := holds forwarded
  cases isUnanswered.isQuiet
  exact ⟨got rfl, isUnanswered⟩

/-- A request that goes upstream with a key holds it. -/
theorem held_of_forwarded (unanswered : Unanswered exchange true)
    (noKey : exchange.ctx.idempotencyKey = none) (environment : Environment) (world : World)
    (notModeB :
      (run environment (requestFilter proxy dynamic exchange) world).1.exchange.ctx.isModeBTerminated = false)
    {key : String}
    (mine : (run environment (requestFilter proxy dynamic exchange) world).1.exchange.ctx.idempotencyKey =
      some key) :
    (run environment (requestFilter proxy dynamic exchange) world).2.engine key =
      some (.inProgress exchange.ctx.hlc) := by
  have keepsHeld : ∀ (phase : KeyPhase) (call : GatewayCall) (world : World),
      (∀ key, phase = .holding key → world.engine key = some (.inProgress exchange.ctx.hlc)) →
      (keyProtocol (resolvedKey proxy dynamic exchange) exchange.ctx.hlc).allowed phase call →
      IsVerdict ⟨call, (handle environment call world).1⟩ ∧
        ∀ key, KeyPhase.next phase ⟨call, (handle environment call world).1⟩ = .holding key →
          (handle environment call world).2.engine key = some (.inProgress exchange.ctx.hlc) := by
    intro phase call world held allowed
    refine ⟨isVerdict_handle environment call world, fun key holding => ?_⟩
    by_cases aside : Aside call
    · -- no other call touches the keys
      rw [KeyPhase.next_of_aside aside] at holding
      simp only [handle, engineAfter, show call.operation? = none from aside]
      exact held key holding
    cases call with
    | checkOrInsert claimed claimer =>
      have mine : claimer = exchange.ctx.hlc := by
        cases phase with
        | unclaimed => exact allowed.2
        | holding _ => cases allowed
        | settled => cases allowed
      cases found : world.engine claimed with
      | none =>
        -- a key that was free is held after the claim
        rw [handle_checkOrInsert_of_free found] at holding ⊢
        cases holding
        rw [mine]
        exact Function.update_self ..
      | some state =>
        rw [handle_checkOrInsert_of_taken found] at holding
        cases state <;> cases holding
    | complete _ _ _ _ _ => cases holding
    | remove _ => cases holding
    | _ => exact absurd rfl aside
  have unclaimed : ∀ key, KeyPhase.unclaimed = .holding key →
      world.engine key = some (.inProgress exchange.ctx.hlc) := by
    intro _ impossible
    cases impossible
  obtain ⟨phase, keeps, held⟩ :=
    (@obeys_requestFilter exchange.ctx.hlc proxy dynamic exchange
      (owns_unclaimed rfl unanswered.notModeB noKey) noKey).interp _ keepsHeld unclaimed
  refine held key ((keeps.held key mine).resolve_left fun modeB => ?_)
  cases notModeB.symm.trans modeB

end Unanswered

/-! ## The stream of a body -/

/-- The bytes of a body in chunks. -/
def wholeBody (chunks : List (Option Bytes)) : Bytes := (chunks.map fun chunk => chunk.getD []).flatten

@[simp] theorem wholeBody_nil : wholeBody [] = [] := rfl

@[simp] theorem wholeBody_cons (chunk : Option Bytes) (rest : List (Option Bytes)) :
    wholeBody (chunk :: rest) = chunk.getD [] ++ wholeBody rest := rfl

/-- What is kept of a body does not depend on its chunks. -/
theorem capture_append (limit : Nat) (buffer first second : Bytes) :
    capture limit (capture limit buffer first) second = capture limit buffer (first ++ second) := by
  have room : limit - (buffer.length + min (limit - buffer.length) first.length) =
      limit - buffer.length - first.length := by omega
  unfold capture
  rw [List.take_append, List.append_assoc, List.length_append, List.length_take, room]

section Stream

variable (proxy : CompositeServiceProxy) (dynamic : DynamicGatewayState) (environment : Environment)
  (elapsedMs : Nat)

/-- What goes on with a stream after a chunk, if the stream comes to its end. -/
theorem run_streamChunks_cons {ctx : ProxyCtx} {broken : Option PingoraError} {chunk : Option Bytes}
    {rest : List (Option Bytes)} {world : World}
    (ended : (run environment (streamChunks proxy dynamic elapsedMs broken ctx (chunk :: rest)) world).1.1 =
      none) :
    ∃ after, received after.trace = (received world.trace).addBody
        ((responseBodyFilter proxy dynamic ctx elapsedMs chunk (rest.isEmpty && broken.isNone)).2.getD []) ∧
      run environment (streamChunks proxy dynamic elapsedMs broken ctx (chunk :: rest)) world =
        run environment (streamChunks proxy dynamic elapsedMs broken
          (responseBodyFilter proxy dynamic ctx elapsedMs chunk (rest.isEmpty && broken.isNone)).1 rest)
          after := by
  unfold streamChunks at ended
  rw [streamChunks]
  cases sent : (responseBodyFilter proxy dynamic ctx elapsedMs chunk
      (rest.isEmpty && broken.isNone)).2 with
  | none => exact ⟨world, (Received.addBody_nil _).symm, rfl⟩
  | some bytes =>
    simp only [sent] at ended ⊢
    rw [run_bind] at ended ⊢
    cases taken : environment.clientTakes world.trace.length with
    | false =>
      -- the client is gone, and the stream does not end well
      have refused : (run environment (writeResponseBody bytes) world).1 = false := taken
      rw [refused] at ended
      cases ended
    | true =>
      obtain ⟨wrote, got⟩ := received_writeResponseBody taken bytes
      refine ⟨(run environment (writeResponseBody bytes) world).2, got, ?_⟩
      rw [wrote]
      rfl

/-- Only a stream that does not break comes to its end. -/
theorem unbroken_of_ended {broken : Option PingoraError} {ctx : ProxyCtx} {chunks : List (Option Bytes)}
    {world : World}
    (ended : (run environment (streamChunks proxy dynamic elapsedMs broken ctx chunks) world).1.1 = none) :
    broken = none := by
  induction chunks generalizing ctx world with
  | nil => exact ended
  | cons chunk rest inductionHypothesis =>
    obtain ⟨after, -, same⟩ := run_streamChunks_cons proxy dynamic environment elapsedMs ended
    rw [same] at ended
    exact inductionHypothesis ended

/-- The context at the end of a stream of which `bytes` were kept. -/
structure Kept (before after : ProxyCtx) (bytes : Bytes) : Prop where
  parts : after.responseParts = before.responseParts
  body : loggedBody proxy after =
    ResponseBody.new proxy.crates (responseHeaders before) ((fromUtf8 bytes).getD "")

theorem responseBodyFilter_of_plain {ctx : ProxyCtx} (plain : ctx.hasResponseInterception = false)
    (chunk : Option Bytes) (last : Bool) :
    responseBodyFilter proxy dynamic ctx elapsedMs chunk last =
      streamBody proxy dynamic ctx chunk last := by
  unfold responseBodyFilter
  rw [if_neg (by simp [plain])]

theorem streamBody_of_more (ctx : ProxyCtx) (chunk : Option Bytes) :
    streamBody proxy dynamic ctx chunk false =
      ({ ctx with buffer := capture (captureLimit dynamic ctx) ctx.buffer (chunk.getD []) }, chunk) := by
  cases chunk with
  | none => simp [streamBody, capture]
  | some bytes => rfl

theorem kept_noteResponseBody {before ctx : ProxyCtx} (parts : ctx.responseParts = before.responseParts)
    (bytes : Bytes) : Kept proxy before (noteResponseBody proxy ctx bytes) bytes where
  parts := parts
  body := by
    unfold loggedBody noteResponseBody responseHeaders
    rw [parts]
    rfl

theorem streamBody_of_last (ctx : ProxyCtx) (chunk : Option Bytes) :
    Kept proxy ctx (streamBody proxy dynamic ctx chunk true).1
      (capture (captureLimit dynamic ctx) ctx.buffer (chunk.getD [])) ∧
      (streamBody proxy dynamic ctx chunk true).2 = chunk := by
  have previewed : ∀ (captured : Bool) (seen : ProxyCtx) (text : Option String),
      (if captured then { seen with errorPreview := text } else seen).responseParts = seen.responseParts ∧
        (if captured then { seen with errorPreview := text } else seen).buffer = seen.buffer := by
    intro captured seen text
    cases captured <;> exact ⟨rfl, rfl⟩
  refine ⟨?_, rfl⟩
  unfold streamBody
  dsimp only
  rw [if_pos rfl, (previewed _ _ _).2]
  cases chunk with
  | none =>
    rw [show capture (captureLimit dynamic ctx) ctx.buffer (Option.getD none []) = ctx.buffer by
      simp [capture]]
    exact kept_noteResponseBody proxy (previewed _ _ _).1 _
  | some bytes =>
    refine kept_noteResponseBody proxy ?_ _
    exact (previewed _ _ _).1

theorem Kept.of_parts {before changed after : ProxyCtx} {bytes : Bytes}
    (kept : Kept proxy changed after bytes) (same : changed.responseParts = before.responseParts) :
    Kept proxy before after bytes where
  parts := kept.parts.trans same
  body := by
    rw [kept.body]
    unfold responseHeaders
    rw [same]

/-- Without interceptors the client gets the body as it is, and the start of it is kept. -/
theorem streamed_of_plain {ctx : ProxyCtx} (plain : ctx.hasResponseInterception = false)
    (chunk : Option Bytes) (rest : List (Option Bytes)) (world : World)
    (ended : (run environment (streamChunks proxy dynamic elapsedMs none ctx (chunk :: rest)) world).1.1 =
      none) :
    received (run environment (streamChunks proxy dynamic elapsedMs none ctx (chunk :: rest)) world).2.trace =
        (received world.trace).addBody (wholeBody (chunk :: rest)) ∧
      Kept proxy ctx
        (run environment (streamChunks proxy dynamic elapsedMs none ctx (chunk :: rest)) world).1.2
        (capture (captureLimit dynamic ctx) ctx.buffer (wholeBody (chunk :: rest))) := by
  induction rest generalizing ctx chunk world with
  | nil =>
    obtain ⟨after, got, same⟩ := run_streamChunks_cons proxy dynamic environment elapsedMs ended
    obtain ⟨kept, sent⟩ := streamBody_of_last proxy dynamic ctx chunk
    rw [same]
    simp only [responseBodyFilter_of_plain proxy dynamic elapsedMs plain, List.isEmpty_nil,
      Option.isNone_none, Bool.and_self, sent] at got ⊢
    rw [wholeBody_cons, wholeBody_nil, List.append_nil]
    exact ⟨got, kept⟩
  | cons next rest inductionHypothesis =>
    obtain ⟨after, got, same⟩ := run_streamChunks_cons proxy dynamic environment elapsedMs ended
    rw [same] at ended ⊢
    simp only [responseBodyFilter_of_plain proxy dynamic elapsedMs plain, List.isEmpty_cons,
      Bool.false_and, streamBody_of_more] at got ended ⊢
    -- a chunk only adds to the buffer
    have stillPlain : ({ ctx with buffer := capture (captureLimit dynamic ctx) ctx.buffer (chunk.getD []) } :
        ProxyCtx).hasResponseInterception = false := plain
    obtain ⟨gotRest, kept⟩ := inductionHypothesis stillPlain next after ended
    refine ⟨?_, ?_⟩
    · rw [gotRest, got]
      simp [Received.addBody]
    · rw [wholeBody_cons, ← capture_append]
      exact kept.of_parts proxy rfl

theorem responseBodyFilter_of_intercepted {ctx : ProxyCtx}
    (intercepted : ctx.hasResponseInterception = true) (chunk : Option Bytes) (last : Bool) :
    responseBodyFilter proxy dynamic ctx elapsedMs chunk last =
      interceptBody proxy dynamic ctx elapsedMs chunk last := by
  unfold responseBodyFilter
  rw [if_pos intercepted]

/-- The body that interceptors make of a whole one. -/
def interceptedBody (ctx : ProxyCtx) (whole : Bytes) : Bytes :=
  finalBytes whole (responseVerdict dynamic { ctx with buffer := whole } elapsedMs)

theorem interceptBody_of_last (ctx : ProxyCtx) (chunk : Option Bytes) :
    Kept proxy ctx (interceptBody proxy dynamic ctx elapsedMs chunk true).1
      (interceptedBody dynamic elapsedMs ctx (ctx.buffer ++ chunk.getD [])) ∧
      (interceptBody proxy dynamic ctx elapsedMs chunk true).2 =
        some (interceptedBody dynamic elapsedMs ctx (ctx.buffer ++ chunk.getD [])) := by
  have noted : ∀ (seen : ProxyCtx) (verdict : InterceptorVerdict),
      (noteVerdict proxy seen verdict).responseParts = seen.responseParts := by
    intro seen verdict
    cases verdict <;> rfl
  refine ⟨?_, rfl⟩
  unfold interceptBody
  dsimp only
  rw [if_pos rfl]
  refine kept_noteResponseBody proxy ?_ _
  exact noted _ _

/-- With interceptors the client gets what they make of the body, and all of that is kept. -/
theorem streamed_of_intercepted {ctx : ProxyCtx} (intercepted : ctx.hasResponseInterception = true)
    (chunk : Option Bytes) (rest : List (Option Bytes)) (world : World)
    (ended : (run environment (streamChunks proxy dynamic elapsedMs none ctx (chunk :: rest)) world).1.1 =
      none) :
    received (run environment (streamChunks proxy dynamic elapsedMs none ctx (chunk :: rest)) world).2.trace =
        (received world.trace).addBody
          (interceptedBody dynamic elapsedMs ctx (ctx.buffer ++ wholeBody (chunk :: rest))) ∧
      Kept proxy ctx
        (run environment (streamChunks proxy dynamic elapsedMs none ctx (chunk :: rest)) world).1.2
        (interceptedBody dynamic elapsedMs ctx (ctx.buffer ++ wholeBody (chunk :: rest))) := by
  induction rest generalizing ctx chunk world with
  | nil =>
    obtain ⟨after, got, same⟩ := run_streamChunks_cons proxy dynamic environment elapsedMs ended
    obtain ⟨kept, sent⟩ := interceptBody_of_last proxy dynamic elapsedMs ctx chunk
    rw [same]
    simp only [responseBodyFilter_of_intercepted proxy dynamic elapsedMs intercepted, List.isEmpty_nil,
      Option.isNone_none, Bool.and_self, sent] at got ⊢
    rw [wholeBody_cons, wholeBody_nil, List.append_nil]
    exact ⟨got, kept⟩
  | cons next rest inductionHypothesis =>
    obtain ⟨after, got, same⟩ := run_streamChunks_cons proxy dynamic environment elapsedMs ended
    rw [same] at ended ⊢
    rw [List.isEmpty_cons, Bool.false_and,
      responseBodyFilter_of_intercepted proxy dynamic elapsedMs intercepted] at got ended ⊢
    have stillIntercepted : (interceptBody proxy dynamic ctx elapsedMs chunk
        false).1.hasResponseInterception = true := intercepted
    obtain ⟨gotRest, kept⟩ := inductionHypothesis stillIntercepted next after ended
    -- before the last chunk nothing is sent, the body is only collected
    have silent : received after.trace = received world.trace := by
      rw [got]
      simp [interceptBody, Received.addBody]
    have sameBody : interceptedBody dynamic elapsedMs ctx (ctx.buffer ++ wholeBody (chunk :: next :: rest)) =
        interceptedBody dynamic elapsedMs (interceptBody proxy dynamic ctx elapsedMs chunk false).1
          ((interceptBody proxy dynamic ctx elapsedMs chunk false).1.buffer ++ wholeBody (next :: rest)) := by
      rw [wholeBody_cons chunk, ← List.append_assoc]
      rfl
    rw [gotRest, silent, sameBody]
    exact ⟨rfl, kept.of_parts proxy rfl⟩

end Stream

/-! ## The whole response -/

section Response

variable (proxy : CompositeServiceProxy) (dynamic : DynamicGatewayState) (environment : Environment)
  (elapsedMs : Nat)

/-- The body of a response as the client gets it. -/
def deliveredBody (ctx : ProxyCtx) (head : ResponseHeader) (chunks : List (Option Bytes)) : Bytes :=
  if dynamic.interceptorManager.hasResponseInterceptors ctx.activeOperation && !chunks.isEmpty then
    interceptedBody dynamic elapsedMs (responseFilter dynamic ctx head).1 (wholeBody chunks)
  else wholeBody chunks

/-- How much of a response is kept: all of what interceptors were given, or a start. -/
def keptLimit (ctx : ProxyCtx) (head : ResponseHeader) : Option Nat :=
  if dynamic.interceptorManager.hasResponseInterceptors ctx.activeOperation then none
  else some (captureLimit dynamic (responseFilter dynamic ctx head).1)

/-- The start of a body up to a limit. -/
def upTo (limit : Option Nat) (body : Bytes) : Bytes := limit.elim body fun bytes => body.take bytes

/-- What was collected of the request does not matter to the response. -/
theorem responseFilter_requestBodyFilter (ctx : ProxyCtx) (sent : List Bytes) (head : ResponseHeader) :
    responseFilter dynamic (sent.foldl requestBodyFilter ctx) head = responseFilter dynamic ctx head := by
  induction sent generalizing ctx with
  | nil => rfl
  | cons chunk rest inductionHypothesis =>
    rw [List.foldl_cons, inductionHypothesis]
    unfold requestBodyFilter
    split <;> rfl

theorem responseFilter_plain {ctx : ProxyCtx} (plain : ctx.hasResponseInterception = false)
    (head : ResponseHeader) :
    (responseFilter dynamic ctx head).1.hasResponseInterception =
      dynamic.interceptorManager.hasResponseInterceptors ctx.activeOperation := by
  unfold responseFilter
  dsimp only
  split
  · rename_i intercepted
    exact intercepted.symm
  · rename_i none
    exact plain.trans (Bool.eq_false_iff.mpr none).symm

theorem responseFilter_fields (ctx : ProxyCtx) (head : ResponseHeader) :
    (responseFilter dynamic ctx head).1.buffer = [] ∧
      (responseFilter dynamic ctx head).1.responseBody = ctx.responseBody ∧
      (responseFilter dynamic ctx head).1.dispatchPolicy = ctx.dispatchPolicy := by
  unfold responseFilter
  dsimp only
  split <;> exact ⟨rfl, rfl, rfl⟩

/-- What the client gets of a body that comes to its end, and what is kept of it. -/
theorem streamed_of_ended {ctx : ProxyCtx} (plain : ctx.hasResponseInterception = false)
    (noBody : ctx.responseBody = none) (head : ResponseHeader) (chunks : List (Option Bytes))
    (world : World)
    (ended : (run environment (streamChunks proxy dynamic elapsedMs none (responseFilter dynamic ctx head).1
      chunks) world).1.1 = none) :
    received (run environment (streamChunks proxy dynamic elapsedMs none (responseFilter dynamic ctx head).1
        chunks) world).2.trace =
        (received world.trace).addBody (deliveredBody dynamic elapsedMs ctx head chunks) ∧
      Kept proxy (responseFilter dynamic ctx head).1
        (run environment (streamChunks proxy dynamic elapsedMs none (responseFilter dynamic ctx head).1
          chunks) world).1.2
        (upTo (keptLimit dynamic ctx head) (deliveredBody dynamic elapsedMs ctx head chunks)) := by
  obtain ⟨empty, sameBody, -⟩ := responseFilter_fields dynamic ctx head
  have intercepts := responseFilter_plain dynamic plain head
  unfold keptLimit deliveredBody
  cases chunks with
  | nil =>
    -- no chunk at all: the empty text is kept
    have nothing : ∀ limit, fromUtf8 (upTo limit []) = some "" := by
      intro limit
      have empty : upTo limit [] = [] := by cases limit <;> simp [upTo]
      rw [empty]
      exact fromUtf8_asBytes ""
    simp only [List.isEmpty_nil, Bool.not_true, Bool.and_false, Bool.false_eq_true, if_false,
      wholeBody_nil]
    refine ⟨(Received.addBody_nil _).symm, rfl, ?_⟩
    rw [nothing]
    show loggedBody proxy (responseFilter dynamic ctx head).1 = _
    unfold loggedBody
    rw [sameBody, noBody]
    rfl
  | cons chunk rest =>
    cases intercepted : dynamic.interceptorManager.hasResponseInterceptors ctx.activeOperation with
    | true =>
      have streamed := streamed_of_intercepted proxy dynamic environment elapsedMs
        (intercepts.trans intercepted) chunk rest world ended
      rw [empty, List.nil_append] at streamed
      exact streamed
    | false =>
      have streamed := streamed_of_plain proxy dynamic environment elapsedMs
        (intercepts.trans intercepted) chunk rest world ended
      rw [empty] at streamed
      exact streamed

/-- What the client has received of a response that came to its end, and what is kept. -/
theorem forwarded_of_ended {exchange : Exchange} (plain : exchange.ctx.hasResponseInterception = false)
    (noBody : exchange.ctx.responseBody = none) {head : ResponseHeader} {chunks : List (Option Bytes)}
    {broken : Option PingoraError} {world : World}
    (ended : (run environment (proxyUpstream proxy dynamic exchange (.response head chunks broken)
      elapsedMs) world).1.1 = none) :
    received (run environment (proxyUpstream proxy dynamic exchange (.response head chunks broken)
        elapsedMs) world).2.trace =
        ⟨some (responseFilter dynamic exchange.ctx head).2,
          (received world.trace).body ++ deliveredBody dynamic elapsedMs exchange.ctx head chunks⟩ ∧
      Kept proxy (responseFilter dynamic exchange.ctx head).1
        (run environment (proxyUpstream proxy dynamic exchange (.response head chunks broken)
          elapsedMs) world).1.2.ctx
        (upTo (keptLimit dynamic exchange.ctx head)
          (deliveredBody dynamic elapsedMs exchange.ctx head chunks)) := by
  unfold proxyUpstream at ended ⊢
  cases peer : upstreamPeer dynamic exchange.ctx with
  | error error =>
    rw [peer] at ended
    cases ended
  | ok addr =>
    simp only [peer, responseFilter_requestBodyFilter] at ended ⊢
    rw [run_bind] at ended ⊢
    cases taken : environment.clientTakes world.trace.length with
    | false =>
      -- without the header there is no body either
      have refused : (run environment (writeResponseHeader (responseFilter dynamic exchange.ctx head).2)
          world).1 = false := taken
      rw [refused] at ended
      cases ended
    | true =>
      obtain ⟨wrote, got⟩ := received_writeResponseHeader taken
        (responseFilter dynamic exchange.ctx head).2
      rw [wrote, if_pos rfl, run_bind] at ended ⊢
      cases unbroken_of_ended proxy dynamic environment elapsedMs ended
      obtain ⟨delivered, kept⟩ := streamed_of_ended proxy dynamic environment elapsedMs plain noBody head
        chunks _ ended
      rw [got] at delivered
      exact ⟨delivered, kept⟩

end Response

end SpectraGQL.Gateway
