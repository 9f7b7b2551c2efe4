import SpectraGQL.Gateway.Forwarding
import SpectraGQL.Gateway.Release

/-! # The use a request makes of its key

A request claims at most one key, the one that it resolves to.  It completes the key or
gives it back at most once, and only after the engine has given it the key.  `keyProtocol`
says so as an automaton, and `obeys_serve` shows that every request keeps to it, whatever
the engine, the broker, the client and the upstream answer.  What holds over any number of
requests at once is derived from this.
-/

namespace SpectraGQL.Gateway

open Interaction SpectraGQL.Core SpectraGQL.Http SpectraGQL.Protocol SpectraGQL.Interceptors
open SpectraGQL.Telemetry SpectraGQL.Idempotency

/-! ## The key of a request -/

/-- What the fingerprint of a request is taken of: the client, the operation and the body
    after the pipeline. -/
def fingerprintText (dynamic : DynamicGatewayState) (exchange : Exchange) (info : RequestInfo)
    (body : String) : String :=
  let request := accepted (stampRequest exchange) body
    (pipelineVerdict dynamic (stampRequest exchange) info body)
  (request.1.session.reqHeader.headers.getStr "x-forwarded-for").getD "client" ++ ":" ++
    info.operationName.getD "anonymous" ++ ":" ++ request.2

/-- The text behind the key of a mutation that is accepted. -/
def fingerprinted (proxy : CompositeServiceProxy) (dynamic : DynamicGatewayState)
    (exchange : Exchange) : Option String :=
  (decoded proxy exchange).bind fun request =>
    if (pipelineVerdict dynamic (stampRequest exchange) request.2 request.1).isReject = false ∧
        request.2.gql.any GraphQLRequestInfo.isMutation then
      some (fingerprintText dynamic exchange request.2 request.1)
    else none

def fingerprintKey (crates : Crates) (text : String) : String :=
  "sha256:" ++ crates.sha256 (asBytes text)

/-- The key that a request claims, if it gets that far. -/
def resolvedKey (proxy : CompositeServiceProxy) (dynamic : DynamicGatewayState)
    (exchange : Exchange) : Option String :=
  explicitKey exchange.session <|>
    (fingerprinted proxy dynamic exchange).map (fingerprintKey proxy.crates)

/-- The key of a request that is accepted. -/
theorem resolvedKey_of_accepted {proxy : CompositeServiceProxy} {dynamic : DynamicGatewayState}
    {exchange : Exchange} {info : RequestInfo} {body : String}
    (success : decoded proxy exchange = some (body, info))
    (accepts : (pipelineVerdict dynamic (stampRequest exchange) info body).isReject = false) :
    resolvedKey proxy dynamic exchange =
      (explicitKey exchange.session <|> if info.gql.any GraphQLRequestInfo.isMutation then
        some (fingerprintKey proxy.crates (fingerprintText dynamic exchange info body)) else none) := by
  unfold resolvedKey fingerprinted
  rw [success]
  cases isMutation : info.gql.any GraphQLRequestInfo.isMutation <;> simp [accepts, isMutation]

/-! ## The automaton -/

/-- How far a request has come with its key. -/
inductive KeyPhase where
  | unclaimed
  /-- The engine has given the key to the request. -/
  | holding (key : String)
  /-- The key was refused, completed or given back. -/
  | settled
  deriving DecidableEq

namespace KeyPhase

/-- The phase of a request with a key in its context, or none. -/
def ofKey : Option String → KeyPhase
  | none => .unclaimed
  | some key => .holding key

def ofOutcome (key : String) : IdempotencyOutcome → KeyPhase
  | .new => .holding key
  | .conflict _ => .settled
  | .replay _ _ _ _ => .settled

def next (phase : KeyPhase) : Event gatewaySignature → KeyPhase
  | ⟨.checkOrInsert key _, outcome⟩ => ofOutcome key outcome
  | ⟨.complete _ _ _ _ _, _⟩ => .settled
  | ⟨.remove _, _⟩ => .settled
  | _ => phase

/-- The calls of a request that resolves to a key and has a timestamp. -/
def allows (resolved : Option String) (hlc : HlcTimestamp) : KeyPhase → GatewayCall → Prop
  | .unclaimed, .checkOrInsert key claimer => resolved = some key ∧ claimer = hlc
  | .holding key, .complete completed completer _ _ _ => completed = key ∧ completer = hlc
  | .holding key, .remove removed => removed = key
  | _, call => Aside call

theorem next_of_aside {call : GatewayCall} (aside : Aside call) (answer : call.Answer)
    (phase : KeyPhase) : phase.next ⟨call, answer⟩ = phase := by
  cases call <;> first | rfl | cases aside

theorem allows_of_aside {call : GatewayCall} (aside : Aside call) (resolved : Option String)
    (hlc : HlcTimestamp) (phase : KeyPhase) : phase.allows resolved hlc call := by
  cases phase <;> cases call <;> first | exact aside | cases aside

end KeyPhase

/-- A pipeline answers with its verdict. -/
def IsVerdict : Event gatewaySignature → Prop
  | ⟨.interceptRequest pipeline context parts body, verdict⟩ =>
    verdict = (RequestInterceptorPipeline.interceptRequest pipeline context parts body).1
  | _ => True

def keyProtocol (resolved : Option String) (hlc : HlcTimestamp) :
    Automaton gatewaySignature KeyPhase where
  allowed := KeyPhase.allows resolved hlc
  possible := IsVerdict
  next := KeyPhase.next

section Protocol

variable {α : Type} {resolved : Option String} {hlc : HlcTimestamp} {phase : KeyPhase}
  {proxy : CompositeServiceProxy} {dynamic : DynamicGatewayState} {exchange : Exchange}

/-- A program that leaves the engine alone stays in its phase. -/
theorem LeavesEngine.obeys {program : GatewayProg α} {post : α → Prop}
    (leaves : LeavesEngine program) (returns : program.Returns post) :
    program.Obeys (keyProtocol resolved hlc) (fun value after => post value ∧ after = phase) phase :=
  Prog.Only.obeys leaves returns fun _ aside =>
    ⟨KeyPhase.allows_of_aside aside resolved hlc phase, fun answer =>
      KeyPhase.next_of_aside aside answer phase⟩

/-- The phase of a request that is still being worked on. -/
structure Owns (hlc : HlcTimestamp) (exchange : Exchange) (phase : KeyPhase) : Prop where
  stamp : exchange.ctx.hlc = hlc
  notModeB : exchange.ctx.isModeBTerminated = false
  phase_eq : phase = .ofKey exchange.ctx.idempotencyKey

/-- A key in the context is held, unless the request is through with it. -/
structure Keeps (hlc : HlcTimestamp) (exchange : Exchange) (phase : KeyPhase) : Prop where
  stamp : exchange.ctx.hlc = hlc
  held : ∀ key, exchange.ctx.idempotencyKey = some key →
    exchange.ctx.isModeBTerminated = true ∨ phase = .holding key

theorem Owns.keeps (owns : Owns hlc exchange phase) : Keeps hlc exchange phase where
  stamp := owns.stamp
  held := by
    intro key mine
    rw [owns.phase_eq, mine]
    exact .inr rfl

/-! ## Logging -/

theorem obeys_releaseKey (keeps : ∀ key, exchange.ctx.idempotencyKey = some key → phase = .holding key) :
    (releaseKey exchange.ctx).Obeys (keyProtocol resolved hlc) (fun _ _ => True) phase := by
  unfold releaseKey
  cases mine : exchange.ctx.idempotencyKey with
  | none => exact trivial
  | some key =>
    rw [keeps key mine]
    exact Prog.obeys_perform rfl fun _ _ => trivial

theorem obeys_completeKey (stamp : exchange.ctx.hlc = hlc)
    (keeps : ∀ key, exchange.ctx.idempotencyKey = some key → phase = .holding key)
    (status : StatusCode) (headers : HeaderMap) (body : ResponseBody) :
    (completeKey exchange.ctx status headers body).Obeys (keyProtocol resolved hlc)
      (fun _ _ => True) phase := by
  unfold completeKey
  cases mine : exchange.ctx.idempotencyKey with
  | none => exact trivial
  | some key =>
    rw [keeps key mine]
    exact Prog.obeys_perform ⟨rfl, stamp⟩ fun _ _ => trivial

/-- Whatever the phase, a program that leaves the engine alone may follow. -/
theorem LeavesEngine.follows {program : GatewayProg α} (leaves : LeavesEngine program)
    (phase : KeyPhase) :
    program.Obeys (keyProtocol resolved hlc) (fun _ _ => True) phase :=
  (leaves.obeys (Prog.returns_true program)).mono fun _ _ _ => trivial

theorem obeys_logging (keeps : Keeps hlc exchange phase) (error : Option PingoraError) :
    (logging proxy exchange error).Obeys (keyProtocol resolved hlc) (fun _ _ => True) phase := by
  by_cases modeB : exchange.ctx.isModeBTerminated = true
  · refine (onlyReports_logging (.inl fun loggable => ?_)).leavesEngine.follows phase
    simp [loggable.notModeB] at modeB
  -- a Mode B request has settled its key before; any other still holds it
  have held : ∀ key, exchange.ctx.idempotencyKey = some key → phase = .holding key :=
    fun key mine => (keeps.held key mine).resolve_left modeB
  unfold logging
  split
  · exact trivial
  refine ((onlyReports_recordLogged _).leavesEngine.obeys (Prog.returns_true _)).bind ?_
  rintro _ _ ⟨-, rfl⟩
  unfold dispatchLogging
  rw [if_neg modeB]
  split
  · exact trivial
  split
  · exact trivial
  split
  · exact trivial
  have released := @obeys_releaseKey resolved hlc _ _ held
  unfold concludeRequest
  split
  · exact released.bind fun _ phase _ => (onlyReports_dispatchFailure ..).leavesEngine.follows phase
  · split
    · exact released.bind fun _ phase _ => (onlyReports_dispatchFailure ..).leavesEngine.follows phase
    · dsimp only
      split
      · exact released.bind fun _ phase _ => (onlyReports_dispatchFailure ..).leavesEngine.follows phase
      · exact (obeys_completeKey keeps.stamp held _ _ _).bind fun _ phase _ =>
          (onlyReports_dispatchSuccess ..).leavesEngine.follows phase

/-! ## The stages -/

theorem owns_unclaimed (stamp : exchange.ctx.hlc = hlc)
    (notModeB : exchange.ctx.isModeBTerminated = false) (noKey : exchange.ctx.idempotencyKey = none) :
    Owns hlc exchange .unclaimed :=
  ⟨stamp, notModeB, by rw [noKey]; rfl⟩

theorem keeps_of_no_key (stamp : exchange.ctx.hlc = hlc) (noKey : exchange.ctx.idempotencyKey = none) :
    Keeps hlc exchange phase :=
  ⟨stamp, fun key mine => by simp [noKey] at mine⟩

/-- Results of a claim that did not get the key. -/
def Refused : Except PingoraError IdempotencyFilter.IdempotencyInterceptResult → Prop
  | .error _ => True
  | .ok .conflict => True
  | .ok .replay => True
  | .ok (.newKey _) => False
  | .ok .none => False

theorem refused_answerClaim {outcome : IdempotencyOutcome} (notNew : outcome ≠ .new) (ctx : ProxyCtx)
    (key : String) (shownKey : Option String) :
    (IdempotencyFilter.answerClaim ctx key shownKey outcome).Returns Refused := by
  cases outcome with
  | new => exact absurd rfl notNew
  | conflict conflictHlc => exact (Prog.returns_true _).bind fun _ _ => Prog.Returns.ret trivial
  | replay holder statusCode headers body =>
    exact (Prog.returns_true _).bind fun
      | .ok (), _ => Prog.Returns.ret trivial
      | .error _, _ => Prog.Returns.ret trivial

/-- A claim that did not get the key ends the phase, and the request does not go upstream. -/
theorem afterClaim_of_refused {result : Except PingoraError IdempotencyFilter.IdempotencyInterceptResult}
    (refused : Refused result) (exchange : Exchange) (mode : String) (operationName : Option String) :
    (afterClaim exchange mode operationName result).Returns
      (Stage.Ends (fun outcome => outcome.result ≠ .ok false ∧
        outcome.exchange.ctx.hlc = exchange.ctx.hlc ∧
        outcome.exchange.ctx.idempotencyKey = exchange.ctx.idempotencyKey) fun _ => False) := by
  cases result with
  | error error => exact Prog.Returns.ret ⟨nofun, rfl, rfl⟩
  | ok result =>
    cases result with
    | conflict => exact Prog.Returns.ret ⟨nofun, rfl, rfl⟩
    | replay => exact (Prog.returns_true _).bind fun _ _ => Prog.Returns.ret ⟨nofun, rfl, rfl⟩
    | newKey key => exact refused.elim
    | none => exact refused.elim

/-- A claim of the key that the request resolves to. -/
theorem obeys_claim {key : String} (isResolved : resolved = some key) (stamp : exchange.ctx.hlc = hlc)
    (noKey : exchange.ctx.idempotencyKey = none) (shownKey : Option String) (mode : String)
    (operationName : Option String) :
    (claim exchange key shownKey mode operationName).Obeys (keyProtocol resolved hlc)
      (fun ended phase => ended.Ends (fun outcome => Keeps hlc outcome.exchange phase)
        (fun after => after = exchange.setKey (some key) ∧ phase = .holding key)) .unclaimed := by
  have claimed : (checkOrInsert key exchange.ctx.hlc).Obeys (keyProtocol resolved hlc)
      (fun outcome phase => phase = KeyPhase.ofOutcome key outcome) .unclaimed :=
    Prog.obeys_perform ⟨isResolved, stamp⟩ fun _ _ => rfl
  unfold claim IdempotencyFilter.claimKey
  rw [Prog.bind_assoc]
  refine claimed.bind ?_
  rintro outcome _ rfl
  by_cases isNew : outcome = .new
  · subst isNew
    exact ⟨rfl, rfl⟩
  · refine ((onlyAnswers_answerClaim ..).leavesEngine.obeys
      (refused_answerClaim isNew exchange.ctx key shownKey)).bind ?_
    rintro result _ ⟨refused, rfl⟩
    refine ((onlyAnswers_afterClaim ..).leavesEngine.obeys
      (afterClaim_of_refused refused exchange mode operationName)).mono ?_
    rintro (outcome | after) phase ⟨ended, -⟩
    · obtain ⟨-, sameStamp, sameKey⟩ := ended
      exact keeps_of_no_key (sameStamp.trans stamp) (sameKey.trans noKey)
    · exact ended.elim

/-- A rejection gives the key back. -/
theorem obeys_rejectRequest (owns : Owns hlc exchange phase) (info : RequestInfo)
    (rejection : InterceptorRejection) :
    (rejectRequest exchange info rejection).Obeys (keyProtocol resolved hlc)
      (fun outcome phase => Keeps hlc outcome.exchange phase) phase := by
  refine Prog.Obeys.bind (obeys_releaseKey fun key mine => ?_) fun _ phase _ => ?_
  · rw [owns.phase_eq, mine]
    rfl
  · refine ((incidental_answerRejection _ info rejection).leavesEngine.obeys
      (answerRejection_returns _ info rejection)).mono ?_
    rintro _ _ ⟨rfl, rfl⟩
    exact keeps_of_no_key owns.stamp rfl

theorem obeys_refusePayload (owns : Owns hlc exchange phase) :
    (refusePayload exchange).Obeys (keyProtocol resolved hlc)
      (fun outcome phase => Keeps hlc outcome.exchange phase) phase := by
  refine ((leavesEngine_writeResponse _ _).obeys (Prog.returns_true _)).bind ?_
  rintro written phase ⟨-, same⟩
  subst same
  split
  · cases mine : exchange.ctx.idempotencyKey with
    | none => exact owns.keeps
    | some key =>
      have removed : (remove key).Obeys (keyProtocol resolved hlc) (fun _ _ => True) phase := by
        rw [owns.phase_eq, mine]
        exact Prog.obeys_perform rfl fun _ _ => trivial
      exact removed.bind fun _ phase _ => keeps_of_no_key owns.stamp rfl
  · exact owns.keeps

theorem Owns.accepted (owns : Owns hlc exchange phase) (body : String) (verdict : InterceptorVerdict) :
    Owns hlc (accepted exchange body verdict).1 phase := by
  cases verdict with
  | transform headers newBody =>
    cases newBody <;> exact ⟨owns.stamp, owns.notModeB, owns.phase_eq⟩
  | pass | audit _ _ _ | reject _ => exact ⟨owns.stamp, owns.notModeB, owns.phase_eq⟩

/-- The pipeline rejects the request or hands on what its verdict makes of it, for any
    protocol that leaves the pipeline alone. -/
theorem runPipeline_obeys {τ : Type} {automaton : Automaton gatewaySignature τ}
    {post : Outcome → τ → Prop} {current : τ} (info : RequestInfo) (body : String)
    (verdicts : ∀ event, automaton.possible event → IsVerdict event)
    (aside : ∀ pipeline context parts text,
      automaton.allowed current (.interceptRequest pipeline context parts text) ∧
        ∀ verdict, automaton.next current ⟨.interceptRequest pipeline context parts text, verdict⟩ = current)
    (rejects : ∀ rejection, (rejectRequest exchange info rejection).Obeys automaton post current) :
    (runPipeline dynamic exchange info body).Obeys automaton
      (fun ended after => ended.Ends (post · after) (fun request => after = current ∧
        (pipelineVerdict dynamic exchange info body).isReject = false ∧
        request = Gateway.accepted exchange body (pipelineVerdict dynamic exchange info body))) current := by
  unfold runPipeline
  cases composed : dynamic.interceptorManager.getRequestPipeline info.operationName with
  | nil =>
    rw [pipelineVerdict_of_nil composed]
    exact ⟨rfl, rfl, rfl⟩
  | cons interceptor rest =>
    have evaluated : (interceptRequest (interceptor :: rest) (interceptorContext exchange.ctx info)
        exchange.session.reqHeader body).Obeys automaton
        (fun verdict after => verdict = pipelineVerdict dynamic exchange info body ∧ after = current)
        current := by
      refine Prog.obeys_perform (aside ..).1 fun verdict possible => ?_
      unfold pipelineVerdict
      rw [composed]
      exact ⟨verdicts _ possible, (aside ..).2 verdict⟩
    refine evaluated.bind ?_
    rintro verdict after ⟨rfl, rfl⟩
    -- one evaluation, then the rejection or the request with what the verdict makes of it
    by_cases accepts : (pipelineVerdict dynamic exchange info body).isReject = false
    · rw [afterVerdict_of_accepted accepts]
      exact ⟨rfl, accepts, rfl⟩
    · revert accepts
      cases pipelineVerdict dynamic exchange info body with
      | reject rejection => exact fun _ => (rejects rejection).bind fun outcome after holds => holds
      | pass | audit _ _ _ | transform _ _ => exact fun accepts => absurd rfl accepts

theorem obeys_runPipeline (owns : Owns hlc exchange phase) (info : RequestInfo) (body : String) :
    (runPipeline dynamic exchange info body).Obeys (keyProtocol resolved hlc)
      (fun ended after => ended.Ends (fun outcome => Keeps hlc outcome.exchange after)
        (fun request => after = phase ∧
          (pipelineVerdict dynamic exchange info body).isReject = false ∧
          request = Gateway.accepted exchange body (pipelineVerdict dynamic exchange info body))) phase :=
  runPipeline_obeys info body (fun _ possible => possible)
    (fun _ _ _ _ => ⟨KeyPhase.allows_of_aside (by rfl) resolved hlc phase, fun _ => rfl⟩)
    fun rejection => obeys_rejectRequest owns info rejection

theorem obeys_forward (owns : Owns hlc exchange phase) (info : RequestInfo) :
    (forward proxy exchange info).Obeys (keyProtocol resolved hlc)
      (fun outcome phase => Keeps hlc outcome.exchange phase) phase := by
  refine ((leavesEngine_modeADispatchPolicy ..).obeys (Prog.returns_true _)).bind ?_
  rintro _ phase ⟨-, same⟩
  subst same
  exact owns.keeps

theorem obeys_settleKey (owns : Owns hlc exchange phase) (dispatchOk : Bool) (body : String) :
    (StrategyRouter.settleKey exchange.ctx dispatchOk body).Obeys (keyProtocol resolved hlc)
      (fun _ _ => True) phase := by
  unfold StrategyRouter.settleKey
  cases mine : exchange.ctx.idempotencyKey with
  | none => exact trivial
  | some key =>
    rw [owns.phase_eq, mine]
    cases dispatchOk with
    | true => exact Prog.obeys_perform ⟨rfl, owns.stamp⟩ fun _ _ => trivial
    | false => exact Prog.obeys_perform rfl fun _ _ => trivial

theorem obeys_handleModeBEdge (owns : Owns hlc exchange phase) (route : SpectraRouteConfig)
    (info : RequestInfo) :
    (StrategyRouter.handleModeBEdge proxy exchange route info).Obeys (keyProtocol resolved hlc)
      (fun after phase => Keeps hlc after phase) phase := by
  have dispatched : LeavesEngine (dispatchRequestInfo (proxy.sanitize info)) :=
    leavesEngine_perform (by rfl)
  refine (dispatched.obeys (Prog.returns_true _)).bind ?_
  rintro dispatchOk phase ⟨-, same⟩
  subst same
  refine (obeys_settleKey owns dispatchOk _).bind fun _ phase _ => ?_
  refine ((leavesEngine_writeResponse _ _).follows phase).bind fun _ phase _ => ?_
  exact ⟨owns.stamp, fun key _ => .inl rfl⟩

theorem obeys_routeRequest (owns : Owns hlc exchange phase) (info : RequestInfo) :
    (routeRequest proxy dynamic exchange info).Obeys (keyProtocol resolved hlc)
      (fun outcome phase => Keeps hlc outcome.exchange phase) phase := by
  unfold routeRequest
  split
  · exact obeys_forward owns info
  rename_i route matched
  split
  · refine ((onlyAnswers_refuseDisabled exchange info route).leavesEngine.obeys
      (refuseDisabled_returns exchange info route)).mono ?_
    rintro outcome phase ⟨same, rfl⟩
    rw [same]
    exact owns.keeps
  split
  · refine (obeys_handleModeBEdge owns route info).bind fun after phase keeps => ?_
    refine ((leavesEngine_recordTrafficEvent _ _).obeys (Prog.returns_true _)).bind ?_
    rintro _ phase ⟨-, same⟩
    subst same
    exact keeps
  · have overridden : Owns hlc (overrideRoute dynamic exchange route) phase :=
      ⟨owns.stamp, owns.notModeB, owns.phase_eq⟩
    exact obeys_forward overridden info

/-- The stages after the pipeline, for a request that resolves to its fingerprint if it
    needs one. -/
theorem obeys_afterPipeline {request : Exchange × String} (owns : Owns hlc request.1 phase)
    (info : RequestInfo)
    (isResolved : needsFingerprint request.1 info = true →
      resolved = some (fingerprint proxy request.1 info request.2)) :
    (afterPipeline proxy dynamic info request).Obeys (keyProtocol resolved hlc)
      (fun outcome phase => Keeps hlc outcome.exchange phase) phase := by
  refine Stage.obeys_andThen (fun after phase => Owns hlc after phase) ?_
    fun after phase owns => obeys_routeRequest owns info
  rw [claimFingerprint_eq]
  split
  · rename_i needs
    have noKey : request.1.ctx.idempotencyKey = none := by
      simpa using (Bool.and_eq_true_iff.mp needs).1
    rw [owns.phase_eq, noKey]
    refine (obeys_claim (isResolved needs) owns.stamp noKey ..).mono ?_
    rintro (outcome | after) phase ended
    · exact ended
    · obtain ⟨rfl, rfl⟩ := ended
      exact ⟨owns.stamp, owns.notModeB, rfl⟩
  · exact owns

theorem needsFingerprint_accepted (exchange : Exchange) (info : RequestInfo) (body : String)
    (verdict : InterceptorVerdict) :
    needsFingerprint (accepted exchange body verdict).1 info = needsFingerprint exchange info := by
  cases verdict with
  | transform headers newBody => cases newBody <;> rfl
  | pass | audit _ _ _ | reject _ => rfl

/-- The fingerprint of an accepted request depends on its session only. -/
theorem fingerprint_accepted (proxy : CompositeServiceProxy) {exchange before : Exchange}
    (session : exchange.session = before.session) (info : RequestInfo) (body : String)
    (verdict : InterceptorVerdict) :
    fingerprint proxy (accepted exchange body verdict).1 info (accepted exchange body verdict).2 =
      fingerprint proxy (accepted before body verdict).1 info (accepted before body verdict).2 := by
  have texts : (accepted exchange body verdict).2 = (accepted before body verdict).2 := by
    cases verdict with
    | transform headers newBody => cases newBody <;> rfl
    | pass | audit _ _ _ | reject _ => rfl
  unfold fingerprint
  rw [session_accepted, session_accepted, texts, session]

/-- It is the key of the text that tells the client, the operation and the body. -/
theorem fingerprint_noteRequest (proxy : CompositeServiceProxy) {exchange current : Exchange}
    {info : RequestInfo} {body : String} (session : current.session = (stampRequest exchange).session)
    (sameVerdict : pipelineVerdict dynamic current info body =
      pipelineVerdict dynamic (stampRequest exchange) info body) :
    fingerprint proxy
        (accepted (noteRequest dynamic current info body) body (pipelineVerdict dynamic current info body)).1 info
        (accepted (noteRequest dynamic current info body) body (pipelineVerdict dynamic current info body)).2 =
      fingerprintKey proxy.crates (fingerprintText dynamic exchange info body) := by
  have notedSession : (noteRequest dynamic current info body).session = (stampRequest exchange).session := session
  rw [fingerprint_accepted proxy notedSession, sameVerdict]
  rfl

theorem obeys_filterDecoded (owns : Owns hlc exchange phase) (info : RequestInfo) (body : String)
    (isResolved : (pipelineVerdict dynamic exchange info body).isReject = false →
      needsFingerprint exchange info = true →
      resolved = some (fingerprint proxy
        (accepted exchange body (pipelineVerdict dynamic exchange info body)).1 info
        (accepted exchange body (pipelineVerdict dynamic exchange info body)).2)) :
    (filterDecoded proxy dynamic exchange info body).Obeys (keyProtocol resolved hlc)
      (fun outcome phase => Keeps hlc outcome.exchange phase) phase := by
  have noted : Owns hlc (noteRequest dynamic exchange info body) phase :=
    ⟨owns.stamp, owns.notModeB, owns.phase_eq⟩
  refine Stage.obeys_andThen _ (obeys_runPipeline noted info body) ?_
  rintro request after ⟨rfl, accepts, rfl⟩
  have session : (noteRequest dynamic exchange info body).session = exchange.session := rfl
  refine obeys_afterPipeline (noted.accepted body _) info fun needed => ?_
  rw [needsFingerprint_accepted] at needed
  rw [isResolved accepts needed, ← fingerprint_accepted proxy session]
  rfl

/-- From the body on. -/
theorem obeys_filterExamined {current : Exchange} (inHand : InHand exchange current)
    (owns : Owns hlc current phase)
    (isResolved : ∀ body info, decoded proxy exchange = some (body, info) →
      (pipelineVerdict dynamic (stampRequest exchange) info body).isReject = false →
      needsFingerprint current info = true →
      resolved = some (fingerprintKey proxy.crates (fingerprintText dynamic exchange info body))) :
    (filterExamined proxy dynamic current).Obeys (keyProtocol resolved hlc)
      (fun outcome phase => Keeps hlc outcome.exchange phase) phase := by
  have buffered : ∀ buffer, Owns hlc (setBuffer current buffer) phase := fun buffer =>
    ⟨owns.stamp, owns.notModeB, owns.phase_eq⟩
  -- without a decoded body there is no fingerprint, so the key stays as it is
  cases read : bodyRead exchange with
  | failed error buffer =>
    unfold filterExamined
    rw [readRequestBody_eq, inHand.bodyRead, read]
    exact (buffered buffer).keeps
  | tooLarge buffer =>
    unfold filterExamined
    rw [readRequestBody_eq, inHand.bodyRead, read]
    dsimp only
    rw [andThen_bind]
    exact (obeys_refusePayload (buffered buffer)).bind fun outcome phase keeps => keeps
  | complete buffer =>
    rw [run_filterExamined_of_complete (inHand.bodyRead.trans read)]
    unfold filterBody
    rw [inHand.decodeBody]
    cases decodes : decodeBody proxy (examined exchange buffer) with
    | none => exact (buffered buffer).keeps
    | some request =>
      obtain ⟨body, info⟩ := request
      have success : decoded proxy exchange = some (body, info) := (decoded_of_complete read).trans decodes
      refine obeys_filterDecoded (buffered buffer) info body fun accepts needs => ?_
      rw [inHand.pipelineVerdict] at accepts ⊢
      have session : (setBuffer current buffer).session = (stampRequest exchange).session := inHand.session
      rw [isResolved body info success accepts needs, fingerprint_accepted proxy session]
      rfl

theorem answerAtEdge_returns (proxy : CompositeServiceProxy) (exchange : Exchange) :
    (answerAtEdge proxy exchange).Returns
      (Stage.Ends (fun outcome => outcome.exchange = exchange ∧ outcome.result ≠ .ok false)
        fun after => after = exchange) := by
  unfold answerAtEdge
  refine (Prog.returns_true _).bind fun isProbe _ => ?_
  split
  · exact Prog.Returns.ret ⟨rfl, nofun⟩
  refine (Prog.returns_true _).bind fun isIcon _ => ?_
  split
  · exact Prog.Returns.ret ⟨rfl, nofun⟩
  refine (Prog.returns_true _).bind fun isAdmin _ => ?_
  split
  · exact Prog.Returns.ret ⟨rfl, nofun⟩
  · exact Prog.Returns.ret ⟨rfl, nofun⟩
  · split
    · exact (Prog.returns_true _).bind fun
        | .ok (), _ => Prog.Returns.ret ⟨rfl, nofun⟩
        | .error _, _ => Prog.Returns.ret ⟨rfl, nofun⟩
    · exact Prog.Returns.ret rfl

theorem obeys_requestFilter (owns : Owns hlc exchange .unclaimed)
    (noKey : exchange.ctx.idempotencyKey = none) :
    (requestFilter proxy dynamic exchange).Obeys
      (keyProtocol (resolvedKey proxy dynamic exchange) hlc)
      (fun outcome phase => Keeps hlc outcome.exchange phase) .unclaimed := by
  refine Stage.obeys_andThen (fun after phase => after = exchange ∧ phase = .unclaimed) ?_ ?_
  · refine ((incidental_answerAtEdge proxy exchange).leavesEngine.obeys
      (answerAtEdge_returns proxy exchange)).mono ?_
    rintro (outcome | after) phase ⟨ended, rfl⟩
    · obtain ⟨same, -⟩ := ended
      exact same ▸ owns.keeps
    · exact ⟨ended, rfl⟩
  rintro after phase ⟨rfl, rfl⟩
  have stamped : Owns hlc (stampRequest after) .unclaimed := ⟨owns.stamp, owns.notModeB, owns.phase_eq⟩
  -- the key of the header is claimed at once, a fingerprint behind the pipeline
  cases given : explicitKey after.session with
  | none =>
    rw [claimExplicitKey_of_none ((explicitKey_stampRequest after).trans given)]
    refine obeys_filterExamined (inHand_stampRequest after) stamped ?_
    intro body info success accepts needs
    have isMutation := (Bool.and_eq_true_iff.mp needs).2
    simp [resolvedKey, given, fingerprinted, success, accepts, isMutation]
  | some key =>
    have isResolved : resolvedKey proxy dynamic after = some key := by simp [resolvedKey, given]
    rw [claimExplicitKey_of_some ((explicitKey_stampRequest after).trans given)]
    refine Stage.obeys_andThen _ (obeys_claim isResolved stamped.stamp noKey ..) ?_
    rintro claimed phase ⟨rfl, rfl⟩
    refine obeys_filterExamined (inHand_setKey after (some key))
      ⟨owns.stamp, owns.notModeB, rfl⟩ ?_
    intro body info success accepts needs
    simp [needsFingerprint, Exchange.setKey] at needs

theorem obeys_afterRequestFilter (arrival : Arrival) {outcome : Outcome}
    (keeps : Keeps hlc outcome.exchange phase) :
    (afterRequestFilter proxy dynamic arrival outcome).Obeys (keyProtocol resolved hlc)
      (fun _ _ => True) phase := by
  unfold afterRequestFilter
  split
  · exact obeys_logging keeps _
  · exact obeys_logging keeps _
  · refine ((leavesEngine_proxyUpstream ..).obeys (core_proxyUpstream ..)).bind ?_
    rintro forwarded phase ⟨⟨-, core⟩, same⟩
    subst same
    refine obeys_logging ⟨?_, ?_⟩ _
    · exact (field_of_core ProxyCtx.hlc (fun _ => rfl) core).trans keeps.stamp
    · intro key mine
      rw [field_of_core ProxyCtx.idempotencyKey (fun _ => rfl) core] at mine
      rw [field_of_core ProxyCtx.isModeBTerminated (fun _ => rfl) core]
      exact keeps.held key mine


end Protocol

/-- The key that a request resolves to, once its app is known. -/
def Arrival.key (proxy : CompositeServiceProxy) (dynamic : DynamicGatewayState) (arrival : Arrival) :
    Option String :=
  resolvedKey proxy dynamic (admitted proxy dynamic arrival)

/-- Every request keeps to the protocol of its key. -/
theorem obeys_serve (proxy : CompositeServiceProxy) (dynamic : DynamicGatewayState)
    (arrival : Arrival) :
    (serve proxy dynamic arrival).Obeys (keyProtocol (arrival.key proxy dynamic) arrival.hlc)
      (fun _ _ => True) .unclaimed := by
  unfold serve Arrival.key admitted
  rcases early : earlyRequestFilter proxy dynamic (arrival.exchange dynamic) with ⟨result, exchange⟩
  obtain ⟨fresh, noKey⟩ := fresh_earlyRequestFilter early
  cases result with
  | error error => exact obeys_logging (keeps_of_no_key fresh.stamp noKey) _
  | ok _ =>
    exact (obeys_requestFilter (owns_unclaimed fresh.stamp fresh.notModeB noKey) noKey).bind
      fun outcome phase keeps => obeys_afterRequestFilter arrival keeps

end SpectraGQL.Gateway
