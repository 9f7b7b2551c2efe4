import SpectraGQL.Gateway.KeyProtocol

/-! # What a command does with its key

A request that the pipeline rejects, or that matches an enabled Mode B route, settles its key
itself and never goes upstream.  `commandProtocol` says how: it publishes the command at most
once, and only while it holds the key; it completes the key with its receipt after the command
is published, and gives the key back otherwise.  Whoever finds the key completed answers
with the record.  `obeys_serve_command` shows that such requests keep to this.
-/

namespace SpectraGQL.Gateway

open Interaction SpectraGQL.Core SpectraGQL.Http SpectraGQL.Protocol SpectraGQL.Interceptors
open SpectraGQL.Telemetry SpectraGQL.Idempotency

/-! ## Commands -/

/-- The pipeline rejects the request, or the request matches an enabled Mode B route. -/
def EndsAtEdge (proxy : CompositeServiceProxy) (dynamic : DynamicGatewayState)
    (exchange : Exchange) : Prop :=
  ∃ body info, decoded proxy exchange = some (body, info) ∧
    ((pipelineVerdict dynamic (stampRequest exchange) info body).isReject = true ∨
      ∃ route, StrategyRouter.matchRoute dynamic.routes info = some route ∧
        route.enabled = true ∧ route.mode.isAsyncEdgeCommand = true)

/-- The receipt of the command in a request, for when it is published. -/
def receiptOf (proxy : CompositeServiceProxy) (dynamic : DynamicGatewayState)
    (exchange : Exchange) : Option String :=
  (decoded proxy exchange).bind fun request =>
    (StrategyRouter.matchRoute dynamic.routes request.2).map fun route =>
      StrategyRouter.receiptBody exchange.ctx route request.2 true

/-! ## The automaton -/

/-- How far a command has come. -/
inductive CommandPhase where
  | unclaimed
  /-- The engine has given the key to the request. -/
  | holding
  | published
  /-- The broker has not taken the command. -/
  | unpublished
  /-- The key is completed, and the request answers with the record. -/
  | replaying (statusCode : UInt16) (body : String)
  | settled
  deriving DecidableEq

namespace CommandPhase

/-- Between being given the key and settling it. -/
def inFlight : CommandPhase → Bool
  | .holding => true
  | .published => true
  | .unpublished => true
  | _ => false

def ofOutcome : IdempotencyOutcome → CommandPhase
  | .new => .holding
  | .conflict _ => .settled
  | .replay _ statusCode _ body => .replaying statusCode body

def ofDispatch (phase : CommandPhase) (taken : Bool) : CommandPhase :=
  match phase with
  | .holding => if taken then .published else .unpublished
  | phase => phase

def next (phase : CommandPhase) : Event gatewaySignature → CommandPhase
  | ⟨.checkOrInsert _ _, outcome⟩ => ofOutcome outcome
  | ⟨.complete _ _ _ _ _, _⟩ => .settled
  | ⟨.remove _, _⟩ => .settled
  | ⟨.dispatchRequestInfo _, taken⟩ => phase.ofDispatch taken
  | _ => phase

/-- The calls of a command that has a key, a timestamp and perhaps a receipt. -/
def allows (key : String) (hlc : HlcTimestamp) (receipt : Option String) :
    CommandPhase → GatewayCall → Prop
  | .unclaimed, .checkOrInsert claimed claimer => claimed = key ∧ claimer = hlc
  | .holding, .dispatchRequestInfo _ => True
  | .holding, .remove removed => removed = key
  | .unpublished, .remove removed => removed = key
  | .published, .complete completed _ statusCode _ body =>
    completed = key ∧ statusCode = 200 ∧ receipt = some body
  | .replaying statusCode _, .writeResponseHeader header => header.status.code = statusCode
  | .replaying _ body, .writeResponseBody bytes => bytes = asBytes body
  | .replaying _ _, call => IsReport call
  | _, call => Incidental call

theorem next_of_incidental {call : GatewayCall} (incidental : Incidental call) (answer : call.Answer)
    (phase : CommandPhase) : phase.next ⟨call, answer⟩ = phase := by
  cases call <;> first | rfl | cases incidental

theorem allows_of_report {call : GatewayCall} (isReport : IsReport call) (key : String)
    (hlc : HlcTimestamp) (receipt : Option String) (phase : CommandPhase) :
    phase.allows key hlc receipt call := by
  cases phase <;> cases call <;> trivial

/-- Nothing is said about a replay by the incidental calls of other phases. -/
theorem allows_of_incidental {call : GatewayCall} (incidental : Incidental call) {phase : CommandPhase}
    (notReplaying : ∀ statusCode body, phase ≠ .replaying statusCode body) (key : String)
    (hlc : HlcTimestamp) (receipt : Option String) : phase.allows key hlc receipt call := by
  cases phase with
  | replaying statusCode body => exact absurd rfl (notReplaying statusCode body)
  | unclaimed | holding | published | unpublished | settled =>
    cases call <;> trivial

end CommandPhase

def commandProtocol (key : String) (hlc : HlcTimestamp) (receipt : Option String) :
    Automaton gatewaySignature CommandPhase where
  allowed := CommandPhase.allows key hlc receipt
  possible := IsVerdict
  next := CommandPhase.next

section Protocol

variable {α : Type} {key : String} {hlc : HlcTimestamp} {receipt : Option String}
  {phase : CommandPhase} {proxy : CompositeServiceProxy} {dynamic : DynamicGatewayState}
  {exchange : Exchange}

theorem OnlyIncidental.obeys {program : GatewayProg α} {post : α → Prop}
    (only : OnlyIncidental program) (returns : program.Returns post)
    (notReplaying : ∀ statusCode body, phase ≠ .replaying statusCode body) :
    program.Obeys (commandProtocol key hlc receipt) (fun value after => post value ∧ after = phase)
      phase :=
  Prog.Only.obeys only returns fun _ incidental =>
    ⟨CommandPhase.allows_of_incidental incidental notReplaying key hlc receipt, fun answer =>
      CommandPhase.next_of_incidental incidental answer phase⟩

theorem OnlyReports.obeys {program : GatewayProg α} {post : α → Prop} (only : OnlyReports program)
    (returns : program.Returns post) :
    program.Obeys (commandProtocol key hlc receipt) (fun value after => post value ∧ after = phase)
      phase :=
  Prog.Only.obeys only returns fun _ isReport =>
    ⟨CommandPhase.allows_of_report isReport key hlc receipt phase, fun answer =>
      CommandPhase.next_of_incidental isReport.incidental answer phase⟩

/-- The request is answered, and logging has no key to settle. -/
structure Over (outcome : Outcome) : Prop where
  answered : outcome.result ≠ .ok false
  quiet : outcome.exchange.ctx.idempotencyKey = none ∨ outcome.exchange.ctx.isModeBTerminated = true

/-- A request that is still being worked on: it has claimed its key, or is about to. -/
inductive Working (key : String) (hlc : HlcTimestamp) (exchange : Exchange) : CommandPhase → Prop where
  | claimed (stamp : exchange.ctx.hlc = hlc) (mine : exchange.ctx.idempotencyKey = some key) :
      Working key hlc exchange .holding
  | unclaimed (stamp : exchange.ctx.hlc = hlc) (noKey : exchange.ctx.idempotencyKey = none) :
      Working key hlc exchange .unclaimed

theorem Working.stamp (working : Working key hlc exchange phase) : exchange.ctx.hlc = hlc := by
  cases working with
  | claimed stamp _ => exact stamp
  | unclaimed stamp _ => exact stamp

theorem Working.allows_incidental (working : Working key hlc exchange phase) {call : GatewayCall}
    (incidental : Incidental call) : phase.allows key hlc receipt call := by
  cases working with
  | claimed _ _ | unclaimed _ _ => cases call <;> trivial

/-- A receipt names the request and its time, and depends on nothing else of the context. -/
theorem receiptBody_eq {ctx before : ProxyCtx} (sameId : ctx.requestId = before.requestId)
    (sameHlc : ctx.hlc = before.hlc) (route : SpectraRouteConfig) (info : RequestInfo) (taken : Bool) :
    StrategyRouter.receiptBody ctx route info taken = StrategyRouter.receiptBody before route info taken := by
  unfold StrategyRouter.receiptBody
  rw [sameId, sameHlc]

/-! ## Claims -/

/-- The calls of an answer with a record. -/
def IsReplayOf (statusCode : UInt16) (body : String) : GatewayCall → Prop
  | .writeResponseHeader header => header.status.code = statusCode
  | .writeResponseBody bytes => bytes = asBytes body
  | .recordTraffic _ => True
  | _ => False

theorem code_of_fromU16 {code : UInt16} {status : StatusCode}
    (valid : StatusCode.fromU16 code = some status) : status.code = code := by
  unfold StatusCode.fromU16 at valid
  split at valid
  · cases valid
    rfl
  · cases valid

theorem isReplayOf_answerClaim (ctx : ProxyCtx) (claimed : String) (shownKey : Option String)
    (holder : HlcTimestamp) (statusCode : UInt16) (headers : List (String × String)) (body : String) :
    Prog.Only (IsReplayOf statusCode body)
      (IdempotencyFilter.answerClaim ctx claimed shownKey (.replay holder statusCode headers body)) := by
  have writes : Prog.Only (IsReplayOf statusCode body)
      (IdempotencyFilter.writeReplayResponse ctx.requestId ctx.hlc statusCode headers body) := by
    unfold IdempotencyFilter.writeReplayResponse
    split
    · exact Prog.Only.ret _
    · rename_i status valid
      have sameStatus : (IdempotencyFilter.replayResponseHeader ctx.requestId ctx.hlc status headers
          body).status.code = statusCode :=
        (congrArg StatusCode.code (ResponseHeader.status_foldl_insertHeader headers _)).trans (code_of_fromU16 valid)
      refine Prog.Only.bind (Prog.Only.bind (Prog.Only.perform sameStatus) fun written => ?_) fun _ =>
        Prog.Only.ret _
      split
      · exact Prog.Only.perform rfl
      · exact Prog.Only.ret _
  exact Prog.Only.bind writes fun
    | .ok () => Prog.Only.ret _
    | .error _ => Prog.Only.ret _

/-- What is answered to a claim that did not get the key. -/
theorem obeys_answerClaim {outcome : IdempotencyOutcome} (notNew : outcome ≠ .new) (ctx : ProxyCtx)
    (claimed : String) (shownKey : Option String) :
    (IdempotencyFilter.answerClaim ctx claimed shownKey outcome).Obeys
      (commandProtocol key hlc receipt)
      (fun result after => Refused result ∧ after = .ofOutcome outcome) (.ofOutcome outcome) := by
  have returns := refused_answerClaim notNew ctx claimed shownKey
  cases outcome with
  | new => exact absurd rfl notNew
  | conflict conflictHlc =>
    exact OnlyIncidental.obeys (onlyAnswers_answerClaim ..).incidental returns nofun
  | replay holder statusCode headers body =>
    refine Prog.Only.obeys (isReplayOf_answerClaim ..) returns fun call isReplay => ?_
    cases call with
    | writeResponseHeader _ => exact ⟨isReplay, fun _ => rfl⟩
    | writeResponseBody _ => exact ⟨isReplay, fun _ => rfl⟩
    | recordTraffic _ => exact ⟨trivial, fun _ => rfl⟩
    | _ => cases isReplay

theorem onlyReports_afterClaim (exchange : Exchange) (mode : String) (operationName : Option String)
    (result : Except PingoraError IdempotencyFilter.IdempotencyInterceptResult) :
    OnlyReports (afterClaim exchange mode operationName result) := by
  cases result with
  | error error => exact Prog.Only.ret _
  | ok result =>
    cases result with
    | replay => exact Prog.Only.bind (Prog.Only.perform trivial) fun _ => Prog.Only.ret _
    | conflict | newKey _ | none => exact Prog.Only.ret _

theorem obeys_claim_command (stamp : exchange.ctx.hlc = hlc)
    (noKey : exchange.ctx.idempotencyKey = none) (shownKey : Option String) (mode : String)
    (operationName : Option String) :
    (claim exchange key shownKey mode operationName).Obeys (commandProtocol key hlc receipt)
      (fun ended phase => ended.Ends Over
        (fun after => after = exchange.setKey (some key) ∧ phase = .holding)) .unclaimed := by
  have claimed : (checkOrInsert key exchange.ctx.hlc).Obeys (commandProtocol key hlc receipt)
      (fun outcome phase => phase = CommandPhase.ofOutcome outcome) .unclaimed :=
    Prog.obeys_perform ⟨rfl, stamp⟩ fun _ _ => rfl
  unfold claim IdempotencyFilter.claimKey
  rw [Prog.bind_assoc]
  refine claimed.bind ?_
  rintro outcome _ rfl
  by_cases isNew : outcome = .new
  · subst isNew
    exact ⟨rfl, rfl⟩
  · refine (obeys_answerClaim isNew exchange.ctx key shownKey).bind ?_
    rintro result _ ⟨refused, rfl⟩
    refine (OnlyReports.obeys (onlyReports_afterClaim exchange mode operationName result)
      (afterClaim_of_refused refused exchange mode operationName)).mono ?_
    rintro (outcome | after) phase ⟨ended, -⟩
    · obtain ⟨answered, -, sameKey⟩ := ended
      exact ⟨answered, .inl (sameKey.trans noKey)⟩
    · exact ended.elim

/-! ## The stages -/

/-- A rejection gives the key back. -/
theorem obeys_rejectRequest_command (working : Working key hlc exchange phase) (info : RequestInfo)
    (rejection : InterceptorRejection) :
    (rejectRequest exchange info rejection).Obeys (commandProtocol key hlc receipt)
      (fun outcome _ => Over outcome) phase := by
  have released : (releaseKey exchange.ctx).Obeys (commandProtocol key hlc receipt)
      (fun _ after => ∀ statusCode body, after ≠ .replaying statusCode body) phase := by
    unfold releaseKey
    cases working with
    | claimed _ mine =>
      rw [mine]
      exact Prog.obeys_perform rfl fun _ _ => nofun
    | unclaimed _ noKey =>
      rw [noKey]
      exact nofun
  refine released.bind fun _ after notReplaying => ?_
  refine (OnlyIncidental.obeys (incidental_answerRejection _ info rejection)
    (answerRejection_returns _ info rejection) notReplaying).mono ?_
  rintro _ _ ⟨rfl, rfl⟩
  exact ⟨nofun, .inl rfl⟩

theorem accepted_ctx (exchange : Exchange) (body : String) (verdict : InterceptorVerdict) :
    (accepted exchange body verdict).1.ctx.requestId = exchange.ctx.requestId ∧
      (accepted exchange body verdict).1.ctx.hlc = exchange.ctx.hlc ∧
      (accepted exchange body verdict).1.ctx.idempotencyKey = exchange.ctx.idempotencyKey := by
  cases verdict with
  | transform headers newBody => cases newBody <;> exact ⟨rfl, rfl, rfl⟩
  | pass | audit _ _ _ | reject _ => exact ⟨rfl, rfl, rfl⟩

theorem Working.accepted (working : Working key hlc exchange phase) (body : String)
    (verdict : InterceptorVerdict) : Working key hlc (accepted exchange body verdict).1 phase := by
  obtain ⟨-, sameHlc, sameKey⟩ := accepted_ctx exchange body verdict
  cases working with
  | claimed stamp mine => exact .claimed (sameHlc.trans stamp) (sameKey.trans mine)
  | unclaimed stamp noKey => exact .unclaimed (sameHlc.trans stamp) (sameKey.trans noKey)

/-- A Mode B route: the command is published, and the key completed or given back. -/
theorem obeys_handleModeBEdge_command (mine : exchange.ctx.idempotencyKey = some key) (route : SpectraRouteConfig) (info : RequestInfo)
    (isReceipt : receipt = some (StrategyRouter.receiptBody exchange.ctx route info true)) :
    (StrategyRouter.handleModeBEdge proxy exchange route info).Obeys (commandProtocol key hlc receipt)
      (fun after phase => after.ctx.isModeBTerminated = true ∧ phase = .settled) .holding := by
  have published : (dispatchRequestInfo (proxy.sanitize info)).Obeys (commandProtocol key hlc receipt)
      (fun taken phase => phase = CommandPhase.ofDispatch .holding taken) .holding :=
    Prog.obeys_perform trivial fun _ _ => rfl
  refine published.bind ?_
  rintro taken _ rfl
  have settled : (StrategyRouter.settleKey exchange.ctx taken
      (StrategyRouter.receiptBody exchange.ctx route info taken)).Obeys (commandProtocol key hlc receipt)
      (fun _ phase => phase = .settled) (CommandPhase.ofDispatch .holding taken) := by
    unfold StrategyRouter.settleKey
    rw [mine]
    cases taken with
    | true => exact Prog.obeys_perform ⟨rfl, rfl, isReceipt⟩ fun _ _ => rfl
    | false => exact Prog.obeys_perform rfl fun _ _ => rfl
  refine settled.bind ?_
  rintro _ _ rfl
  refine (OnlyIncidental.obeys (onlyAnswers_writeResponse _ _).incidental (Prog.returns_true _)
    ?_).bind ?_
  · exact nofun
  · rintro _ _ ⟨-, rfl⟩
    exact ⟨rfl, rfl⟩

theorem obeys_routeRequest_command (mine : exchange.ctx.idempotencyKey = some key) {route : SpectraRouteConfig} (info : RequestInfo)
    (matched : StrategyRouter.matchRoute dynamic.routes info = some route)
    (enabled : route.enabled = true) (isCommand : route.mode.isAsyncEdgeCommand = true)
    (isReceipt : receipt = some (StrategyRouter.receiptBody exchange.ctx route info true)) :
    (routeRequest proxy dynamic exchange info).Obeys (commandProtocol key hlc receipt)
      (fun outcome _ => Over outcome) .holding := by
  unfold routeRequest
  simp only [matched, enabled, isCommand, Bool.not_true, Bool.false_eq_true, if_false, if_true]
  refine (obeys_handleModeBEdge_command mine route info isReceipt).bind ?_
  rintro after _ ⟨terminated, rfl⟩
  refine (OnlyReports.obeys (onlyReports_recordTrafficEvent ..) (Prog.returns_true _)).bind ?_
  rintro _ _ ⟨-, rfl⟩
  exact ⟨nofun, .inr terminated⟩

/-- The stages after the pipeline, for a request that matches an enabled Mode B route. -/
theorem obeys_afterPipeline_command {request : Exchange × String} {route : SpectraRouteConfig}
    (working : Working key hlc request.1 phase) (info : RequestInfo)
    (isFingerprint : phase = .unclaimed → needsFingerprint request.1 info = true ∧
      fingerprint proxy request.1 info request.2 = key)
    (matched : StrategyRouter.matchRoute dynamic.routes info = some route)
    (enabled : route.enabled = true) (isCommand : route.mode.isAsyncEdgeCommand = true)
    (isReceipt : receipt = some (StrategyRouter.receiptBody request.1.ctx route info true)) :
    (afterPipeline proxy dynamic info request).Obeys (commandProtocol key hlc receipt)
      (fun outcome _ => Over outcome) phase := by
  refine Stage.obeys_andThen (fun after phase => phase = .holding ∧ after.ctx.hlc = hlc ∧
    after.ctx.requestId = request.1.ctx.requestId ∧ after.ctx.idempotencyKey = some key) ?_ ?_
  · rw [claimFingerprint_eq]
    -- a command with a key of its own has claimed it before, the other claims its fingerprint here
    cases working with
    | claimed stamp mine =>
      have notNeeded : needsFingerprint request.1 info = false := by simp [needsFingerprint, mine]
      rw [if_neg (by simp [notNeeded])]
      exact ⟨rfl, stamp, rfl, mine⟩
    | unclaimed stamp noKey =>
      obtain ⟨needed, isKey⟩ := isFingerprint rfl
      rw [if_pos needed, isKey]
      refine (obeys_claim_command stamp noKey ..).mono ?_
      rintro (outcome | after) phase ended
      · exact ended
      · obtain ⟨rfl, rfl⟩ := ended
        exact ⟨rfl, stamp, rfl, rfl⟩
  · rintro after _ ⟨rfl, stamp, sameId, mine⟩
    refine obeys_routeRequest_command mine info matched enabled isCommand ?_
    rw [isReceipt, receiptBody_eq sameId (stamp.trans working.stamp.symm)]

/-- From the decoded request on. -/
theorem obeys_filterDecoded_command (working : Working key hlc exchange phase) (info : RequestInfo)
    (body : String)
    (isFingerprint : phase = .unclaimed → needsFingerprint exchange info = true ∧
      fingerprint proxy (accepted exchange body (pipelineVerdict dynamic exchange info body)).1 info
        (accepted exchange body (pipelineVerdict dynamic exchange info body)).2 = key)
    (endsAtEdge : (pipelineVerdict dynamic exchange info body).isReject = true ∨
      ∃ route, StrategyRouter.matchRoute dynamic.routes info = some route ∧
        route.enabled = true ∧ route.mode.isAsyncEdgeCommand = true)
    (isReceipt : ∀ route, StrategyRouter.matchRoute dynamic.routes info = some route →
      receipt = some (StrategyRouter.receiptBody exchange.ctx route info true)) :
    (filterDecoded proxy dynamic exchange info body).Obeys (commandProtocol key hlc receipt)
      (fun outcome _ => Over outcome) phase := by
  have noted : Working key hlc (noteRequest dynamic exchange info body) phase := by
    cases working with
    | claimed stamp mine => exact .claimed stamp mine
    | unclaimed stamp noKey => exact .unclaimed stamp noKey
  have piped : (runPipeline dynamic (noteRequest dynamic exchange info body) info body).Obeys
      (commandProtocol key hlc receipt) _ phase :=
    runPipeline_obeys info body (fun _ possible => possible)
      (fun _ _ _ _ => ⟨noted.allows_incidental trivial, fun _ => rfl⟩)
      fun rejection => obeys_rejectRequest_command noted info rejection
  refine Stage.obeys_andThen _ piped ?_
  rintro request after ⟨rfl, accepts, rfl⟩
  -- what is accepted matches a route
  obtain ⟨route, matched, enabled, isCommand⟩ := endsAtEdge.resolve_left (by
    rw [show (pipelineVerdict dynamic exchange info body).isReject = false from accepts]
    exact nofun)
  have session : (noteRequest dynamic exchange info body).session = exchange.session := rfl
  obtain ⟨sameId, sameHlc, -⟩ := accepted_ctx (noteRequest dynamic exchange info body) body
    (pipelineVerdict dynamic (noteRequest dynamic exchange info body) info body)
  refine obeys_afterPipeline_command (noted.accepted body _) info ?_ matched enabled isCommand ?_
  · intro unclaimed
    obtain ⟨needed, isKey⟩ := isFingerprint unclaimed
    refine ⟨(needsFingerprint_accepted ..).trans needed, ?_⟩
    rw [← isKey, fingerprint_accepted proxy session]
    rfl
  · rw [isReceipt route matched, receiptBody_eq sameId sameHlc]
    rfl

/-- From the body on. -/
theorem obeys_filterExamined_command {current : Exchange} (inHand : InHand exchange current)
    (working : Working key hlc current phase) (endsAtEdge : EndsAtEdge proxy dynamic exchange)
    (isFingerprint : phase = .unclaimed →
      (fingerprinted proxy dynamic exchange).map (fingerprintKey proxy.crates) = some key) :
    (filterExamined proxy dynamic current).Obeys
      (commandProtocol key hlc (receiptOf proxy dynamic exchange)) (fun outcome _ => Over outcome)
      phase := by
  obtain ⟨body, info, success, edge⟩ := endsAtEdge
  obtain ⟨buffer, read, decodes⟩ := decoded_eq_some success
  have buffered : Working key hlc (setBuffer current buffer) phase := by
    cases working with
    | claimed stamp mine => exact .claimed stamp mine
    | unclaimed stamp noKey => exact .unclaimed stamp noKey
  rw [run_filterExamined_of_complete (inHand.bodyRead.trans read)]
  unfold filterBody
  rw [inHand.decodeBody, decodes]
  -- the key, the route and the receipt are those of the stamped request
  refine obeys_filterDecoded_command buffered info body ?_ ?_ ?_
  · rintro rfl
    obtain ⟨text, isText, isKey⟩ := Option.map_eq_some_iff.mp (isFingerprint rfl)
    unfold fingerprinted at isText
    rw [success, Option.bind_some] at isText
    split at isText
    · rename_i isMutation
      cases isText
      have session : (setBuffer current buffer).session = (stampRequest exchange).session := inHand.session
      refine ⟨?_, ?_⟩
      · cases buffered with
        | unclaimed _ noKey => simp [needsFingerprint, noKey, isMutation.2]
      · rw [← isKey, inHand.pipelineVerdict, fingerprint_accepted proxy session]
        rfl
    · cases isText
  · rw [inHand.pipelineVerdict]
    exact edge
  · intro route matched
    unfold receiptOf
    rw [success, Option.bind_some, matched, Option.map_some]
    exact congrArg some (receiptBody_eq inHand.requestId.symm inHand.hlc.symm route info true)

theorem obeys_requestFilter_command (stamp : exchange.ctx.hlc = hlc)
    (noKey : exchange.ctx.idempotencyKey = none) (endsAtEdge : EndsAtEdge proxy dynamic exchange)
    (isResolved : resolvedKey proxy dynamic exchange = some key) :
    (requestFilter proxy dynamic exchange).Obeys
      (commandProtocol key hlc (receiptOf proxy dynamic exchange)) (fun outcome _ => Over outcome)
      .unclaimed := by
  refine Stage.obeys_andThen (fun after phase => after = exchange ∧ phase = .unclaimed) ?_ ?_
  · refine (OnlyIncidental.obeys (incidental_answerAtEdge proxy exchange)
      (answerAtEdge_returns proxy exchange) ?_).mono ?_
    · intro _ _ impossible
      cases impossible
    · rintro (outcome | after) phase ⟨ended, rfl⟩
      · obtain ⟨same, answered⟩ := ended
        exact ⟨answered, .inl (same ▸ noKey)⟩
      · exact ⟨ended, rfl⟩
  rintro after _ ⟨rfl, rfl⟩
  -- without a key in the header nothing is claimed before the body is read
  cases given : explicitKey after.session with
  | none =>
    rw [claimExplicitKey_of_none ((explicitKey_stampRequest after).trans given)]
    refine obeys_filterExamined_command (inHand_stampRequest after) (.unclaimed stamp noKey) endsAtEdge ?_
    intro _
    simpa [resolvedKey, given] using isResolved
  | some explicit =>
    obtain rfl : explicit = key := by simpa [resolvedKey, given] using isResolved
    rw [claimExplicitKey_of_some ((explicitKey_stampRequest after).trans given)]
    have stamped : (stampRequest after).ctx.hlc = hlc := stamp
    refine Stage.obeys_andThen _ (obeys_claim_command stamped noKey ..) ?_
    rintro claimed _ ⟨rfl, rfl⟩
    refine obeys_filterExamined_command (inHand_setKey after (some explicit)) (.claimed stamp rfl)
      endsAtEdge ?_
    intro impossible
    cases impossible

/-- A request that is over leaves nothing to do for logging but to report. -/
theorem obeys_logging_command (quiet : exchange.ctx.idempotencyKey = none ∨
    exchange.ctx.isModeBTerminated = true) (error : Option PingoraError) :
    (logging proxy exchange error).Obeys (commandProtocol key hlc receipt) (fun _ _ => True) phase := by
  have only : OnlyReports (logging proxy exchange error) := by
    apply onlyReports_logging
    cases quiet with
    | inl noKey => exact .inr noKey
    | inr modeB => exact .inl fun loggable => by simp [loggable.notModeB] at modeB
  exact (only.obeys (Prog.returns_true _)).mono fun _ _ _ => trivial

end Protocol

/-- Every request that ends at the edge keeps to the protocol of commands. -/
theorem obeys_serve_command {proxy : CompositeServiceProxy} {dynamic : DynamicGatewayState}
    {arrival : Arrival} {key : String} (isKey : arrival.key proxy dynamic = some key)
    (endsAtEdge : EndsAtEdge proxy dynamic (admitted proxy dynamic arrival)) :
    (serve proxy dynamic arrival).Obeys (commandProtocol key arrival.hlc
      (receiptOf proxy dynamic (admitted proxy dynamic arrival))) (fun _ _ => True) .unclaimed := by
  unfold Arrival.key admitted at isKey
  unfold admitted at endsAtEdge ⊢
  unfold serve
  rcases early : earlyRequestFilter proxy dynamic (arrival.exchange dynamic) with ⟨result, exchange⟩
  rw [early] at isKey endsAtEdge
  obtain ⟨fresh, noKey⟩ := fresh_earlyRequestFilter early
  cases result with
  | error error => exact obeys_logging_command (.inl noKey) _
  | ok _ =>
    refine (obeys_requestFilter_command fresh.stamp noKey endsAtEdge isKey).bind ?_
    intro outcome phase isOver
    unfold afterRequestFilter
    split
    · exact obeys_logging_command isOver.quiet _
    · exact obeys_logging_command isOver.quiet _
    · rename_i goesUpstream
      exact absurd goesUpstream isOver.answered

end SpectraGQL.Gateway
