import SpectraGQL.Gateway.World

/-! # What the stages of a request do

For each stage of the request phase: when it hands the exchange on, when it answers, and
what it does to the engine.  The results about whole requests are put together from these.
-/

namespace SpectraGQL.Gateway

open Interaction SpectraGQL.Core SpectraGQL.Http SpectraGQL.Protocol SpectraGQL.Interceptors
open SpectraGQL.Telemetry SpectraGQL.Idempotency

/-! ## Stages that only answer -/

/-- A call that goes to the client or on record. -/
def IsAnswer : GatewayCall → Prop
  | .writeResponseHeader _ => True
  | .writeResponseBody _ => True
  | .recordTraffic _ => True
  | _ => False

/-- All that the program does is answer the client and put that on record. -/
abbrev OnlyAnswers {α : Type} (program : GatewayProg α) : Prop := Prog.Only IsAnswer program

theorem onlyAnswers_writeResponse (header : ResponseHeader) (body : String) :
    OnlyAnswers (writeResponse header body) := by
  apply Prog.Only.bind (Prog.Only.perform trivial)
  intro written
  split
  · exact Prog.Only.perform trivial
  · exact Prog.Only.ret _

/-- A call that reports on a request after the fact. -/
def IsReport : GatewayCall → Prop
  | .dispatchTerminalEvent _ _ => True
  | .recordTraffic _ => True
  | _ => False

abbrev OnlyReports {α : Type} (program : GatewayProg α) : Prop := Prog.Only IsReport program

theorem onlyReports_recordTrafficEvent (exchange : Exchange) (details : TrafficEventDetails) :
    OnlyReports (recordTrafficEvent exchange details) :=
  Prog.Only.perform trivial

theorem onlyAnswers_recordTrafficEvent (exchange : Exchange) (details : TrafficEventDetails) :
    OnlyAnswers (recordTrafficEvent exchange details) :=
  Prog.Only.perform trivial

theorem onlyAnswers_health (path : String) : OnlyAnswers (HealthFilter.handle path) := by
  have answers : ∀ body, OnlyAnswers (HealthFilter.answer body >>= fun _ => pure true) := fun body =>
    Prog.Only.bind (Prog.Only.bind (onlyAnswers_writeResponse _ _) fun _ => Prog.Only.ret _)
      fun _ => Prog.Only.ret _
  unfold HealthFilter.handle
  split
  · exact answers _
  · split
    · exact answers _
    · exact Prog.Only.ret _

theorem onlyAnswers_favicon (faviconSvg path : String) :
    OnlyAnswers (FaviconFilter.handle faviconSvg path) := by
  unfold FaviconFilter.handle
  split
  · exact Prog.Only.bind (onlyAnswers_writeResponse _ _) fun _ => Prog.Only.ret _
  · exact Prog.Only.ret _

theorem onlyAnswers_refuseDisabled (exchange : Exchange) (info : RequestInfo)
    (route : SpectraRouteConfig) : OnlyAnswers (refuseDisabled exchange info route) := by
  apply Prog.Only.bind (onlyAnswers_writeResponse _ _)
  intro written
  split
  · exact Prog.Only.bind (onlyAnswers_recordTrafficEvent _ _) fun _ => Prog.Only.ret _
  · exact Prog.Only.ret _

theorem refuseDisabled_returns (exchange : Exchange) (info : RequestInfo) (route : SpectraRouteConfig) :
    (refuseDisabled exchange info route).Returns fun outcome => outcome = ⟨.ok true, exchange⟩ := by
  refine (Prog.returns_true _).bind fun written _ => ?_
  split
  · exact (Prog.returns_true _).bind fun _ _ => Prog.Returns.ret rfl
  · exact Prog.Returns.ret rfl

theorem answerRejection_returns (exchange : Exchange) (info : RequestInfo)
    (rejection : InterceptorRejection) :
    (answerRejection exchange info rejection).Returns fun outcome => outcome = ⟨.ok true, exchange⟩ := by
  unfold answerRejection
  refine (Prog.returns_true _).bind fun written _ => ?_
  split
  · exact (Prog.returns_true _).bind fun _ _ => (Prog.returns_true _).bind fun _ _ =>
      (Prog.returns_true _).bind fun _ _ => Prog.Returns.ret rfl
  · exact Prog.Returns.ret rfl

/-- A rejected request has no key any more. -/
theorem rejectRequest_returns (exchange : Exchange) (info : RequestInfo) (rejection : InterceptorRejection) :
    (rejectRequest exchange info rejection).Returns
      fun outcome => outcome = ⟨.ok true, exchange.setKey none⟩ :=
  (Prog.returns_true _).bind fun _ _ => answerRejection_returns (exchange.setKey none) info rejection

theorem forward_returns (proxy : CompositeServiceProxy) (exchange : Exchange) (info : RequestInfo) :
    (forward proxy exchange info).Returns fun outcome => outcome = ⟨.ok false, exchange⟩ :=
  (Prog.returns_true _).bind fun _ _ => Prog.Returns.ret rfl

theorem handleModeBEdge_returns (proxy : CompositeServiceProxy) (exchange : Exchange)
    (route : SpectraRouteConfig) (info : RequestInfo) :
    (StrategyRouter.handleModeBEdge proxy exchange route info).Returns
      fun after => after = { exchange with ctx := { exchange.ctx with isModeBTerminated := true } } :=
  (Prog.returns_true _).bind fun _ _ => (Prog.returns_true _).bind fun _ _ =>
    (Prog.returns_true _).bind fun _ _ => Prog.Returns.ret rfl

theorem onlyAnswers_answerClaim (ctx : ProxyCtx) (key : String) (shownKey : Option String)
    (outcome : IdempotencyOutcome) :
    OnlyAnswers (IdempotencyFilter.answerClaim ctx key shownKey outcome) := by
  cases outcome with
  | new => exact Prog.Only.ret _
  | conflict conflictHlc =>
    exact Prog.Only.bind (onlyAnswers_writeResponse _ _) fun _ => Prog.Only.ret _
  | replay holder statusCode headers body =>
    have writes : OnlyAnswers
        (IdempotencyFilter.writeReplayResponse ctx.requestId ctx.hlc statusCode headers body) := by
      unfold IdempotencyFilter.writeReplayResponse
      split
      · exact Prog.Only.ret _
      · exact Prog.Only.bind (onlyAnswers_writeResponse _ _) fun _ => Prog.Only.ret _
    exact Prog.Only.bind writes fun
      | .ok () => Prog.Only.ret _
      | .error _ => Prog.Only.ret _

theorem onlyAnswers_afterClaim (exchange : Exchange) (mode : String) (operationName : Option String)
    (result : Except PingoraError IdempotencyFilter.IdempotencyInterceptResult) :
    OnlyAnswers (afterClaim exchange mode operationName result) := by
  cases result with
  | error error => exact Prog.Only.ret _
  | ok result =>
    cases result with
    | replay => exact Prog.Only.bind (onlyAnswers_recordTrafficEvent _ _) fun _ => Prog.Only.ret _
    | conflict | newKey _ | none => exact Prog.Only.ret _

/-! ## Stages that are not for the engine -/

theorem OnlyAnswers.leavesEngine {α : Type} {program : GatewayProg α} (only : OnlyAnswers program) :
    LeavesEngine program :=
  only.mono fun call isAnswer => by cases call <;> first | rfl | cases isAnswer

theorem leavesEngine_writeResponse (header : ResponseHeader) (body : String) :
    LeavesEngine (writeResponse header body) :=
  (onlyAnswers_writeResponse header body).leavesEngine

theorem leavesEngine_recordTrafficEvent (exchange : Exchange) (details : TrafficEventDetails) :
    LeavesEngine (recordTrafficEvent exchange details) :=
  leavesEngine_perform (by rfl)

/-- A call that neither is for the engine nor publishes the request. -/
def Incidental : GatewayCall → Prop
  | .checkOrInsert _ _ => False
  | .complete _ _ _ _ _ => False
  | .remove _ => False
  | .dispatchRequestInfo _ => False
  | _ => True

abbrev OnlyIncidental {α : Type} (program : GatewayProg α) : Prop := Prog.Only Incidental program

theorem OnlyIncidental.leavesEngine {α : Type} {program : GatewayProg α}
    (only : OnlyIncidental program) : LeavesEngine program :=
  only.mono fun call incidental => by cases call <;> first | rfl | cases incidental

theorem IsReport.incidental {call : GatewayCall} (isReport : IsReport call) : Incidental call := by
  cases call <;> trivial

theorem OnlyReports.leavesEngine {α : Type} {program : GatewayProg α} (only : OnlyReports program) :
    LeavesEngine program :=
  OnlyIncidental.leavesEngine (only.mono fun _ => IsReport.incidental)

theorem OnlyAnswers.incidental {α : Type} {program : GatewayProg α} (only : OnlyAnswers program) :
    OnlyIncidental program :=
  only.mono fun call isAnswer => by cases call <;> trivial

/-- A call that the edge makes: an answer, or the handling of an administrative request or
    of an upgraded connection. -/
def IsEdgeCall : GatewayCall → Prop
  | .handleAdmin => True
  | .handleWebsocketSubscription => True
  | call => IsAnswer call

theorem IsAnswer.isEdgeCall {call : GatewayCall} (isAnswer : IsAnswer call) : IsEdgeCall call := by
  cases call <;> trivial

theorem IsEdgeCall.incidental {call : GatewayCall} (isEdgeCall : IsEdgeCall call) : Incidental call := by
  cases call <;> trivial

theorem edgeCalls_admin (adminPrefix : Option String) (path : String) :
    Prog.Only IsEdgeCall (AdminFilter.handle adminPrefix path) := by
  unfold AdminFilter.handle
  split
  · exact Prog.Only.bind (Prog.Only.perform trivial) fun
      | .ok () => Prog.Only.ret _
      | .error _ => Prog.Only.ret _
  · exact Prog.Only.ret _

theorem edgeCalls_answerAtEdge (proxy : CompositeServiceProxy) (exchange : Exchange) :
    Prog.Only IsEdgeCall (answerAtEdge proxy exchange) := by
  apply Prog.Only.bind ((onlyAnswers_health _).mono fun _ => IsAnswer.isEdgeCall)
  intro isProbe
  split
  · exact Prog.Only.ret _
  apply Prog.Only.bind ((onlyAnswers_favicon _ _).mono fun _ => IsAnswer.isEdgeCall)
  intro isIcon
  split
  · exact Prog.Only.ret _
  apply Prog.Only.bind (edgeCalls_admin _ _)
  intro isAdmin
  split
  · exact Prog.Only.ret _
  · exact Prog.Only.ret _
  · split
    · exact Prog.Only.bind (Prog.Only.perform trivial) fun
        | .ok () => Prog.Only.ret _
        | .error _ => Prog.Only.ret _
    · exact Prog.Only.ret _

theorem incidental_answerAtEdge (proxy : CompositeServiceProxy) (exchange : Exchange) :
    OnlyIncidental (answerAtEdge proxy exchange) :=
  (edgeCalls_answerAtEdge proxy exchange).mono fun _ => IsEdgeCall.incidental

theorem leavesEngine_modeADispatchPolicy (proxy : CompositeServiceProxy)
    (policy : ModeADispatchPolicy) (info : RequestInfo) :
    LeavesEngine (StrategyRouter.handleModeADispatchPolicy proxy policy info) := by
  cases policy with
  | rawAudit => exact Prog.Only.bind (leavesEngine_perform (by rfl)) fun _ => Prog.Only.ret _
  | responseOnly | responseWithFailure | none => exact Prog.Only.ret _

theorem leavesEngine_streamChunks (proxy : CompositeServiceProxy) (dynamic : DynamicGatewayState)
    (elapsedMs : Nat) (broken : Option PingoraError) (ctx : ProxyCtx) (chunks : List (Option Bytes)) :
    LeavesEngine (streamChunks proxy dynamic elapsedMs broken ctx chunks) := by
  induction chunks generalizing ctx with
  | nil => exact Prog.Only.ret _
  | cons chunk rest inductionHypothesis =>
    unfold streamChunks
    dsimp only
    split
    · exact inductionHypothesis _
    · apply Prog.Only.bind (leavesEngine_perform (by rfl))
      intro written
      split
      · exact inductionHypothesis _
      · exact Prog.Only.ret _

theorem leavesEngine_proxyUpstream (proxy : CompositeServiceProxy) (dynamic : DynamicGatewayState)
    (exchange : Exchange) (upstream : Upstream) (elapsedMs : Nat) :
    LeavesEngine (proxyUpstream proxy dynamic exchange upstream elapsedMs) := by
  unfold proxyUpstream
  split
  · exact Prog.Only.ret _
  · split
    · exact Prog.Only.ret _
    · dsimp only
      apply Prog.Only.bind (leavesEngine_perform (by rfl))
      intro written
      split
      · exact Prog.Only.bind (leavesEngine_streamChunks ..) fun _ => Prog.Only.ret _
      · exact Prog.Only.ret _

/-! ## The edge -/

/-- Requests that the gateway answers before it looks at them. -/
def isEdge (proxy : CompositeServiceProxy) (parts : RequestParts) : Bool :=
  isEdgePath proxy parts.uri.path || isSubscriptionUpgrade proxy parts

variable (environment : Environment) (world : World)

theorem health_result (path : String) :
    (run environment (HealthFilter.handle path) world).1 = HealthFilter.isHealthProbe path := by
  unfold HealthFilter.handle HealthFilter.isHealthProbe
  split
  · rename_i same
    rw [run_bind, same]
    rfl
  · rename_i other
    split
    · rename_i same
      rw [run_bind, same]
      rfl
    · rename_i another
      rw [beq_eq_false_iff_ne.mpr other, beq_eq_false_iff_ne.mpr another]
      rfl

theorem favicon_result (faviconSvg path : String) :
    (run environment (FaviconFilter.handle faviconSvg path) world).1 =
      FaviconFilter.isFaviconRequest path := by
  unfold FaviconFilter.handle
  split
  · rename_i icon
    rw [run_bind, icon]
    rfl
  · rename_i other
    rw [Bool.eq_false_iff.mpr other]
    rfl

/-- The admin filter lets a request through only when it is not for the admin engine. -/
theorem admin_result {adminPrefix : Option String} {path : String}
    (passes : (run environment (AdminFilter.handle adminPrefix path) world).1 = .ok false) :
    AdminFilter.isAdminRequest adminPrefix path = false := by
  unfold AdminFilter.handle at passes
  split at passes
  · rw [run_bind] at passes
    split at passes <;> simp [run_ret] at passes
  · rename_i other
    exact Bool.eq_false_iff.mpr other

/-- What follows the session of an upgraded connection. -/
def afterUpgrade (exchange : Exchange) : Except PingoraError Unit → Stage Exchange
  | .error error => .failed error exchange
  | .ok () => .answered exchange

/-- Off the paths of the edge there is only the upgrade to look for. -/
theorem answerAtEdge_of_not_edgePath {proxy : CompositeServiceProxy} {exchange : Exchange}
    (notEdge : isEdgePath proxy exchange.session.reqHeader.uri.path = false) :
    answerAtEdge proxy exchange =
      if isSubscriptionUpgrade proxy exchange.session.reqHeader then
        handleWebsocketSubscription >>= fun ended => .ret (afterUpgrade exchange ended)
      else .ret (.next exchange) := by
  have upgrades : (handleWebsocketSubscription >>= fun ended => .ret (afterUpgrade exchange ended)) =
      (do match ← handleWebsocketSubscription with
        | .error error => return .failed error exchange
        | .ok () => return .answered exchange : GatewayProg (Stage Exchange)) := by
    refine congrArg (handleWebsocketSubscription >>= ·) (funext fun ended => ?_)
    cases ended <;> rfl
  simp only [isEdgePath, HealthFilter.isHealthProbe, Bool.or_eq_false_iff,
    beq_eq_false_iff_ne] at notEdge
  obtain ⟨⟨⟨notHealthz, notLivez⟩, notIcon⟩, notAdmin⟩ := notEdge
  rw [upgrades]
  unfold answerAtEdge HealthFilter.handle FaviconFilter.handle AdminFilter.handle
  simp only [notHealthz, notLivez, notIcon, notAdmin, Bool.false_eq_true, if_false]
  rfl

theorem answerAtEdge_of_not_edge {proxy : CompositeServiceProxy} {exchange : Exchange}
    (notEdge : isEdge proxy exchange.session.reqHeader = false) :
    answerAtEdge proxy exchange = .ret (.next exchange) := by
  obtain ⟨notEdgePath, notUpgrade⟩ := Bool.or_eq_false_iff.mp notEdge
  rw [answerAtEdge_of_not_edgePath notEdgePath, notUpgrade]
  rfl

theorem answerAtEdge_of_upgrade {proxy : CompositeServiceProxy} {exchange : Exchange}
    (notEdge : isEdgePath proxy exchange.session.reqHeader.uri.path = false)
    (upgrade : isSubscriptionUpgrade proxy exchange.session.reqHeader = true) :
    answerAtEdge proxy exchange =
      handleWebsocketSubscription >>= fun ended => .ret (afterUpgrade exchange ended) := by
  rw [answerAtEdge_of_not_edgePath notEdge, upgrade]
  rfl

/-- A probe, an icon, an admin request or an upgrade never goes upstream. -/
theorem run_answerAtEdge_of_edge {proxy : CompositeServiceProxy} {exchange : Exchange}
    (edge : isEdge proxy exchange.session.reqHeader = true) :
    ∃ result, result ≠ .ok false ∧
      (run environment (answerAtEdge proxy exchange) world).1 = .done ⟨result, exchange⟩ := by
  unfold answerAtEdge
  dsimp only
  rw [run_bind]
  split
  · exact ⟨.ok true, by simp, rfl⟩
  rename_i notProbe
  rw [run_bind]
  split
  · exact ⟨.ok true, by simp, rfl⟩
  rename_i notIcon
  rw [run_bind]
  split
  · rename_i error failed
    exact ⟨.error error, by simp, rfl⟩
  · exact ⟨.ok true, by simp, rfl⟩
  · rename_i notAdmin
    split
    · rw [run_bind]
      split
      · rename_i error failed
        exact ⟨.error error, by simp, rfl⟩
      · exact ⟨.ok true, by simp, rfl⟩
    · -- nothing has answered, so the request is none of the four
      rename_i notUpgrade
      rw [health_result] at notProbe
      rw [favicon_result] at notIcon
      simp [isEdge, isEdgePath, notProbe, notIcon, admin_result _ _ notAdmin, notUpgrade] at edge

/-! ## Claiming a key -/

/-- The key of the client's own choice, if there is one. -/
def explicitKey (session : Session) : Option String :=
  IdempotencyFilter.extractIdempotencyKey session.reqHeader.headers

/-- The headers that the gateway adds do not bring a key with them. -/
theorem explicitKey_stampRequest (exchange : Exchange) :
    explicitKey (stampRequest exchange).session = explicitKey exchange.session := by
  simp only [explicitKey, IdempotencyFilter.extractIdempotencyKey, IdempotencyFilter.keyFrom,
    stampRequest]
  congr 2 <;> (iterate 3 rw [HeaderMap.getStr_appendStr (by decide)])

/-- Claim a key, whichever kind it is of. -/
def claim (exchange : Exchange) (key : String) (shownKey : Option String) (mode : String)
    (operationName : Option String) : GatewayProg (Stage Exchange) :=
  IdempotencyFilter.claimKey exchange.ctx key shownKey >>= afterClaim exchange mode operationName

theorem claimExplicitKey_of_none {exchange : Exchange} (absent : explicitKey exchange.session = none) :
    claimExplicitKey exchange = .ret (.next exchange) := by
  unfold explicitKey at absent
  simp only [claimExplicitKey, IdempotencyFilter.handleExplicitKey, absent]
  rfl

theorem claimExplicitKey_of_some {exchange : Exchange} {key : String}
    (given : explicitKey exchange.session = some key) :
    claimExplicitKey exchange = claim exchange key (some key) "Replay (Idempotency)" none := by
  unfold explicitKey at given
  simp only [claimExplicitKey, IdempotencyFilter.handleExplicitKey, given, claim]

/-- The key of a mutation that came without one. -/
def fingerprint (proxy : CompositeServiceProxy) (exchange : Exchange) (info : RequestInfo)
    (body : String) : String :=
  IdempotencyFilter.computeFingerprint proxy.crates
    ((exchange.session.reqHeader.headers.getStr "x-forwarded-for").getD "client")
    info.operationName body

/-- A request that is to get a key for its fingerprint. -/
def needsFingerprint (exchange : Exchange) (info : RequestInfo) : Bool :=
  exchange.ctx.idempotencyKey.isNone && info.gql.any GraphQLRequestInfo.isMutation

theorem claimFingerprint_eq (proxy : CompositeServiceProxy) (exchange : Exchange)
    (info : RequestInfo) (body : String) :
    claimFingerprint proxy exchange info body =
      if needsFingerprint exchange info then
        claim exchange (fingerprint proxy exchange info body) none "Replay (Fingerprint)"
          info.operationName
      else .ret (.next exchange) := rfl

section Claim

variable {environment world} {exchange : Exchange} {key : String} {shownKey : Option String}
  {mode : String} {operationName : Option String}

/-- The world after a key was claimed by a request that got it. -/
def World.lock (world : World) (key : String) (hlc : HlcTimestamp) : World :=
  ⟨Function.update world.engine key (some (.inProgress hlc)),
    world.trace ++ [⟨.checkOrInsert key hlc, IdempotencyOutcome.new⟩]⟩

theorem run_checkOrInsert (hlc : HlcTimestamp) :
    run environment (checkOrInsert key hlc) world = handle environment (.checkOrInsert key hlc) world :=
  rfl

theorem handle_checkOrInsert_of_free {hlc : HlcTimestamp} (free : world.engine key = none) :
    handle environment (.checkOrInsert key hlc) world = (IdempotencyOutcome.new, world.lock key hlc) := by
  have answered : answerOf environment world (.checkOrInsert key hlc) = IdempotencyOutcome.new := by
    simp only [answerOf, free]
    rfl
  have locked : engineAfter (.checkOrInsert key hlc) world.engine =
      Function.update world.engine key (some (.inProgress hlc)) := by
    simp only [engineAfter, GatewayCall.operation?, Engine.step, Operation.key, free, Operation.onKey]
  unfold handle World.lock
  rw [answered, locked]
  rfl

theorem handle_checkOrInsert_of_taken {hlc : HlcTimestamp} {found : KeyState}
    (taken : world.engine key = some found) :
    handle environment (.checkOrInsert key hlc) world =
      (found.outcome, ⟨world.engine, world.trace ++ [⟨.checkOrInsert key hlc, found.outcome⟩]⟩) := by
  have answered : answerOf environment world (.checkOrInsert key hlc) = found.outcome := by
    simp only [answerOf, taken]
    rfl
  have kept : engineAfter (.checkOrInsert key hlc) world.engine = world.engine := by
    simp only [engineAfter, GatewayCall.operation?, Engine.step, Operation.key, taken, Operation.onKey]
    rw [← taken, Function.update_eq_self]
  unfold handle
  rw [answered, kept]
  rfl

/-- A free key is locked and kept in the context. -/
theorem run_claim_of_free (free : world.engine key = none) :
    run environment (claim exchange key shownKey mode operationName) world =
      (.next (exchange.setKey (some key)), world.lock key exchange.ctx.hlc) := by
  unfold claim IdempotencyFilter.claimKey
  rw [Prog.bind_assoc, run_bind, run_checkOrInsert, handle_checkOrInsert_of_free free]
  rfl

/-- What a claim of a taken key comes to: a conflict, a replay, or the error of a record
    whose status cannot be written. -/
theorem answerClaim_result (ctx : ProxyCtx) (found : KeyState) :
    (run environment (IdempotencyFilter.answerClaim ctx key shownKey found.outcome) world).1 =
      match found with
      | .inProgress _ => .ok .conflict
      | .completed _ statusCode _ _ =>
        if (StatusCode.fromU16 statusCode).isSome then .ok .replay
        else .error IdempotencyFilter.invalidStatus := by
  cases found with
  | inProgress holder =>
    unfold KeyState.outcome IdempotencyFilter.answerClaim
    rw [run_bind]
    rfl
  | completed holder statusCode headers body =>
    unfold KeyState.outcome IdempotencyFilter.answerClaim IdempotencyFilter.writeReplayResponse
    dsimp only
    rw [run_bind]
    cases StatusCode.fromU16 statusCode with
    | none => rfl
    | some status =>
      dsimp only
      rw [run_bind]
      rfl

theorem engine_claim_of_taken {found : KeyState} (taken : world.engine key = some found) :
    (run environment (claim exchange key shownKey mode operationName) world).2.engine =
      world.engine := by
  unfold claim IdempotencyFilter.claimKey
  rw [Prog.bind_assoc, run_bind, run_checkOrInsert, handle_checkOrInsert_of_taken taken, run_bind]
  exact ((onlyAnswers_afterClaim ..).leavesEngine.engine_run _ _).trans
    ((onlyAnswers_answerClaim ..).leavesEngine.engine_run _ _)

/-- How the phase ends for a request whose key is taken. -/
def endOfTaken (exchange : Exchange) : KeyState → Outcome
  | .inProgress _ => ⟨.ok true, exchange⟩
  | .completed _ statusCode _ _ =>
    if (StatusCode.fromU16 statusCode).isSome then
      ⟨.ok true, { exchange with ctx := { exchange.ctx with isReplay := true } }⟩
    else ⟨.error IdempotencyFilter.invalidStatus, exchange⟩

theorem endOfTaken_result_ne (found : KeyState) : (endOfTaken exchange found).result ≠ .ok false := by
  cases found with
  | inProgress holder => simp [endOfTaken]
  | completed holder statusCode headers body =>
    unfold endOfTaken
    dsimp only
    split <;> simp

/-- A key that is taken ends the phase. -/
theorem run_claim_of_taken {found : KeyState} (taken : world.engine key = some found) :
    (run environment (claim exchange key shownKey mode operationName) world).1 =
      .done (endOfTaken exchange found) := by
  unfold claim IdempotencyFilter.claimKey
  rw [Prog.bind_assoc, run_bind, run_checkOrInsert, handle_checkOrInsert_of_taken taken, run_bind,
    answerClaim_result]
  cases found with
  | inProgress holder => rfl
  | completed holder statusCode headers body =>
    unfold endOfTaken
    dsimp only
    split
    · unfold afterClaim
      rw [run_bind]
      rfl
    · rfl

end Claim

/-! ## Reading and decoding the body -/

/-- What reading the body of a request comes to; only that of a POST request is read. -/
def bodyRead (exchange : Exchange) : BodyRead :=
  if exchange.session.reqHeader.method = .post then
    readBody exchange.session.readError exchange.ctx.buffer exchange.session.chunks
  else .complete exchange.ctx.buffer

theorem readRequestBody_eq (exchange : Exchange) :
    readRequestBody exchange =
      match bodyRead exchange with
      | .failed error buffer => .ret (.failed error (setBuffer exchange buffer))
      | .tooLarge buffer => refusePayload (setBuffer exchange buffer) >>= fun outcome =>
          .ret (.done outcome)
      | .complete buffer => .ret (.next (setBuffer exchange buffer)) := by
  unfold readRequestBody bodyRead
  split
  · cases readBody exchange.session.readError exchange.ctx.buffer exchange.session.chunks <;> rfl
  · rfl

/-- A refused request keeps its key only if the client is gone. -/
theorem refusePayload_returns (exchange : Exchange) :
    (refusePayload exchange).Returns fun outcome => ∃ key, outcome = ⟨.ok true, exchange.setKey key⟩ := by
  refine (Prog.returns_true _).bind fun written _ => ?_
  split
  · cases exchange.ctx.idempotencyKey with
    | none => exact Prog.Returns.ret ⟨exchange.ctx.idempotencyKey, rfl⟩
    | some key => exact (Prog.returns_true _).bind fun _ _ => Prog.Returns.ret ⟨none, rfl⟩
  · exact Prog.Returns.ret ⟨exchange.ctx.idempotencyKey, rfl⟩

/-- A request as the gateway looks at it, once the body is read. -/
def examined (exchange : Exchange) (buffer : Bytes) : Exchange :=
  setBuffer (stampRequest exchange) buffer

/-- The decoded request, if the gateway gets that far. -/
def decoded (proxy : CompositeServiceProxy) (exchange : Exchange) : Option (String × RequestInfo) :=
  match bodyRead exchange with
  | .complete buffer => decodeBody proxy (examined exchange buffer)
  | _ => none

theorem decoded_of_complete {proxy : CompositeServiceProxy} {exchange : Exchange} {buffer : Bytes}
    (read : bodyRead exchange = .complete buffer) :
    decoded proxy exchange = decodeBody proxy (examined exchange buffer) := by
  rw [decoded, read]

theorem decodeBody_eq_some {proxy : CompositeServiceProxy} {exchange : Exchange} {body : String}
    {info : RequestInfo} (success : decodeBody proxy exchange = some (body, info)) :
    exchange.ctx.buffer ≠ [] ∧ exchange.ctx.buffer = asBytes body ∧ ∃ service,
      exchange.ctx.service = some service ∧ service.requestProtocol.decodeRequest proxy.crates
        exchange.ctx.requestId exchange.ctx.hlc exchange.session.reqHeader body = .ok info := by
  unfold decodeBody at success
  split at success
  · cases success
  rename_i nonempty
  cases text : fromUtf8 exchange.ctx.buffer with
  | none => simp [text] at success
  | some text' =>
    cases service : exchange.ctx.service with
    | none => simp [text, service] at success
    | some service' =>
      simp only [text, service, Option.bind_eq_bind, Option.bind_some] at success
      split at success
      · rename_i info' ok
        cases success
        exact ⟨nonempty, (asBytes_of_fromUtf8 text).symm, service', rfl, ok⟩
      · cases success

/-! ## The phase as a whole -/

/-- A request that the gateway looks at, and whose key, if it brings one, is free or its
    own: what is left of the phase after the key. -/
def filterExamined (proxy : CompositeServiceProxy) (dynamic : DynamicGatewayState)
    (exchange : Exchange) : GatewayProg Outcome :=
  Stage.andThen (readRequestBody exchange) fun exchange => filterBody proxy dynamic exchange

section Phase

variable {environment world} {proxy : CompositeServiceProxy} {dynamic : DynamicGatewayState}
  {exchange : Exchange}

theorem requestFilter_of_not_edge (notEdge : isEdge proxy exchange.session.reqHeader = false) :
    requestFilter proxy dynamic exchange =
      Stage.andThen (claimExplicitKey (stampRequest exchange)) (filterExamined proxy dynamic) := by
  unfold requestFilter
  rw [answerAtEdge_of_not_edge notEdge]
  rfl

theorem requestFilter_of_no_key (notEdge : isEdge proxy exchange.session.reqHeader = false)
    (absent : explicitKey exchange.session = none) :
    requestFilter proxy dynamic exchange = filterExamined proxy dynamic (stampRequest exchange) := by
  rw [requestFilter_of_not_edge notEdge,
    claimExplicitKey_of_none ((explicitKey_stampRequest exchange).trans absent)]
  rfl

theorem run_requestFilter_of_free (notEdge : isEdge proxy exchange.session.reqHeader = false)
    {key : String} (given : explicitKey exchange.session = some key)
    (free : world.engine key = none) :
    run environment (requestFilter proxy dynamic exchange) world =
      run environment (filterExamined proxy dynamic ((stampRequest exchange).setKey (some key)))
        (world.lock key exchange.ctx.hlc) := by
  rw [requestFilter_of_not_edge notEdge, run_andThen,
    claimExplicitKey_of_some ((explicitKey_stampRequest exchange).trans given),
    run_claim_of_free free]
  rfl

theorem run_andThen_of_done {α : Type} {stage : GatewayProg (Stage α)} {rest : α → GatewayProg Outcome}
    {outcome : Outcome} (ended : (run environment stage world).1 = .done outcome) :
    run environment (Stage.andThen stage rest) world = (outcome, (run environment stage world).2) := by
  rw [run_andThen]
  generalize run environment stage world = ran at ended
  obtain ⟨_, after⟩ := ran
  cases ended
  rfl

theorem run_requestFilter_of_taken (notEdge : isEdge proxy exchange.session.reqHeader = false)
    {key : String} (given : explicitKey exchange.session = some key) {found : KeyState}
    (taken : world.engine key = some found) :
    run environment (requestFilter proxy dynamic exchange) world =
      (endOfTaken (stampRequest exchange) found,
        (run environment (claim (stampRequest exchange) key (some key) "Replay (Idempotency)" none)
          world).2) := by
  rw [requestFilter_of_not_edge notEdge,
    claimExplicitKey_of_some ((explicitKey_stampRequest exchange).trans given)]
  exact run_andThen_of_done (run_claim_of_taken taken)

/-- A body that is not read to its end does not go upstream. -/
theorem run_filterExamined_of_complete {buffer : Bytes} (read : bodyRead exchange = .complete buffer) :
    filterExamined proxy dynamic exchange = filterBody proxy dynamic (setBuffer exchange buffer) := by
  unfold filterExamined
  rw [readRequestBody_eq, read]
  rfl

end Phase

end SpectraGQL.Gateway
