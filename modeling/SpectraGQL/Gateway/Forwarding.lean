import SpectraGQL.Gateway.Mediation
import SpectraGQL.Interceptors.Auth

/-! # What goes upstream

The head and the body of a request on its way upstream.  Interceptors work on a copy of the
head, of which only the headers of a transformation come back (`session_of_forwarded`), and
a transformed body replaces neither the decoded request nor the bytes that are sent.
`identity_headers_verified_iff` and `transform_takes_effect_iff` say for which requests the
upstream gets what the interceptors have decided nevertheless.
-/

namespace SpectraGQL.Gateway

open Interaction SpectraGQL.Core SpectraGQL.Http SpectraGQL.Protocol SpectraGQL.Interceptors
open SpectraGQL.Telemetry SpectraGQL.Idempotency Data

/-! ## After the pipeline -/

/-- The verdict of the composed pipeline on a decoded request. -/
def pipelineVerdict (dynamic : DynamicGatewayState) (exchange : Exchange) (info : RequestInfo)
    (body : String) : InterceptorVerdict :=
  (RequestInterceptorPipeline.interceptRequest
    (dynamic.interceptorManager.getRequestPipeline info.operationName)
    (interceptorContext exchange.ctx info) exchange.session.reqHeader body).1

/-- The exchange and the body text that an accepted request goes on with. -/
def accepted (exchange : Exchange) (body : String) : InterceptorVerdict → Exchange × String
  | .pass => (exchange, body)
  | .audit ruleName tag _ => (noteAudit exchange ruleName tag, body)
  | .transform headers newBody => transformRequest exchange body headers newBody
  | .reject _ => (exchange, body)

/-- The stages after the pipeline. -/
def afterPipeline (proxy : CompositeServiceProxy) (dynamic : DynamicGatewayState)
    (info : RequestInfo) (request : Exchange × String) : GatewayProg Outcome :=
  Stage.andThen (claimFingerprint proxy request.1 info request.2) fun exchange =>
    routeRequest proxy dynamic exchange info

/-- The head of a request after a verdict. -/
def headAfter (parts : RequestParts) : InterceptorVerdict → RequestParts
  | .transform headers _ => { parts with headers := transformHeaders parts.headers headers }
  | _ => parts

theorem session_accepted (exchange : Exchange) (body : String) (verdict : InterceptorVerdict) :
    (accepted exchange body verdict).1.session =
      { exchange.session with reqHeader := headAfter exchange.session.reqHeader verdict } := by
  cases verdict with
  | transform headers newBody => cases newBody <;> rfl
  | pass | audit _ _ _ | reject _ => rfl

section Decoded

variable {environment : Environment} {world : World} {proxy : CompositeServiceProxy}
  {dynamic : DynamicGatewayState} {exchange : Exchange} {info : RequestInfo} {body : String}

theorem afterVerdict_of_accepted {verdict : InterceptorVerdict} (accepts : verdict.isReject = false) :
    afterVerdict exchange info body verdict = .ret (.next (accepted exchange body verdict)) := by
  cases verdict with
  | reject rejection => cases accepts
  | pass | audit _ _ _ | transform _ _ => rfl

/-- A call that evaluates a pipeline. -/
def IsEvaluation (call : GatewayCall) : Prop :=
  ∃ pipeline context parts text, call = .interceptRequest pipeline context parts text

theorem pipelineVerdict_of_nil
    (composed : dynamic.interceptorManager.getRequestPipeline info.operationName = []) :
    pipelineVerdict dynamic exchange info body = .pass := by
  unfold pipelineVerdict
  rw [composed]
  rfl

/-- How often the pipeline of a request is evaluated: an empty one never, any other once. -/
def evaluationCalls (dynamic : DynamicGatewayState) (info : RequestInfo) : Nat :=
  if (dynamic.interceptorManager.getRequestPipeline info.operationName).isEmpty then 0 else 1

/-- The pipeline ends with what its verdict leads to; a pipeline that is not empty is
    evaluated. -/
theorem run_runPipeline (environment : Environment) (world : World) (dynamic : DynamicGatewayState)
    (exchange : Exchange) (info : RequestInfo) (body : String) :
    ∃ events : List (Event gatewaySignature), (∀ event ∈ events, IsEvaluation event.call) ∧
      events.length = evaluationCalls dynamic info ∧
      run environment (runPipeline dynamic exchange info body) world =
        run environment (afterVerdict exchange info body (pipelineVerdict dynamic exchange info body))
          ⟨world.engine, world.trace ++ events⟩ := by
  unfold runPipeline evaluationCalls
  cases composed : dynamic.interceptorManager.getRequestPipeline info.operationName with
  | nil =>
    rw [pipelineVerdict_of_nil composed]
    refine ⟨[], by simp, rfl, ?_⟩
    rw [List.append_nil]
    rfl
  | cons interceptor rest =>
    let call : GatewayCall := .interceptRequest (interceptor :: rest)
      (interceptorContext exchange.ctx info) exchange.session.reqHeader body
    have verdict : answerOf environment world call = pipelineVerdict dynamic exchange info body := by
      unfold pipelineVerdict
      rw [composed]
      rfl
    refine ⟨[⟨call, pipelineVerdict dynamic exchange info body⟩], ?_, rfl, ?_⟩
    · intro event member
      rw [List.mem_singleton.mp member]
      exact ⟨_, _, _, _, rfl⟩
    · rw [← verdict]
      rfl

/-- A request that its pipeline accepts goes on with the stages after the pipeline. -/
theorem run_filterDecoded (environment : Environment) (world : World) (proxy : CompositeServiceProxy)
    (accepts : (pipelineVerdict dynamic exchange info body).isReject = false) :
    ∃ events : List (Event gatewaySignature), (∀ event ∈ events, IsEvaluation event.call) ∧
      events.length = evaluationCalls dynamic info ∧
      run environment (filterDecoded proxy dynamic exchange info body) world =
        run environment (afterPipeline proxy dynamic info
          (accepted (noteRequest dynamic exchange info body) body
            (pipelineVerdict dynamic exchange info body)))
          ⟨world.engine, world.trace ++ events⟩ := by
  obtain ⟨events, evaluations, counted, ran⟩ :=
    run_runPipeline environment world dynamic (noteRequest dynamic exchange info body) info body
  refine ⟨events, evaluations, counted, ?_⟩
  unfold filterDecoded
  rw [run_andThen, ran]
  have noted : pipelineVerdict dynamic (noteRequest dynamic exchange info body) info body =
      pipelineVerdict dynamic exchange info body := rfl
  rw [noted, afterVerdict_of_accepted accepts]
  rfl

/-- A request that its pipeline rejects ends with the answer to that. -/
theorem run_filterDecoded_of_reject (environment : Environment) (world : World)
    (proxy : CompositeServiceProxy) {rejection : InterceptorRejection}
    (rejects : pipelineVerdict dynamic exchange info body = .reject rejection) :
    ∃ event : Event gatewaySignature, IsEvaluation event.call ∧
      run environment (filterDecoded proxy dynamic exchange info body) world =
        run environment (rejectRequest (noteRequest dynamic exchange info body) info rejection)
          ⟨world.engine, world.trace ++ [event]⟩ := by
  obtain ⟨events, evaluations, counted, ran⟩ :=
    run_runPipeline environment world dynamic (noteRequest dynamic exchange info body) info body
  have composed : dynamic.interceptorManager.getRequestPipeline info.operationName ≠ [] := by
    intro empty
    cases rejects.symm.trans (pipelineVerdict_of_nil empty)
  have evaluated : events.length = 1 := by simp [counted, evaluationCalls, composed]
  obtain ⟨event, rfl⟩ := List.length_eq_one_iff.mp evaluated
  refine ⟨event, evaluations event (List.mem_singleton.mpr rfl), ?_⟩
  unfold filterDecoded
  have noted : pipelineVerdict dynamic (noteRequest dynamic exchange info body) info body =
      pipelineVerdict dynamic exchange info body := rfl
  rw [run_andThen, ran, noted, rejects]
  unfold afterVerdict
  rw [run_bind]
  rfl

/-- A decoded request that goes upstream was accepted. -/
theorem accepted_of_forwarded
    (forwarded : (run environment (filterDecoded proxy dynamic exchange info body) world).1.result =
      .ok false) : (pipelineVerdict dynamic exchange info body).isReject = false := by
  cases composed : dynamic.interceptorManager.getRequestPipeline info.operationName with
  | nil =>
    rw [pipelineVerdict_of_nil composed]
    rfl
  | cons interceptor rest =>
    unfold filterDecoded runPipeline at forwarded
    simp only [composed, List.isEmpty_cons, Bool.false_eq_true, if_false, andThen_bind] at forwarded
    rw [run_bind] at forwarded
    have accepts := afterVerdict_forwards forwarded
    unfold pipelineVerdict
    rw [composed]
    exact accepts

end Decoded

/-! ## The session after the pipeline -/

/-- How a stage ends: with `post` when it ends the phase, with `handsOn` when it does not. -/
def Stage.Ends {α : Type} (post : Outcome → Prop) (handsOn : α → Prop) : Stage α → Prop
  | .done outcome => post outcome
  | .next value => handsOn value

theorem Stage.obeys_andThen {α τ : Type} {automaton : Automaton gatewaySignature τ}
    {post : Outcome → τ → Prop} (handsOn : α → τ → Prop) {stage : GatewayProg (Stage α)}
    {rest : α → GatewayProg Outcome} {phase : τ}
    (first : stage.Obeys automaton (fun ended phase => ended.Ends (post · phase) (handsOn · phase)) phase)
    (second : ∀ value phase, handsOn value phase → (rest value).Obeys automaton post phase) :
    (Stage.andThen stage rest).Obeys automaton post phase :=
  first.bind fun
    | .done _, _, ended => ended
    | .next value, phase, goesOn => second value phase goesOn

theorem Stage.returns_andThen {α : Type} {post : Outcome → Prop} (handsOn : α → Prop)
    {stage : GatewayProg (Stage α)} {rest : α → GatewayProg Outcome}
    (first : stage.Returns (Stage.Ends post handsOn))
    (second : ∀ value, handsOn value → (rest value).Returns post) :
    (Stage.andThen stage rest).Returns post :=
  Stage.obeys_andThen (fun value _ => handsOn value) first fun value _ => second value

/-- The outcome has the session of an exchange. -/
def KeepsSession (exchange : Exchange) (outcome : Outcome) : Prop :=
  outcome.exchange.session = exchange.session

theorem keepsSession_forward (proxy : CompositeServiceProxy) (exchange : Exchange)
    (info : RequestInfo) : (forward proxy exchange info).Returns (KeepsSession exchange) :=
  (forward_returns proxy exchange info).mono fun outcome _ same => by rw [same]; rfl

theorem keepsSession_routeRequest (proxy : CompositeServiceProxy) (dynamic : DynamicGatewayState)
    (exchange : Exchange) (info : RequestInfo) :
    (routeRequest proxy dynamic exchange info).Returns (KeepsSession exchange) := by
  unfold routeRequest
  cases StrategyRouter.matchRoute dynamic.routes info with
  | none => exact keepsSession_forward proxy exchange info
  | some route =>
    have refused : (refuseDisabled exchange info route).Returns (KeepsSession exchange) :=
      (refuseDisabled_returns exchange info route).mono fun outcome _ same => by rw [same]; rfl
    have edge : (StrategyRouter.handleModeBEdge proxy exchange route info).Returns
        fun after => after.session = exchange.session :=
      (handleModeBEdge_returns proxy exchange route info).mono fun after _ same => by rw [same]
    dsimp only
    split
    · exact refused
    · split
      · exact edge.bind fun after same => (Prog.returns_true _).bind fun _ _ => Prog.Returns.ret same
      · exact keepsSession_forward proxy (overrideRoute dynamic exchange route) info

theorem keepsSession_afterClaim (exchange : Exchange) (mode : String) (operationName : Option String)
    (result : Except PingoraError IdempotencyFilter.IdempotencyInterceptResult) :
    (afterClaim exchange mode operationName result).Returns
      (Stage.Ends (KeepsSession exchange) fun after => after.session = exchange.session) := by
  cases result with
  | error error => exact Prog.Returns.ret rfl
  | ok result =>
    cases result with
    | replay => exact (Prog.returns_true _).bind fun _ _ => Prog.Returns.ret rfl
    | conflict | newKey _ | none => exact Prog.Returns.ret rfl

theorem keepsSession_afterPipeline (proxy : CompositeServiceProxy) (dynamic : DynamicGatewayState)
    (info : RequestInfo) (request : Exchange × String) :
    (afterPipeline proxy dynamic info request).Returns (KeepsSession request.1) := by
  refine Stage.returns_andThen (fun after => after.session = request.1.session) ?_ ?_
  · rw [claimFingerprint_eq]
    split
    · exact (Prog.returns_true _).bind fun result _ => keepsSession_afterClaim ..
    · exact Prog.Returns.ret rfl
  · intro after same
    have routed := keepsSession_routeRequest proxy dynamic after info
    unfold KeepsSession at routed ⊢
    rw [same] at routed
    exact routed

section Forwarded

variable {environment : Environment} {world : World} {proxy : CompositeServiceProxy}
  {dynamic : DynamicGatewayState} {exchange : Exchange} {info : RequestInfo} {body : String}

theorem session_filterDecoded (environment : Environment) (world : World)
    (proxy : CompositeServiceProxy)
    (accepts : (pipelineVerdict dynamic exchange info body).isReject = false) :
    (run environment (filterDecoded proxy dynamic exchange info body) world).1.exchange.session =
      { exchange.session with
        reqHeader := headAfter exchange.session.reqHeader
          (pipelineVerdict dynamic exchange info body) } := by
  obtain ⟨events, -, -, ran⟩ := run_filterDecoded environment world proxy accepts
  have kept := (keepsSession_afterPipeline proxy dynamic info
    (accepted (noteRequest dynamic exchange info body) body
      (pipelineVerdict dynamic exchange info body))).interp (handle environment)
    ⟨world.engine, world.trace ++ events⟩
  unfold KeepsSession at kept
  rw [session_accepted] at kept
  rw [ran]
  exact kept

/-- The key of a request has no part in the verdict. -/
theorem InHand.pipelineVerdict {current : Exchange} (inHand : InHand exchange current)
    (dynamic : DynamicGatewayState) (buffer : Bytes) (info : RequestInfo) (body : String) :
    Gateway.pipelineVerdict dynamic (setBuffer current buffer) info body =
      Gateway.pipelineVerdict dynamic (stampRequest exchange) info body := by
  unfold Gateway.pipelineVerdict interceptorContext
  rw [show (setBuffer current buffer).session = _ from inHand.session,
    show (setBuffer current buffer).ctx.requestId = _ from inHand.requestId,
    show (setBuffer current buffer).ctx.hlc = _ from inHand.hlc]
  rfl

/-- From the body on: what is forwarded has been accepted, and its session differs from the
    request's by the headers of a transformation only. -/
theorem filterExamined_forwarded {current : Exchange} (inHand : InHand exchange current)
    (success : decoded proxy exchange = some (body, info))
    (forwarded : (run environment (filterExamined proxy dynamic current) world).1.result = .ok false) :
    (pipelineVerdict dynamic (stampRequest exchange) info body).isReject = false ∧
    (run environment (filterExamined proxy dynamic current) world).1.exchange.session =
      { exchange.session with
        reqHeader := headAfter (stampRequest exchange).session.reqHeader
          (pipelineVerdict dynamic (stampRequest exchange) info body) } := by
  obtain ⟨buffer, read, decodes⟩ := decoded_eq_some success
  have same := inHand.pipelineVerdict dynamic buffer info body
  rw [run_filterExamined_of_complete (inHand.bodyRead.trans read)] at forwarded ⊢
  unfold filterBody at forwarded ⊢
  rw [inHand.decodeBody, decodes] at forwarded ⊢
  have accepts := accepted_of_forwarded forwarded
  have session := session_filterDecoded environment world proxy accepts
  rw [same] at accepts session
  refine ⟨accepts, session.trans ?_⟩
  rw [show (setBuffer current buffer).session = _ from inHand.session]
  rfl

/-- A decoded request that goes upstream was accepted, and its session differs from the
    client's by the headers that the gateway adds and those of a transformation. -/
theorem session_of_forwarded {engine : Engine}
    (success : decoded proxy exchange = some (body, info))
    (forwarded : (filtered proxy dynamic environment engine exchange).1.result = .ok false) :
    (pipelineVerdict dynamic (stampRequest exchange) info body).isReject = false ∧
    (filtered proxy dynamic environment engine exchange).1.exchange.session =
      { exchange.session with
        reqHeader := headAfter (stampRequest exchange).session.reqHeader
          (pipelineVerdict dynamic (stampRequest exchange) info body) } := by
  unfold filtered at forwarded ⊢
  -- what the edge answers, and what another request holds the key of, is not forwarded
  cases edge : isEdge proxy exchange.session.reqHeader with
  | true =>
    obtain ⟨result, notForwarded, ended⟩ := run_answerAtEdge_of_edge environment ⟨engine, []⟩ edge
    unfold requestFilter at forwarded
    rw [run_andThen_of_done ended] at forwarded
    exact absurd forwarded notForwarded
  | false =>
    cases given : explicitKey exchange.session with
    | none =>
      rw [requestFilter_of_no_key edge given] at forwarded ⊢
      exact filterExamined_forwarded (inHand_stampRequest exchange) success forwarded
    | some key =>
      cases stored : engine key with
      | some found =>
        rw [run_requestFilter_of_taken edge given stored] at forwarded
        exact absurd forwarded (endOfTaken_result_ne found)
      | none =>
        rw [run_requestFilter_of_free edge given stored] at forwarded ⊢
        exact filterExamined_forwarded (inHand_setKey exchange (some key)) success forwarded

end Forwarded

/-! ## Identity headers -/

/-- The headers that tell the upstream who is calling. -/
def identityHeaders : List String := ["x-user-id", "x-tenant-id", "x-user-roles"]

/-- What claims say under an identity header. -/
def claimedValue (claims : AuthClaims) (name : String) : Option String :=
  if name = "x-user-id" then claims.subject
  else if name = "x-tenant-id" then claims.tenantId
  else if name = "x-user-roles" then RbacRequestInterceptor.rolesCsv claims
  else none

/-- The claims that an interceptor verifies for a request that comes to it through the
    interceptors `before`: none when one of these ends the pipeline, and none for an
    operation that needs no authentication. -/
def verifiedClaims (crates : JwtCrates) (rbac : RbacRequestInterceptor) (cache : TokenCache)
    (reading : ClockReading) (before : RequestInterceptorPipeline) (context : InterceptorContext)
    (parts : RequestParts) (body : String) : Option AuthClaims :=
  match before.interceptRequest context parts body with
  | (.reject _, _, _) => none
  | (.transform _ _, _, _) => none
  | (_, context, parts) =>
    if rbac.unauthenticatedOps.contains (context.operationName.getD "") then none
    else (rbac.resolveIdentity crates cache reading parts.headers).1.claims

/-- The values that a header must have for some claims: the claimed one, or none. -/
def expectedValues (claims : Option AuthClaims) (name : String) : List HeaderValue :=
  ((claims.bind fun claims => claimedValue claims name).map HeaderValue.ofString).toList

/-- The values that the client has sent under a name, unless a transformation names it. -/
def suppliedValues (headers : HeaderMap) (verdict : InterceptorVerdict) (name : String) :
    List HeaderValue :=
  match verdict with
  | .transform (some new) _ =>
    match new.get name with
    | some value => [.ofString ((HeaderValue.toStr value).getD "")]
    | none => headers.valuesOf name
  | _ => headers.valuesOf name

/-- The first values of a map have each name of the map once. -/
theorem filter_firstValues (headers : HeaderMap) (name : String) :
    ((firstValues headers).filter fun header => header.1 = name) =
      ((headers.get name).map fun value => (name, value)).toList := by
  induction headers with
  | nil => rfl
  | cons header rest inductionHypothesis =>
    obtain ⟨held, value⟩ := header
    unfold firstValues HeaderMap.get
    rw [List.lookup_cons, List.filter_cons, List.filter_filter]
    by_cases same : held = name
    · subst same
      simp
    · have other : (name == held) = false := by simpa using Ne.symm same
      have kept : ∀ header : String × HeaderValue,
          (decide (header.1 = name) && decide (header.1 ≠ held)) = decide (header.1 = name) := by
        intro header
        by_cases named : header.1 = name
        · simp [named, Ne.symm same]
        · simp [named]
      simp only [same, decide_false, Bool.false_eq_true, if_false, kept, other]
      exact inductionHypothesis

theorem valuesOf_headAfter (parts : RequestParts) (verdict : InterceptorVerdict) (name : String) :
    (headAfter parts verdict).headers.valuesOf name = suppliedValues parts.headers verdict name := by
  cases verdict with
  | pass | audit _ _ _ | reject _ => rfl
  | transform headers newBody =>
    cases headers with
    | none => rfl
    | some new =>
      have inserted : transformHeaders parts.headers (some new) =
          ((firstValues new).map fun header => (header.1, (HeaderValue.toStr header.2).getD "")).foldl
            (fun headers pair => headers.insertStr pair.1 pair.2) parts.headers := by
        rw [List.foldl_map]
        rfl
      have named : ((firstValues new).map fun header =>
          (header.1, (HeaderValue.toStr header.2).getD "")).filter (fun pair => pair.1 = name) =
          ((firstValues new).filter fun header => header.1 = name).map fun header =>
            (header.1, (HeaderValue.toStr header.2).getD "") :=
        List.filter_map
      unfold headAfter suppliedValues
      dsimp only
      rw [inserted, HeaderMap.valuesOf_foldl_insertStr, named, filter_firstValues]
      cases new.get name <;> rfl

/-- The headers that the gateway adds are no identity headers. -/
theorem suppliedValues_stampRequest (exchange : Exchange) (verdict : InterceptorVerdict)
    {name : String} (member : name ∈ identityHeaders) :
    suppliedValues (stampRequest exchange).session.reqHeader.headers verdict name =
      suppliedValues exchange.session.reqHeader.headers verdict name := by
  have notStamped : requestIdHeader ≠ name ∧ hlcHeader ≠ name ∧ "x-spectra-app" ≠ name := by
    revert name
    decide
  have kept : (stampRequest exchange).session.reqHeader.headers.valuesOf name =
      exchange.session.reqHeader.headers.valuesOf name := by
    unfold stampRequest
    dsimp only
    rw [HeaderMap.valuesOf_appendStr_of_ne notStamped.2.2,
      HeaderMap.valuesOf_appendStr_of_ne notStamped.2.1,
      HeaderMap.valuesOf_appendStr_of_ne notStamped.1]
  unfold suppliedValues
  rw [kept]

/-- The identity headers of a forwarded request say what was verified exactly when the
    client, or a transformation, has put just that into them. -/
theorem identity_headers_verified_iff (proxy : CompositeServiceProxy) (dynamic : DynamicGatewayState)
    (environment : Environment) (engine : Engine) (exchange : Exchange) (body : String)
    (info : RequestInfo) (crates : JwtCrates) (rbac : RbacRequestInterceptor) (cache : TokenCache)
    (reading : ClockReading) (before after : RequestInterceptorPipeline)
    (success : decoded proxy exchange = some (body, info))
    (_composed : dynamic.interceptorManager.getRequestPipeline info.operationName =
      before ++ rbac.asInterceptor crates cache reading :: after)
    (forwarded : (filtered proxy dynamic environment engine exchange).1.result = .ok false) :
    (∀ name ∈ identityHeaders,
      (filtered proxy dynamic environment engine exchange).1.exchange.session.reqHeader.headers.valuesOf
          name =
        expectedValues (verifiedClaims crates rbac cache reading before
          (interceptorContext exchange.ctx info) (stampRequest exchange).session.reqHeader body) name) ↔
    ∀ name ∈ identityHeaders,
      suppliedValues exchange.session.reqHeader.headers
          (pipelineVerdict dynamic (stampRequest exchange) info body) name =
        expectedValues (verifiedClaims crates rbac cache reading before
          (interceptorContext exchange.ctx info) (stampRequest exchange).session.reqHeader body)
          name := by
  obtain ⟨-, session⟩ := session_of_forwarded success forwarded
  refine forall₂_congr fun name member => ?_
  rw [session]
  dsimp only
  rw [valuesOf_headAfter, suppliedValues_stampRequest exchange _ member]

/-- The interceptor as it is without any configuration: mutations are audited. -/
def auditingRbac : RequestInterceptor :=
  RbacRequestInterceptor.new.asInterceptor noCrates coldCache ⟨0, 0⟩

def audited : DynamicGatewayState := smallDynamic [auditingRbac] []

/-- A caller without a token, and with headers of its own. -/
abbrev anonymous (headers : HeaderMap) : Exchange :=
  admitted smallProxy audited (smallArrival .post headers payBody)

def payInfo (headers : HeaderMap) : RequestInfo :=
  ((decoded smallProxy (anonymous headers)).map Prod.snd).getD
    (RequestInfo.new "" ⟨0, 0⟩ (anonymous headers).session.reqHeader)

theorem identity_headers_verified_iff_anonymous :
    (filtered smallProxy audited obliging (fun _ => none) (anonymous [])).1.result = .ok false ∧
    ∀ name ∈ identityHeaders,
      (filtered smallProxy audited obliging (fun _ => none)
        (anonymous [])).1.exchange.session.reqHeader.headers.valuesOf name =
        expectedValues (verifiedClaims noCrates RbacRequestInterceptor.new coldCache ⟨0, 0⟩ []
          (interceptorContext (anonymous []).ctx (payInfo []))
          (stampRequest (anonymous [])).session.reqHeader payBody) name := by
  refine ⟨rfl, (identity_headers_verified_iff smallProxy audited obliging (fun _ => none)
    (anonymous []) payBody (payInfo []) noCrates RbacRequestInterceptor.new coldCache ⟨0, 0⟩ [] []
    rfl rfl rfl).mpr ?_⟩
  decide +kernel

def spoofed : HeaderMap := [("x-user-id", .ofString "admin")]

/-- No token was verified, and the upstream is told that the caller is the administrator. -/
theorem spoofed_identity_forwarded :
    decoded smallProxy (anonymous spoofed) = some (payBody, payInfo spoofed) ∧
    audited.interceptorManager.getRequestPipeline (payInfo spoofed).operationName =
      [RbacRequestInterceptor.new.asInterceptor noCrates coldCache ⟨0, 0⟩] ∧
    (filtered smallProxy audited obliging (fun _ => none) (anonymous spoofed)).1.result = .ok false ∧
    (verifiedClaims noCrates RbacRequestInterceptor.new coldCache ⟨0, 0⟩ []
      (interceptorContext (anonymous spoofed).ctx (payInfo spoofed))
      (stampRequest (anonymous spoofed)).session.reqHeader payBody).isNone = true ∧
    (filtered smallProxy audited obliging (fun _ => none)
      (anonymous spoofed)).1.exchange.session.reqHeader.headers.valuesOf "x-user-id" =
        [.ofString "admin"] :=
  ⟨rfl, rfl, rfl, by decide +kernel, by decide +kernel⟩

/-! ## Transformed bodies -/

/-- What Pingora keeps of a body that it has read, to send it upstream. -/
structure Pingora where
  retryBuffer : List Bytes → List Bytes

/-- The bytes that go upstream for a body that the request filter has read.  Each chunk
    comes through `request_body_filter`, which changes none. -/
def bodyUpstream (pingora : Pingora) (session : Session) : Bytes :=
  (pingora.retryBuffer session.chunks).flatten

/-- The text and the decoded request that the stages after the pipeline are given. -/
def considered (body : String) (info : RequestInfo) (verdict : InterceptorVerdict) :
    String × RequestInfo :=
  match verdict with
  | .transform _ (some bytes) => ((fromUtf8 bytes).getD body, info)
  | _ => (body, info)

theorem afterPipeline_accepted (proxy : CompositeServiceProxy) (dynamic : DynamicGatewayState)
    (exchange : Exchange) (body : String) (info : RequestInfo) (verdict : InterceptorVerdict) :
    afterPipeline proxy dynamic info (accepted exchange body verdict) =
      afterPipeline proxy dynamic (considered body info verdict).2
        ((accepted exchange body verdict).1, (considered body info verdict).1) := by
  cases verdict with
  | transform headers newBody => cases newBody <;> rfl
  | pass | audit _ _ _ | reject _ => rfl

/-- A transformation of the body takes effect: upstream go its bytes, to the broker what
    they decode to, and these are what the fingerprint, the route and the audit go by. -/
structure TakesEffect (proxy : CompositeServiceProxy) (pingora : Pingora) (exchange : Exchange)
    (bytes : Bytes) (given : String × RequestInfo) (ended : Outcome × World) : Prop where
  upstream : ended.1.result = .ok false → bodyUpstream pingora ended.1.exchange.session = bytes
  published : ∀ request answer, ⟨.dispatchRequestInfo request, answer⟩ ∈ ended.2.trace →
    ∃ body info, decodeBody proxy (examined exchange bytes) = some (body, info) ∧
      request = proxy.sanitize info
  decisions : decodeBody proxy (examined exchange bytes) = some given

/-- The request comes to its pipeline, which replaces the body. -/
structure Transformed (proxy : CompositeServiceProxy) (dynamic : DynamicGatewayState)
    (engine : Engine) (arrival : Arrival) (exchange : Exchange) (body : String)
    (info : RequestInfo) (headers : Option HeaderMap) (bytes : Bytes) : Prop where
  routed : Routed proxy dynamic arrival exchange
  notUpgrade : isSubscriptionUpgrade proxy exchange.session.reqHeader = false
  keyFree : ∀ key, explicitKey exchange.session = some key → engine key = none
  decodes : decoded proxy exchange = some (body, info)
  verdict : pipelineVerdict dynamic (stampRequest exchange) info body = .transform headers (some bytes)

theorem readBody_eq_complete {readError : Option PingoraError} {buffer body : Bytes}
    {chunks : List Bytes} (read : readBody readError buffer chunks = .complete body) :
    body = buffer ++ chunks.flatten := by
  induction chunks generalizing buffer with
  | nil =>
    unfold readBody at read
    cases readError with
    | none =>
      cases read
      simp
    | some error => cases read
  | cons chunk rest inductionHypothesis =>
    unfold readBody at read
    split at read
    · cases read
    · rw [inductionHypothesis read]
      simp

theorem Routed.buffer {proxy : CompositeServiceProxy} {dynamic : DynamicGatewayState}
    {arrival : Arrival} {exchange : Exchange} (routed : Routed proxy dynamic arrival exchange) :
    exchange.ctx.buffer = [] := by
  have early := routed.1
  unfold earlyRequestFilter at early
  dsimp only at early
  split at early
  · cases early
    rfl
  · split at early
    · cases early
      show (resolveApp dynamic _ _).buffer = []
      unfold resolveApp
      dsimp only
      split
      · rfl
      · split <;> rfl
    · cases early

/-- A decoded body is all that the client has sent. -/
theorem Routed.chunks_of_decoded {proxy : CompositeServiceProxy} {dynamic : DynamicGatewayState}
    {arrival : Arrival} {exchange : Exchange} (routed : Routed proxy dynamic arrival exchange)
    {body : String} {info : RequestInfo} (success : decoded proxy exchange = some (body, info)) :
    exchange.session.chunks.flatten = asBytes body := by
  obtain ⟨buffer, read, decodes⟩ := decoded_eq_some success
  obtain ⟨nonempty, text, -⟩ := decodeBody_eq_some decodes
  have nonempty : buffer ≠ [] := nonempty
  have text : buffer = asBytes body := text
  unfold bodyRead at read
  rw [routed.buffer] at read
  split at read
  · rw [← text, readBody_eq_complete read]
    rfl
  · cases read
    exact absurd rfl nonempty

/-- A call that publishes nothing but `request`. -/
def PublishesOnly (request : RequestInfo) : GatewayCall → Prop
  | .dispatchRequestInfo other => other = request
  | _ => True

theorem OnlyAnswers.publishesOnly {α : Type} {program : GatewayProg α} (only : OnlyAnswers program)
    (request : RequestInfo) : Prog.Only (PublishesOnly request) program :=
  only.mono fun call isAnswer => by cases call <;> trivial

theorem publishesOnly_forward (proxy : CompositeServiceProxy) (exchange : Exchange)
    (info : RequestInfo) : Prog.Only (PublishesOnly (proxy.sanitize info)) (forward proxy exchange info) := by
  refine Prog.Only.bind ?_ fun _ => Prog.Only.ret _
  unfold StrategyRouter.handleModeADispatchPolicy
  cases exchange.ctx.dispatchPolicy with
  | rawAudit => exact Prog.Only.bind (Prog.Only.perform rfl) fun _ => Prog.Only.ret _
  | responseOnly | responseWithFailure | none => exact Prog.Only.ret _

theorem publishesOnly_handleModeBEdge (proxy : CompositeServiceProxy) (exchange : Exchange)
    (route : SpectraRouteConfig) (info : RequestInfo) :
    Prog.Only (PublishesOnly (proxy.sanitize info))
      (StrategyRouter.handleModeBEdge proxy exchange route info) := by
  refine Prog.Only.bind (Prog.Only.perform rfl) fun dispatchOk => ?_
  refine Prog.Only.bind ?_ fun _ =>
    Prog.Only.bind ((onlyAnswers_writeResponse ..).publishesOnly _) fun _ => Prog.Only.ret _
  unfold StrategyRouter.settleKey
  split
  · exact Prog.Only.ret _
  · split
    · exact Prog.Only.perform trivial
    · exact Prog.Only.perform trivial

theorem publishesOnly_afterPipeline (proxy : CompositeServiceProxy) (dynamic : DynamicGatewayState)
    (info : RequestInfo) (request : Exchange × String) :
    Prog.Only (PublishesOnly (proxy.sanitize info)) (afterPipeline proxy dynamic info request) := by
  have routes : ∀ exchange, Prog.Only (PublishesOnly (proxy.sanitize info))
      (routeRequest proxy dynamic exchange info) := by
    intro exchange
    unfold routeRequest
    cases StrategyRouter.matchRoute dynamic.routes info with
    | none => exact publishesOnly_forward proxy exchange info
    | some route =>
      dsimp only
      split
      · exact (onlyAnswers_refuseDisabled ..).publishesOnly _
      · split
        · exact Prog.Only.bind (publishesOnly_handleModeBEdge ..) fun _ =>
            Prog.Only.bind (Prog.Only.perform trivial) fun _ => Prog.Only.ret _
        · exact publishesOnly_forward proxy _ info
  -- what claims a fingerprint answers the client at most
  have claims : Prog.Only (PublishesOnly (proxy.sanitize info))
      (claimFingerprint proxy request.1 info request.2) := by
    rw [claimFingerprint_eq]
    split
    · exact Prog.Only.bind (Prog.Only.bind (Prog.Only.perform trivial) fun outcome =>
        (onlyAnswers_answerClaim ..).publishesOnly _) fun result =>
        (onlyAnswers_afterClaim ..).publishesOnly _
    · exact Prog.Only.ret _
  exact Prog.Only.bind claims fun
    | .done outcome => Prog.Only.ret _
    | .next exchange => routes exchange

section Transformed

variable {environment : Environment} {proxy : CompositeServiceProxy} {dynamic : DynamicGatewayState}
  {engine : Engine} {exchange : Exchange} {body : String} {info : RequestInfo}

/-- What a request has called before the stages after its pipeline. -/
def Preliminary : GatewayCall → Prop
  | .checkOrInsert _ _ => True
  | .interceptRequest _ _ _ _ => True
  | _ => False

/-- A request that comes to its pipeline and is accepted goes on with the stages after it. -/
theorem run_filterExamined_of_accepted {current : Exchange} {world : World}
    (environment : Environment) (inHand : InHand exchange current)
    (earlier : ∀ event ∈ world.trace, Preliminary event.call)
    (success : decoded proxy exchange = some (body, info))
    (accepts : (pipelineVerdict dynamic (stampRequest exchange) info body).isReject = false) :
    ∃ passed after,
      passed.session = { exchange.session with
        reqHeader := headAfter (stampRequest exchange).session.reqHeader
          (pipelineVerdict dynamic (stampRequest exchange) info body) } ∧
      (∀ event ∈ after.trace, Preliminary event.call) ∧
      run environment (filterExamined proxy dynamic current) world =
        run environment (afterPipeline proxy dynamic
          (considered body info (pipelineVerdict dynamic (stampRequest exchange) info body)).2
          (passed,
            (considered body info (pipelineVerdict dynamic (stampRequest exchange) info body)).1))
          after := by
  obtain ⟨buffer, read, decodes⟩ := decoded_eq_some success
  have same := inHand.pipelineVerdict dynamic buffer info body
  rw [run_filterExamined_of_complete (inHand.bodyRead.trans read)]
  unfold filterBody
  rw [inHand.decodeBody, decodes]
  -- the interceptors are all that runs on the way
  obtain ⟨events, evaluations, -, ran⟩ :=
    run_filterDecoded environment world proxy (same ▸ accepts : (pipelineVerdict dynamic
      (setBuffer current buffer) info body).isReject = false)
  rw [same, afterPipeline_accepted] at ran
  refine ⟨_, ⟨world.engine, world.trace ++ events⟩, ?_, ?_, ran⟩
  · rw [session_accepted, show (noteRequest dynamic (setBuffer current buffer) info body).session = _
      from inHand.session]
    rfl
  intro event member
  rcases List.mem_append.mp member with before | evaluation
  · exact earlier event before
  · obtain ⟨pipeline, context, parts, text, call⟩ := evaluations event evaluation
    rw [call]
    trivial

theorem filtered_of_accepted (environment : Environment)
    (notEdge : isEdge proxy exchange.session.reqHeader = false)
    (keyFree : ∀ key, explicitKey exchange.session = some key → engine key = none)
    (success : decoded proxy exchange = some (body, info))
    (accepts : (pipelineVerdict dynamic (stampRequest exchange) info body).isReject = false) :
    ∃ passed after,
      passed.session = { exchange.session with
        reqHeader := headAfter (stampRequest exchange).session.reqHeader
          (pipelineVerdict dynamic (stampRequest exchange) info body) } ∧
      (∀ event ∈ after.trace, Preliminary event.call) ∧
      filtered proxy dynamic environment engine exchange =
        run environment (afterPipeline proxy dynamic
          (considered body info (pipelineVerdict dynamic (stampRequest exchange) info body)).2
          (passed,
            (considered body info (pipelineVerdict dynamic (stampRequest exchange) info body)).1))
          after := by
  unfold filtered
  cases given : explicitKey exchange.session with
  | none =>
    rw [requestFilter_of_no_key notEdge given]
    exact run_filterExamined_of_accepted environment (inHand_stampRequest exchange) (by simp) success
      accepts
  | some key =>
    rw [run_requestFilter_of_free notEdge given (keyFree key given)]
    refine run_filterExamined_of_accepted environment (inHand_setKey exchange (some key)) ?_ success
      accepts
    simp [World.lock, Preliminary]

/-- A request that is no GraphQL operation has neither a fingerprint nor a route. -/
theorem afterPipeline_of_no_gql {request : Exchange × String} {world : World}
    (noOperation : info.gql = none) :
    (run environment (afterPipeline proxy dynamic info request) world).1.result = .ok false := by
  have notClaimed : needsFingerprint request.1 info = false := by simp [needsFingerprint, noOperation]
  have notRouted : StrategyRouter.matchRoute dynamic.routes info = none := by
    simp [StrategyRouter.matchRoute, noOperation]
  unfold afterPipeline routeRequest
  rw [claimFingerprint_eq, notClaimed, notRouted]
  show (run environment (forward proxy request.1 info) world).1.result = .ok false
  unfold forward
  rw [run_bind]
  rfl

end Transformed

/-- An interceptor that sends a body of its own. -/
def replaceBody (text : String) : RequestInterceptor := fun context parts _ =>
  (.transform none (some (asBytes text)), context, parts)

def replacing (text : String) : DynamicGatewayState := smallDynamic [replaceBody text] []

/-- Pingora with room for every body. -/
def roomyPingora : Pingora := ⟨id⟩

abbrev payment (text : String) : Exchange :=
  admitted smallProxy (replacing text) (smallArrival .post [] payBody)

end SpectraGQL.Gateway
