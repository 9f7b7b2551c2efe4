import SpectraGQL.Gateway.Forwarding
import SpectraGQL.Interceptors.Composition

/-! # Audits that reach the context

An interceptor that flags a message answers with an audit.  The pipelines keep the last audit next to
the transformations, but a pipeline has one verdict, and what the phases of the proxy note is the
verdict: `audits_noted_iff` says when an audit that was raised gets into the context.
-/

namespace SpectraGQL.Gateway

open Interaction SpectraGQL.Core SpectraGQL.Http SpectraGQL.Protocol SpectraGQL.Interceptors
open InterceptorVerdict

/-- If an audit is among the verdicts, the context holds the rule and the tag of one of them. -/
def AuditNoted (verdicts : List InterceptorVerdict) (ctx : ProxyCtx) : Prop :=
  (∃ ruleName tag reason, .audit ruleName tag reason ∈ verdicts) →
    ∃ ruleName tag reason, .audit ruleName tag reason ∈ verdicts ∧
      ctx.auditRule = some ruleName ∧ ctx.auditTag = tag

/-- A transformation is among the verdicts. -/
def Transforms (verdicts : List InterceptorVerdict) : Prop :=
  ∃ headers body, .transform headers body ∈ verdicts

/-- A transformation that brings headers or a body is among the verdicts. -/
def Replaces (verdicts : List InterceptorVerdict) : Prop :=
  ∃ headers body, .transform headers body ∈ verdicts ∧ (headers.isSome = true ∨ body.isSome = true)

section Verdicts

variable {verdicts : List InterceptorVerdict} {verdict : InterceptorVerdict} {ctx after : ProxyCtx}

theorem audit_of_audit? {found : InterceptorVerdict} (isAudit : audit? verdict = some found) :
    ∃ ruleName tag reason, verdict = .audit ruleName tag reason ∧ found = .audit ruleName tag reason := by
  cases verdict with
  | audit ruleName tag reason =>
    cases isAudit
    exact ⟨ruleName, tag, reason, rfl, rfl⟩
  | pass | reject _ | transform _ _ => cases isAudit

/-- The context holds the audit that the pipeline has kept. -/
theorem auditNoted_of_last (noted : ∀ ruleName tag reason,
    last? audit? verdicts = some (.audit ruleName tag reason) → after.auditRule = some ruleName ∧ after.auditTag = tag) :
    AuditNoted verdicts after := by
  rintro ⟨ruleName, tag, reason, member⟩
  cases isLast : last? audit? verdicts with
  | none => cases last?_eq_none.mp isLast _ member
  | some found =>
    obtain ⟨verdict, member, isAudit⟩ := last?_eq_some isLast
    obtain ⟨ruleName, tag, reason, rfl, rfl⟩ := audit_of_audit? isAudit
    exact ⟨ruleName, tag, reason, member, noted ruleName tag reason isLast⟩

theorem auditNoted_congr (rule : after.auditRule = ctx.auditRule) (tag : after.auditTag = ctx.auditTag) :
    AuditNoted verdicts after ↔ AuditNoted verdicts ctx := by
  simp only [AuditNoted, rule, tag]

/-- A request pipeline that rejects nothing transforms with the first transformation, and
    otherwise has the last audit as its verdict. -/
theorem concludedRequest_cases (accepts : (concludedRequest verdicts).isReject = false) :
    (Transforms verdicts ∧ ∃ headers body, concludedRequest verdicts = .transform headers body) ∨
      (¬ Transforms verdicts ∧ concludedRequest verdicts = (last? audit? verdicts).getD .pass) := by
  cases ends : verdicts.findSome? ending? with
  | none =>
    refine .inr ⟨?_, by simp [concludedRequest, ends]⟩
    rintro ⟨headers, body, member⟩
    cases List.findSome?_eq_none_iff.mp ends _ member
  | some ended =>
    obtain ⟨verdict, member, isEnding⟩ := List.exists_of_findSome?_eq_some ends
    have isVerdict : concludedRequest verdicts = ended := by simp [concludedRequest, ends]
    cases verdict with
    | pass | audit _ _ _ => cases isEnding
    | reject rejection =>
      cases isEnding
      rw [isVerdict] at accepts
      cases accepts
    | transform headers body =>
      cases isEnding
      exact .inl ⟨⟨headers, body, member⟩, headers, body, isVerdict⟩

/-- So does a response pipeline, where transformations without headers and body do not count. -/
theorem conclude_cases (accepts : (conclude verdicts).isReject = false) :
    (Replaces verdicts ∧ ∃ headers body, conclude verdicts = .transform headers body) ∨
      (¬ Replaces verdicts ∧ conclude verdicts = (last? audit? verdicts).getD .pass) := by
  cases rejects : verdicts.findSome? rejection? with
  | some rejection =>
    simp only [conclude, rejects] at accepts
    cases accepts
  | none =>
    have replaces : Replaces verdicts ↔
        ((last? body? verdicts).isSome || (last? headers? verdicts).isSome) = true := by
      rw [Bool.or_eq_true, ← Option.ne_none_iff_isSome, ← Option.ne_none_iff_isSome, ne_eq, ne_eq,
        last?_eq_none, last?_eq_none]
      constructor
      · rintro ⟨headers, body, member, isSome⟩
        cases isSome with
        | inl isSome =>
          refine .inr fun noHeaders => ?_
          rw [show headers = none from noHeaders _ member] at isSome
          cases isSome
        | inr isSome =>
          refine .inl fun noBody => ?_
          rw [show body = none from noBody _ member] at isSome
          cases isSome
      · intro isSome
        by_contra not
        -- no verdict brings anything new, so nothing is found of either kind
        have bodies : ∀ verdict ∈ verdicts, body? verdict = none := by
          intro verdict member
          cases verdict with
          | transform headers body =>
            cases body with
            | none => rfl
            | some bytes => exact absurd ⟨headers, some bytes, member, .inr rfl⟩ not
          | pass | reject _ | audit _ _ _ => rfl
        have heads : ∀ verdict ∈ verdicts, headers? verdict = none := by
          intro verdict member
          cases verdict with
          | transform headers body =>
            cases headers with
            | none => rfl
            | some new => exact absurd ⟨some new, body, member, .inl rfl⟩ not
          | pass | reject _ | audit _ _ _ => rfl
        cases isSome with
        | inl isSome => exact isSome bodies
        | inr isSome => exact isSome heads
    cases isReplaced : (last? body? verdicts).isSome || (last? headers? verdicts).isSome with
    | true =>
      refine .inl ⟨replaces.mpr isReplaced, last? headers? verdicts, last? body? verdicts, ?_⟩
      simp only [conclude, rejects, isReplaced, if_true]
    | false =>
      refine .inr ⟨fun isSome => ?_, by simp [conclude, rejects, isReplaced]⟩
      rw [replaces.mp isSome] at isReplaced
      cases isReplaced

end Verdicts

/-! ## What the phases keep -/

/-- The audit fields of two contexts are the same. -/
def SameAudit (ctx after : ProxyCtx) : Prop := after.auditRule = ctx.auditRule ∧ after.auditTag = ctx.auditTag

theorem SameAudit.refl (ctx : ProxyCtx) : SameAudit ctx ctx := ⟨rfl, rfl⟩

/-- A stage, or the phase that it ends, keeps the audit of a context. -/
def Stage.KeepsAudit (ctx : ProxyCtx) : Stage Exchange → Prop
  | .done outcome => SameAudit ctx outcome.exchange.ctx
  | .next exchange => SameAudit ctx exchange.ctx

section Phases

variable {environment : Environment} {world : World} {proxy : CompositeServiceProxy}
  {dynamic : DynamicGatewayState} {exchange : Exchange} {info : RequestInfo} {body : String}

theorem returns_afterClaim (mode : String) (operationName : Option String)
    (claimed : Except PingoraError IdempotencyFilter.IdempotencyInterceptResult) :
    (afterClaim exchange mode operationName claimed).Returns (Stage.KeepsAudit exchange.ctx) := by
  cases claimed with
  | error error => exact .refl _
  | ok result =>
    cases result with
    | conflict | newKey _ | none => exact .refl _
    | replay => exact ⟨trivial, fun _ _ => .refl _⟩

theorem returns_claimFingerprint :
    (claimFingerprint proxy exchange info body).Returns (Stage.KeepsAudit exchange.ctx) := by
  rw [claimFingerprint]
  split
  · exact Prog.Returns.bind (Prog.returns_true _) fun claimed _ => returns_afterClaim _ _ claimed
  · exact .refl _

theorem returns_forward (exchange : Exchange) :
    (forward proxy exchange info).Returns fun outcome => SameAudit exchange.ctx outcome.exchange.ctx := by
  refine (forward_returns proxy exchange info).mono fun outcome _ same => ?_
  rw [same]
  exact .refl _

theorem returns_handleModeBEdge (route : SpectraRouteConfig) :
    (StrategyRouter.handleModeBEdge proxy exchange route info).Returns fun after =>
      SameAudit exchange.ctx after.ctx := by
  refine (handleModeBEdge_returns proxy exchange route info).mono fun after _ same => ?_
  rw [same]
  exact .refl _

theorem returns_refuseDisabled (route : SpectraRouteConfig) :
    (refuseDisabled exchange info route).Returns fun outcome => SameAudit exchange.ctx outcome.exchange.ctx := by
  refine (refuseDisabled_returns exchange info route).mono fun outcome _ same => ?_
  rw [same]
  exact .refl _

theorem returns_routeRequest :
    (routeRequest proxy dynamic exchange info).Returns fun outcome =>
      SameAudit exchange.ctx outcome.exchange.ctx := by
  rw [routeRequest]
  split
  · exact returns_forward exchange
  · rename_i route _
    split
    · exact returns_refuseDisabled route
    · split
      · exact Prog.Returns.bind (returns_handleModeBEdge route) fun _ same =>
          Prog.Returns.bind (Prog.returns_true _) fun _ _ => same
      · -- the override of a route leaves the audit fields alone
        exact returns_forward (overrideRoute dynamic exchange route)

theorem returns_afterPipeline (request : Exchange × String) :
    (afterPipeline proxy dynamic info request).Returns fun outcome =>
      SameAudit request.1.ctx outcome.exchange.ctx := by
  refine Prog.Returns.bind returns_claimFingerprint fun stage keeps => ?_
  cases stage with
  | done outcome => exact keeps
  | next exchange =>
    refine Prog.Obeys.mono returns_routeRequest fun outcome _ same => ?_
    exact ⟨same.1.trans keeps.1, same.2.trans keeps.2⟩

end Phases

/-! ## Audits that are noted -/

/-- What the interceptors say of a decoded request. -/
def requestVerdicts (dynamic : DynamicGatewayState) (exchange : Exchange) (info : RequestInfo)
    (body : String) : List InterceptorVerdict :=
  RequestInterceptorPipeline.verdictsAlong body
    (dynamic.interceptorManager.getRequestPipeline info.operationName)
    (interceptorContext exchange.ctx info) exchange.session.reqHeader

/-- What the interceptors say of a response whose body is in the buffer. -/
def responseVerdicts (dynamic : DynamicGatewayState) (ctx : ProxyCtx) (elapsedMs : Nat) :
    List InterceptorVerdict :=
  (ResponseInterceptorPipeline.runAlong
    { requestId := ctx.requestId, hlc := ctx.hlc, operationName := ctx.activeOperation
      durationMs := elapsedMs }
    (dynamic.interceptorManager.getResponsePipeline ctx.activeOperation)
    (ctx.responseParts.getD (.build .ok)) ctx.buffer).verdicts

theorem pipelineVerdict_eq (dynamic : DynamicGatewayState) (exchange : Exchange) (info : RequestInfo)
    (body : String) :
    pipelineVerdict dynamic exchange info body = concludedRequest (requestVerdicts dynamic exchange info body) :=
  RequestInterceptorPipeline.interceptRequest_eq ..

theorem responseVerdict_eq (dynamic : DynamicGatewayState) (ctx : ProxyCtx) (elapsedMs : Nat) :
    responseVerdict dynamic ctx elapsedMs = conclude (responseVerdicts dynamic ctx elapsedMs) :=
  congrArg Prod.fst (ResponseInterceptorPipeline.interceptResponse_eq _)

/-- The context after the last call for a response. -/
def withChunk (ctx : ProxyCtx) (chunk : Option Bytes) : ProxyCtx :=
  { ctx with buffer := ctx.buffer ++ chunk.getD [] }

theorem request_audit_noted_iff (environment : Environment) (world : World) (proxy : CompositeServiceProxy)
    (dynamic : DynamicGatewayState) (exchange : Exchange) (info : RequestInfo) (body : String)
    (accepts : (pipelineVerdict dynamic exchange info body).isReject = false) :
    AuditNoted (requestVerdicts dynamic exchange info body)
        (run environment (filterDecoded proxy dynamic exchange info body) world).1.exchange.ctx ↔
      ¬ Transforms (requestVerdicts dynamic exchange info body) ∨
        AuditNoted (requestVerdicts dynamic exchange info body) exchange.ctx := by
  obtain ⟨events, -, -, ran⟩ := run_filterDecoded environment world proxy accepts
  have kept : SameAudit (accepted (noteRequest dynamic exchange info body) body
      (pipelineVerdict dynamic exchange info body)).1.ctx
      (run environment (filterDecoded proxy dynamic exchange info body) world).1.exchange.ctx := by
    rw [ran]
    exact Prog.Returns.interp (returns_afterPipeline _) _ _
  rw [auditNoted_congr kept.1 kept.2]
  rw [pipelineVerdict_eq] at accepts ⊢
  cases concludedRequest_cases accepts with
  | inl transformed =>
    -- the transformation is the verdict, and a transformation leaves no audit
    obtain ⟨transforms, headers, newBody, isVerdict⟩ := transformed
    have same : SameAudit exchange.ctx (accepted (noteRequest dynamic exchange info body) body
        (.transform headers newBody)).1.ctx := by
      cases newBody <;> exact .refl _
    rw [isVerdict, auditNoted_congr same.1 same.2]
    simp [transforms]
  | inr kept =>
    obtain ⟨transformsNot, isVerdict⟩ := kept
    refine iff_of_true (auditNoted_of_last fun ruleName tag reason isLast => ?_) (.inl transformsNot)
    rw [isVerdict, isLast]
    exact ⟨rfl, rfl⟩

theorem response_audit_noted_iff (proxy : CompositeServiceProxy) (dynamic : DynamicGatewayState)
    (ctx : ProxyCtx) (elapsedMs : Nat) (chunk : Option Bytes) (intercepts : ctx.hasResponseInterception = true)
    (accepts : (responseVerdict dynamic (withChunk ctx chunk) elapsedMs).isReject = false) :
    AuditNoted (responseVerdicts dynamic (withChunk ctx chunk) elapsedMs)
        (responseBodyFilter proxy dynamic ctx elapsedMs chunk true).1 ↔
      ¬ Replaces (responseVerdicts dynamic (withChunk ctx chunk) elapsedMs) ∨
        AuditNoted (responseVerdicts dynamic (withChunk ctx chunk) elapsedMs) ctx := by
  have ended : (responseBodyFilter proxy dynamic ctx elapsedMs chunk true).1 =
      noteResponseBody proxy (noteVerdict proxy (withChunk ctx chunk)
        (responseVerdict dynamic (withChunk ctx chunk) elapsedMs))
        (finalBytes (withChunk ctx chunk).buffer (responseVerdict dynamic (withChunk ctx chunk) elapsedMs)) := by
    rw [responseBodyFilter, if_pos intercepts]
    rfl
  rw [ended]
  rw [responseVerdict_eq] at accepts ⊢
  -- the verdict is a transformation whenever some interceptor replaces, else the last one
  generalize responseVerdicts dynamic (withChunk ctx chunk) elapsedMs = verdicts at accepts ⊢
  cases conclude_cases accepts with
  | inl transformed =>
    obtain ⟨replaces, headers, newBody, isVerdict⟩ := transformed
    have same : SameAudit ctx (noteResponseBody proxy
        (noteVerdict proxy (withChunk ctx chunk) (.transform headers newBody))
        (finalBytes (withChunk ctx chunk).buffer (.transform headers newBody))) := ⟨rfl, rfl⟩
    rw [isVerdict, auditNoted_congr same.1 same.2]
    simp [replaces]
  | inr kept =>
    obtain ⟨replacesNot, isVerdict⟩ := kept
    refine iff_of_true (auditNoted_of_last fun ruleName tag reason isLast => ?_) (.inl replacesNot)
    rw [isVerdict, isLast]
    exact ⟨rfl, rfl⟩

/-- An audit of a message that no interceptor rejects gets into the context exactly when no
    transformation goes with it, or the context held such an audit before. -/
theorem audits_noted_iff (proxy : CompositeServiceProxy) (dynamic : DynamicGatewayState) :
    (∀ (environment : Environment) (world : World) (exchange : Exchange) (info : RequestInfo)
      (body : String),
      (pipelineVerdict dynamic exchange info body).isReject = false →
      (AuditNoted (requestVerdicts dynamic exchange info body)
          (run environment (filterDecoded proxy dynamic exchange info body) world).1.exchange.ctx ↔
        ¬ Transforms (requestVerdicts dynamic exchange info body) ∨
          AuditNoted (requestVerdicts dynamic exchange info body) exchange.ctx)) ∧
    ∀ (ctx : ProxyCtx) (elapsedMs : Nat) (chunk : Option Bytes), ctx.hasResponseInterception = true →
      (responseVerdict dynamic (withChunk ctx chunk) elapsedMs).isReject = false →
      (AuditNoted (responseVerdicts dynamic (withChunk ctx chunk) elapsedMs)
          (responseBodyFilter proxy dynamic ctx elapsedMs chunk true).1 ↔
        ¬ Replaces (responseVerdicts dynamic (withChunk ctx chunk) elapsedMs) ∨
          AuditNoted (responseVerdicts dynamic (withChunk ctx chunk) elapsedMs) ctx) :=
  ⟨fun environment world => request_audit_noted_iff environment world proxy dynamic,
    response_audit_noted_iff proxy dynamic⟩

/-- Flags every message. -/
def flagAll (ruleName : String) : RequestInterceptor := fun context parts _ =>
  (.audit ruleName (some "pii") "flagged", context, parts)

/-- Flags every mutation without a token, then looks at what the body is. -/
def flagging (pipeline : RequestInterceptorPipeline) : DynamicGatewayState :=
  smallDynamic (flagAll "anonymous" :: pipeline) []

abbrev flagged (pipeline : RequestInterceptorPipeline) : Exchange :=
  admitted smallProxy (flagging pipeline) (smallArrival .post [] payBody)

theorem audits_noted_iff_request :
    (run obliging (filterDecoded smallProxy (flagging [passAll]) (flagged [passAll]) (payInfo []) payBody)
      ⟨fun _ => none, []⟩).1.exchange.ctx.auditRule = some "anonymous" ∧
    AuditNoted (requestVerdicts (flagging [passAll]) (flagged [passAll]) (payInfo []) payBody)
      (run obliging (filterDecoded smallProxy (flagging [passAll]) (flagged [passAll]) (payInfo []) payBody)
        ⟨fun _ => none, []⟩).1.exchange.ctx := by
  refine ⟨rfl, ((audits_noted_iff smallProxy (flagging [passAll])).1 obliging ⟨fun _ => none, []⟩
    (flagged [passAll]) (payInfo []) payBody rfl).mpr (.inl ?_)⟩
  rintro ⟨headers, body, member⟩
  simp [requestVerdicts, flagging, smallDynamic, InterceptorManager.getRequestPipeline,
    InterceptorManager.compose, payInfo, RequestInterceptorPipeline.verdictsAlong, flagAll, passAll] at member

/-- The audit of a request whose body is replaced afterwards is lost. -/
theorem transformation_hides_audit :
    (pipelineVerdict (flagging [replaceBody payBody]) (flagged [replaceBody payBody]) (payInfo [])
      payBody).isReject = false ∧
    ¬ AuditNoted
      (requestVerdicts (flagging [replaceBody payBody]) (flagged [replaceBody payBody]) (payInfo []) payBody)
      (run obliging (filterDecoded smallProxy (flagging [replaceBody payBody]) (flagged [replaceBody payBody])
        (payInfo []) payBody) ⟨fun _ => none, []⟩).1.exchange.ctx := by
  refine ⟨rfl, fun noted => ?_⟩
  obtain ⟨_, _, _, _, rule, _⟩ := noted ⟨"anonymous", some "pii", "flagged", List.mem_cons_self⟩
  cases rule

end SpectraGQL.Gateway
