import SpectraGQL.Gateway.Course

/-! # Who is told what of a request

A notice is a message without its content.  `notices_serve` gives the notices of a request from
its course and from what forwarding it has come to.  Three promises about them are settled
here: that a refused request leaves nothing on the topics of its operation, that a
forwarded one is reported as its dispatch policy says, and that operations which are not to be
dispatched are not.
-/

namespace SpectraGQL.Gateway

open Interaction SpectraGQL.Core SpectraGQL.Http SpectraGQL.Protocol SpectraGQL.Interceptors
open SpectraGQL.Telemetry SpectraGQL.Idempotency

/-! ## Notices -/

inductive Notice where
  | request (topic : String)
  | terminal (topic : String) (outcome : OperationOutcome)
  | payload (topic : String)
  deriving DecidableEq, Repr

def Notice.topic : Notice → String
  | request topic => topic
  | terminal topic _ => topic
  | payload topic => topic

def Publication.notice : Publication → Notice
  | request info => .request (TopicResolver.resolveDispatchTopic info)
  | terminal topic event => .terminal topic event.status
  | payload topic _ => .payload topic

def noticesOf (proxy : CompositeServiceProxy) (dynamic : DynamicGatewayState)
    (environment : Environment) (engine : Engine) (arrival : Arrival) : List Notice :=
  (publications (run environment (serve proxy dynamic arrival) ⟨engine, []⟩).2.trace).map
    Publication.notice

/-- What forwarding a request has come to. -/
inductive UpstreamOutcome where
  | connectionError
  | responded (status : StatusCode)
  deriving DecidableEq, Repr

def upstreamOutcome (error : Option PingoraError) (upstream : Upstream) : UpstreamOutcome :=
  match error, upstream with
  | none, .response head _ _ => .responded head.status
  | none, .unreachable _ => .connectionError
  | some _, _ => .connectionError

def Arrival.upstreamOutcome (proxy : CompositeServiceProxy) (dynamic : DynamicGatewayState)
    (environment : Environment) (engine : Engine) (arrival : Arrival) : UpstreamOutcome :=
  Gateway.upstreamOutcome (arrival.concluded proxy dynamic environment engine).1 arrival.upstream

/-- Every policy but the quiet ones reports a failure. -/
def failedNotices (policy : ModeADispatchPolicy) (topic : String) : List Notice :=
  if isQuiet policy then [] else [.terminal (TopicResolver.failedTopic topic) .failed]

def reportedNotices (policy : ModeADispatchPolicy) (topic : String) : UpstreamOutcome → List Notice
  | .connectionError => failedNotices policy topic
  | .responded status =>
    if status.isError then failedNotices policy topic
    else if policy = .none then [] else [.terminal topic .success]

def ingressNotices (proxy : CompositeServiceProxy) (policy : ModeADispatchPolicy)
    (info : RequestInfo) : List Notice :=
  (ingressPublications proxy policy info).map Publication.notice

def auditTopic (info : RequestInfo) : String :=
  TopicResolver.rejectionTopic (toLowercase (info.operationName.getD "anonymous"))

/-- The decoded request, for a course that has got so far. -/
def Course.info : Course → Option RequestInfo
  | unrouted => none
  | edge => none
  | keyTaken _ => none
  | unread => none
  | undecoded => none
  | rejected info _ => some info
  | fingerprintTaken info _ => some info
  | disabled info _ => some info
  | command info _ => some info
  | forwarded info _ => some info

/-- The notices on a course; `audited` says whether the client takes a rejection. -/
def Course.notices (proxy : CompositeServiceProxy) (dynamic : DynamicGatewayState)
    (exchange : Exchange) (audited : Bool) (outcome : UpstreamOutcome) : Course → List Notice
  | unrouted => []
  | edge => []
  | keyTaken _ => []
  | unread => []
  | undecoded => []
  | rejected info _ =>
    (if audited then [.payload (auditTopic info)] else []) ++
      failedNotices dynamic.dispatchPolicy (operationTopic dynamic exchange info)
  | fingerprintTaken info found =>
    if isReplayable found then []
    else failedNotices dynamic.dispatchPolicy (operationTopic dynamic exchange info)
  | disabled info _ => failedNotices dynamic.dispatchPolicy (operationTopic dynamic exchange info)
  | command info _ => [.request (TopicResolver.resolveDispatchTopic (proxy.sanitize info))]
  | forwarded info policy =>
    ingressNotices proxy policy info ++
      reportedNotices policy (operationTopic dynamic exchange info) outcome

section Notices

variable {proxy : CompositeServiceProxy} {dynamic : DynamicGatewayState} {environment : Environment}
  {exchange after : Exchange} {info : RequestInfo} {body : String} {policy : ModeADispatchPolicy}

theorem notices_failurePublications (ctx : ProxyCtx) (topic : String) (info : RequestInfo)
    (response : Option ResponseInfo) (error : String) :
    (failurePublications proxy ctx topic info response error).map Publication.notice =
      failedNotices ctx.dispatchPolicy topic := by
  unfold failurePublications failedNotices
  cases isQuiet ctx.dispatchPolicy <;> rfl

/-- A request that has got no response is reported as failed. -/
theorem notices_of_refused (noted : Noted dynamic exchange info body policy after)
    (error : Option PingoraError) :
    (loggedPublications proxy after error).map Publication.notice =
      failedNotices policy (operationTopic dynamic exchange info) := by
  rw [noted.toKnown.loggedPublications, ← noted.isPolicy]
  unfold concludedPublications
  cases error with
  | some error => exact notices_failurePublications ..
  | none =>
    dsimp only
    rw [noted.noParts]
    exact notices_failurePublications ..

theorem responseFilter_parts (dynamic : DynamicGatewayState) (ctx : ProxyCtx) (head : ResponseHeader) :
    ∃ parts, (responseFilter dynamic ctx head).1.responseParts = some parts ∧
      parts.status = head.status := by
  unfold responseFilter
  dsimp only
  split <;> exact ⟨_, rfl, rfl⟩

/-- A response that came to its end is there to be reported. -/
theorem responded_of_ended (plain : exchange.ctx.hasResponseInterception = false)
    (noBody : exchange.ctx.responseBody = none) {upstream : Upstream} {elapsedMs : Nat} {world : World}
    (ended : (run environment (proxyUpstream proxy dynamic exchange upstream elapsedMs) world).1.1 = none) :
    ∃ head chunks broken parts, upstream = .response head chunks broken ∧
      (run environment (proxyUpstream proxy dynamic exchange upstream elapsedMs) world).1.2.ctx.responseParts =
        some parts ∧ parts.status = head.status := by
  cases upstream with
  | unreachable error =>
    unfold proxyUpstream at ended
    cases peer : upstreamPeer dynamic exchange.ctx with
    | error error =>
      rw [peer] at ended
      cases ended
    | ok addr =>
      rw [peer] at ended
      cases ended
  | response head chunks broken =>
    obtain ⟨-, kept⟩ := forwarded_of_ended proxy dynamic environment elapsedMs plain noBody ended
    obtain ⟨parts, isParts, sameStatus⟩ := responseFilter_parts dynamic exchange.ctx head
    exact ⟨head, chunks, broken, parts, rfl, kept.parts.trans isParts, sameStatus⟩

theorem notices_of_forwarded (noted : Noted dynamic exchange info body policy after)
    (upstream : Upstream) (elapsedMs : Nat) (world : World) :
    (loggedPublications proxy
      (run environment (proxyUpstream proxy dynamic after upstream elapsedMs) world).1.2
      (run environment (proxyUpstream proxy dynamic after upstream elapsedMs) world).1.1).map
        Publication.notice =
      reportedNotices policy (operationTopic dynamic exchange info) (upstreamOutcome
        (run environment (proxyUpstream proxy dynamic after upstream elapsedMs) world).1.1 upstream) := by
  obtain ⟨session, core⟩ := (core_proxyUpstream proxy dynamic after upstream elapsedMs).interp
    (handle environment) world
  have known : Known dynamic exchange info body policy
      (run environment (proxyUpstream proxy dynamic after upstream elapsedMs) world).1.2 :=
    noted.toKnown.of_core session core
  have responded := @responded_of_ended proxy dynamic environment after noted.plain noted.noBody upstream
    elapsedMs world
  rw [known.loggedPublications, ← known.isPolicy]
  generalize (run environment (proxyUpstream proxy dynamic after upstream elapsedMs) world).1 = forwarded
    at responded ⊢
  unfold concludedPublications upstreamOutcome
  cases ended : forwarded.1 with
  | some error => exact notices_failurePublications ..
  | none =>
    obtain ⟨head, chunks, broken, parts, rfl, isParts, sameStatus⟩ := responded ended
    dsimp only
    rw [isParts]
    unfold reportedNotices
    dsimp only
    rw [← sameStatus]
    cases parts.status.isError with
    | true => exact notices_failurePublications ..
    | false =>
      unfold successPublications
      simp only [Bool.false_eq_true, if_false]
      split <;> rfl

theorem loggedPublications_of_passedOver {error : Option PingoraError}
    (passedOver : after.ctx.isReplay = true ∨ after.ctx.isModeBTerminated = true) :
    loggedPublications proxy after error = [] := by
  unfold loggedPublications
  cases passedOver with
  | inl isReplay => simp [isReplay]
  | inr modeB => simp [modeB]

theorem Blank.endOfTaken (blank : Blank after) (found : KeyState) :
    Blank (endOfTaken after found).exchange := by
  cases found with
  | inProgress holder => exact blank
  | completed holder statusCode headers body =>
    unfold Gateway.endOfTaken
    dsimp only
    split
    · exact ⟨blank.topic, blank.operation, blank.info⟩
    · exact blank

/-- What a request whose key is taken is in for: a replay is passed over, anything else is a
    refusal. -/
theorem notices_of_taken (noted : Noted dynamic exchange info body policy after) (found : KeyState)
    (arrival : Arrival) (world : World) :
    (loggedPublications proxy
      (concluded proxy dynamic environment arrival (endOfTaken after found, world)).2
      (concluded proxy dynamic environment arrival (endOfTaken after found, world)).1).map
        Publication.notice =
      if isReplayable found then []
      else failedNotices policy (operationTopic dynamic exchange info) := by
  cases found with
  | inProgress holder => exact notices_of_refused noted none
  | completed holder statusCode headers body =>
    unfold endOfTaken isReplayable
    dsimp only
    by_cases writable : (StatusCode.fromU16 statusCode).isSome = true
    · simp only [if_pos writable]
      exact congrArg (List.map Publication.notice) (loggedPublications_of_passedOver (.inl rfl))
    · simp only [if_neg writable]
      exact notices_of_refused noted (some IdempotencyFilter.invalidStatus)

/-- Off the way upstream, an outcome is its own conclusion. -/
theorem concluded_of_answered {outcome : Outcome} (notForwarded : outcome.result ≠ .ok false)
    (arrival : Arrival) (world : World) :
    (concluded proxy dynamic environment arrival (outcome, world)).2 = outcome.exchange := by
  unfold concluded
  dsimp only
  cases result : outcome.result with
  | error error => rfl
  | ok isAnswered =>
    cases isAnswered with
    | true => rfl
    | false => exact absurd result notForwarded

/-- Nothing is known of a request that was not decoded. -/
theorem Ends.blank {course : Course} {outcome : Outcome} {published : List Publication}
    (ends : Ends proxy dynamic environment exchange course outcome published)
    (unseen : Unseen exchange) (notDecoded : course.info = none) (arrival : Arrival) (world : World) :
    published = [] ∧ Blank (concluded proxy dynamic environment arrival (outcome, world)).2 := by
  cases ends with
  | edge result notForwarded =>
    rw [concluded_of_answered notForwarded]
    exact ⟨rfl, unseen.blank⟩
  | keyTaken found =>
    have stamped : Blank (stampRequest exchange) := ⟨unseen.topic, unseen.operation, unseen.info⟩
    rw [concluded_of_answered (endOfTaken_result_ne found)]
    exact ⟨rfl, stamped.endOfTaken found⟩
  | unread outcome notForwarded blank =>
    rw [concluded_of_answered notForwarded]
    exact ⟨rfl, blank⟩
  | undecoded after blank =>
    have core := (core_proxyUpstream proxy dynamic after arrival.upstream arrival.elapsedMs).interp
      (handle environment) world
    exact ⟨rfl, blank.of_core core.2⟩
  | rejected _ _ _ _ _ | fingerprintTaken _ _ _ _ _ | disabled _ _ _ _ _ | command _ _ _ _
  | forwarded _ _ _ _ _ => cases notDecoded

theorem Course.notices_of_undecoded {course : Course} (notDecoded : course.info = none) (audited : Bool)
    (outcome : UpstreamOutcome) : course.notices proxy dynamic exchange audited outcome = [] := by
  cases course with
  | unrouted | edge | keyTaken _ | unread | undecoded => rfl
  | rejected _ _ | fingerprintTaken _ _ | disabled _ _ | command _ _ | forwarded _ _ =>
    cases notDecoded

/-- The notices on a course that has ended. -/
theorem notices_of_ends {course : Course} {outcome : Outcome} {published : List Publication}
    (ends : Ends proxy dynamic environment exchange course outcome published)
    (unseen : Unseen exchange) (isPolicy : exchange.ctx.dispatchPolicy = dynamic.dispatchPolicy)
    (arrival : Arrival) (world : World) :
    (published ++ loggedPublications proxy
      (concluded proxy dynamic environment arrival (outcome, world)).2
      (concluded proxy dynamic environment arrival (outcome, world)).1).map Publication.notice =
      course.notices proxy dynamic exchange (takesRejection environment exchange)
        (upstreamOutcome (concluded proxy dynamic environment arrival (outcome, world)).1
          arrival.upstream) := by
  by_cases notDecoded : course.info = none
  · obtain ⟨rfl, blank⟩ := ends.blank unseen notDecoded arrival world
    rw [blank.loggedPublications, Course.notices_of_undecoded notDecoded]
    rfl
  cases ends with
  | edge _ _ | keyTaken _ | unread _ _ _ | undecoded _ _ => exact absurd rfl notDecoded
  | rejected info body rejection after noted =>
    rw [List.map_append]
    refine congrArg₂ (· ++ ·) ?_ ?_
    · cases takesRejection environment exchange <;> rfl
    · rw [← isPolicy]
      exact notices_of_refused noted none
  | fingerprintTaken info body found after noted =>
    rw [List.nil_append]
    unfold Course.notices
    rw [← isPolicy]
    exact notices_of_taken noted found arrival world
  | disabled info body route after noted =>
    rw [List.nil_append]
    unfold Course.notices
    rw [← isPolicy]
    exact notices_of_refused noted none
  | command info route after modeB =>
    unfold concluded
    rw [loggedPublications_of_passedOver (.inr modeB)]
    rfl
  | forwarded info body policy after noted =>
    rw [List.map_append]
    exact congrArg _ (notices_of_forwarded noted arrival.upstream arrival.elapsedMs world)

end Notices

theorem unseen_admitted (proxy : CompositeServiceProxy) (dynamic : DynamicGatewayState)
    (arrival : Arrival) : Unseen (admitted proxy dynamic arrival) := by
  unfold admitted
  cases early : earlyRequestFilter proxy dynamic (arrival.exchange dynamic) with
  | mk result exchange => exact unseen_earlyRequestFilter early

theorem policy_admitted (proxy : CompositeServiceProxy) (dynamic : DynamicGatewayState)
    (arrival : Arrival) : (admitted proxy dynamic arrival).ctx.dispatchPolicy = dynamic.dispatchPolicy := by
  unfold admitted
  cases early : earlyRequestFilter proxy dynamic (arrival.exchange dynamic) with
  | mk result exchange =>
    obtain ⟨appId, addr, service, same⟩ := ctx_earlyRequestFilter early
    rw [same]
    rfl

/-- The notices of a request, from its course and what forwarding it has come to. -/
theorem notices_serve (proxy : CompositeServiceProxy) (dynamic : DynamicGatewayState)
    (environment : Environment) (engine : Engine) (arrival : Arrival) :
    noticesOf proxy dynamic environment engine arrival =
      (arrival.course proxy dynamic engine).notices proxy dynamic (admitted proxy dynamic arrival)
        (takesRejection environment (admitted proxy dynamic arrival))
        (arrival.upstreamOutcome proxy dynamic environment engine) := by
  unfold noticesOf
  cases publications_serve proxy dynamic environment engine arrival with
  | inl unrouted =>
    rw [unrouted.1, unrouted.2]
    rfl
  | inr routed =>
    obtain ⟨published, ends, all⟩ := routed
    rw [all]
    exact notices_of_ends ends (unseen_admitted proxy dynamic arrival)
      (policy_admitted proxy dynamic arrival) arrival _

/-! ## Refused requests -/

/-- The request filter answers the request itself, with a rejection, because the route is
    disabled, or because the key is in use. -/
def Course.isRefusal : Course → Bool
  | unrouted => false
  | edge => false
  | keyTaken (.inProgress _) => true
  | keyTaken (.completed _ _ _ _) => false
  | unread => false
  | undecoded => false
  | rejected _ _ => true
  | fingerprintTaken _ (.inProgress _) => true
  | fingerprintTaken _ (.completed _ _ _ _) => false
  | disabled _ _ => true
  | command _ _ => false
  | forwarded _ _ => false

/-- A topic that is not one of the operation's own. -/
def IsForeign (dynamic : DynamicGatewayState) (exchange : Exchange) (info : RequestInfo)
    (topic : String) : Prop :=
  topic ≠ operationTopic dynamic exchange info ∧
    topic ≠ TopicResolver.failedTopic (operationTopic dynamic exchange info)

/-- Every notice is the audit event of a rejection, and none is on a topic of the operation. -/
def Course.LeavesLogClean (dynamic : DynamicGatewayState) (exchange : Exchange) (course : Course)
    (notices : List Notice) : Prop :=
  ∀ notice ∈ notices,
    (∃ info rejection, course = .rejected info rejection ∧ notice = .payload (auditTopic info)) ∧
      ∀ info ∈ course.info, IsForeign dynamic exchange info notice.topic

/-- A request refused for its own key was not decoded.  Any other refusal is reported as a
    failure unless the policy of the gateway is a quiet one, for no route has a say yet. -/
def Course.SparesLog (dynamic : DynamicGatewayState) (exchange : Exchange) : Course → Prop
  | rejected info _ =>
    isQuiet dynamic.dispatchPolicy = true ∧ IsForeign dynamic exchange info (auditTopic info)
  | fingerprintTaken _ _ => isQuiet dynamic.dispatchPolicy = true
  | disabled _ _ => isQuiet dynamic.dispatchPolicy = true
  | unrouted => True
  | edge => True
  | keyTaken _ => True
  | unread => True
  | undecoded => True
  | command _ _ => True
  | forwarded _ _ => True

instance (dynamic : DynamicGatewayState) (exchange : Exchange) (info : RequestInfo) (topic : String) :
    Decidable (IsForeign dynamic exchange info topic) :=
  inferInstanceAs (Decidable (_ ∧ _))

instance (dynamic : DynamicGatewayState) (exchange : Exchange) (course : Course) :
    Decidable (course.SparesLog dynamic exchange) :=
  match course with
  | .rejected info _ =>
    inferInstanceAs (Decidable (isQuiet dynamic.dispatchPolicy = true ∧
      IsForeign dynamic exchange info (auditTopic info)))
  | .fingerprintTaken _ _ => inferInstanceAs (Decidable (isQuiet dynamic.dispatchPolicy = true))
  | .disabled _ _ => inferInstanceAs (Decidable (isQuiet dynamic.dispatchPolicy = true))
  | .unrouted | .edge | .keyTaken _ | .unread | .undecoded | .command _ _ | .forwarded _ _ =>
    inferInstanceAs (Decidable True)

section Refused

variable {dynamic : DynamicGatewayState} {exchange : Exchange} {course : Course} {info : RequestInfo}

theorem failedNotices_of_quiet {policy : ModeADispatchPolicy} (quiet : isQuiet policy = true)
    (topic : String) : failedNotices policy topic = [] := by
  unfold failedNotices
  rw [if_pos quiet]

theorem leavesLogClean_nil : course.LeavesLogClean dynamic exchange [] := by
  intro notice member
  cases member

/-- A failure is never the audit event of a rejection. -/
theorem quiet_of_leavesLogClean {audits : List Notice} {policy : ModeADispatchPolicy} {topic : String}
    (clean : course.LeavesLogClean dynamic exchange (audits ++ failedNotices policy topic)) :
    isQuiet policy = true := by
  by_contra loud
  have reported : failedNotices policy topic = [.terminal (TopicResolver.failedTopic topic) .failed] :=
    if_neg loud
  rw [reported] at clean
  obtain ⟨⟨_, _, _, isPayload⟩, -⟩ := clean _ (List.mem_append_right _ (List.mem_singleton.mpr rfl))
  cases isPayload

end Refused

/-- A refused request leaves the log clean, whatever the client takes, exactly when it was
    refused for its own key or the policy of the gateway is a quiet one; the audit event of a
    rejection must not go to a topic of the operation either. -/
theorem refusal_leaves_log_clean_iff (proxy : CompositeServiceProxy) (dynamic : DynamicGatewayState)
    (engine : Engine) (arrival : Arrival)
    (refused : (arrival.course proxy dynamic engine).isRefusal = true) :
    (∀ environment, (arrival.course proxy dynamic engine).LeavesLogClean dynamic
      (admitted proxy dynamic arrival) (noticesOf proxy dynamic environment engine arrival)) ↔
      (arrival.course proxy dynamic engine).SparesLog dynamic (admitted proxy dynamic arrival) := by
  simp only [notices_serve]
  generalize arrival.course proxy dynamic engine = course at refused ⊢
  generalize admitted proxy dynamic arrival = exchange
  have failures : ∀ {info : RequestInfo} {course : Course},
      (∀ _ : Environment, course.LeavesLogClean dynamic exchange
        (failedNotices dynamic.dispatchPolicy (operationTopic dynamic exchange info))) ↔
        isQuiet dynamic.dispatchPolicy = true := by
    intro info course
    constructor
    · intro clean
      exact @quiet_of_leavesLogClean dynamic exchange course [] _ _ (clean obliging)
    · intro quiet _
      rw [failedNotices_of_quiet quiet]
      exact leavesLogClean_nil
  cases course with
  | keyTaken found => exact iff_of_true (fun _ => leavesLogClean_nil) trivial
  | rejected info rejection =>
    constructor
    · intro clean
      -- a client that takes everything lets the audit event through
      have audited := clean obliging
      refine ⟨quiet_of_leavesLogClean audited, ?_⟩
      exact (audited (.payload (auditTopic info))
        (List.mem_append_left _ (List.mem_singleton.mpr rfl))).2 info rfl
    · intro spares environment notice member
      simp only [Course.notices, failedNotices_of_quiet spares.1, List.append_nil] at member
      split at member
      · cases List.mem_singleton.mp member
        refine ⟨⟨info, rejection, rfl, rfl⟩, ?_⟩
        intro other isInfo
        cases isInfo
        exact spares.2
      · cases member
  | fingerprintTaken info found =>
    cases found with
    | inProgress holder => exact failures
    | completed _ _ _ _ => cases refused
  | disabled info route => exact failures
  | unrouted | edge | unread | undecoded | command _ _ | forwarded _ _ => cases refused

/-- Nobody hears of a failure. -/
def quietly (dynamic : DynamicGatewayState) : DynamicGatewayState :=
  { dynamic with dispatchPolicy := .responseOnly }

theorem refusal_leaves_log_clean_iff_quiet :
    ((smallArrival .post [] payBody).course smallProxy
      (quietly (smallDynamic [denyAll] [])) fun _ => none).LeavesLogClean (quietly (smallDynamic [denyAll] []))
        (admitted smallProxy (quietly (smallDynamic [denyAll] [])) (smallArrival .post [] payBody))
        (noticesOf smallProxy (quietly (smallDynamic [denyAll] [])) obliging (fun _ => none)
          (smallArrival .post [] payBody)) :=
  (refusal_leaves_log_clean_iff smallProxy (quietly (smallDynamic [denyAll] [])) (fun _ => none)
    (smallArrival .post [] payBody) (by decide +kernel)).mpr (by decide +kernel) obliging

/-- A rejected mutation is reported as failed on the topic of its operation. -/
theorem rejection_on_failed_topic :
    let arrival := smallArrival .post [] payBody
    let dynamic := smallDynamic [denyAll] []
    (arrival.course smallProxy dynamic fun _ => none).isRefusal = true ∧
      (arrival.course smallProxy dynamic fun _ => none).info.map
        (operationTopic dynamic (admitted smallProxy dynamic arrival)) = some "mutation.default.pay" ∧
      noticesOf smallProxy dynamic obliging (fun _ => none) arrival =
        [.payload "interceptors.rejected.anonymous", .terminal "mutation.default.pay.failed" .failed] := by
  decide +kernel

/-! ## Dispatch policies -/

/-- The policy of the route, or else that of the gateway. -/
def effectivePolicy (dynamic : DynamicGatewayState) (info : RequestInfo) : ModeADispatchPolicy :=
  ((StrategyRouter.matchRoute dynamic.routes info).bind SpectraRouteConfig.dispatchPolicy).getD
    dynamic.dispatchPolicy

def UpstreamOutcome.isSuccess : UpstreamOutcome → Bool
  | connectionError => false
  | responded status => status.isSuccess

/-- The terminal events that a policy promises. -/
def promisedNotices (policy : ModeADispatchPolicy) (topic : String) (outcome : UpstreamOutcome) :
    List Notice :=
  match policy with
  | .responseOnly => if outcome.isSuccess then [.terminal topic .success] else []
  | .responseWithFailure | .rawAudit =>
    if outcome.isSuccess then [.terminal topic .success]
    else [.terminal (TopicResolver.failedTopic topic) .failed]
  | .none => []

/-- A response is a success or an error; those in between are neither. -/
def UpstreamOutcome.Conclusive (outcome : UpstreamOutcome) : Prop :=
  ∀ status, outcome = .responded status → status.isSuccess = true ∨ status.isError = true

section Policy

variable {proxy : CompositeServiceProxy} {dynamic : DynamicGatewayState} {engine : Engine}
  {exchange : Exchange} {arrival : Arrival} {info : RequestInfo} {policy : ModeADispatchPolicy}

theorem policy_of_routeCourse {decodedInfo : RequestInfo}
    (forwards : routeCourse dynamic dynamic.dispatchPolicy decodedInfo = .forwarded info policy) :
    policy = effectivePolicy dynamic info := by
  unfold routeCourse at forwards
  unfold effectivePolicy
  cases matched : StrategyRouter.matchRoute dynamic.routes decodedInfo with
  | none =>
    rw [matched] at forwards
    cases forwards
    rw [matched]
    rfl
  | some route =>
    rw [matched] at forwards
    dsimp only at forwards
    split at forwards
    · cases forwards
    · split at forwards
      · cases forwards
      · cases forwards
        rw [matched]
        rfl

theorem keyCourse_eq_forwarded {key : Option String} {taken : KeyState → Course} {free : Course}
    (notForwarded : ∀ found, taken found ≠ .forwarded info policy)
    (forwards : keyCourse engine key taken free = .forwarded info policy) :
    free = .forwarded info policy := by
  unfold keyCourse at forwards
  cases held : key.bind engine with
  | none =>
    rw [held] at forwards
    exact forwards
  | some found =>
    rw [held] at forwards
    exact absurd forwards (notForwarded found)

/-- A request that is forwarded is so under its effective policy. -/
theorem policy_of_forwarded (forwards : arrival.course proxy dynamic engine = .forwarded info policy) :
    policy = effectivePolicy dynamic info := by
  have isPolicy := policy_admitted proxy dynamic arrival
  unfold Arrival.course at forwards
  unfold admitted at isPolicy
  cases early : earlyRequestFilter proxy dynamic (arrival.exchange dynamic) with
  | mk result exchange =>
    rw [early] at forwards isPolicy
    cases result with
    | error error => cases forwards
    | ok _ =>
      dsimp only at forwards isPolicy
      unfold course at forwards
      split at forwards
      · cases forwards
      have onward := keyCourse_eq_forwarded (by intro found impossible; cases impossible) forwards
      unfold bodyCourse at onward
      split at onward
      · split at onward
        · unfold decodedCourse at onward
          split at onward
          · cases onward
          all_goals
            rw [isPolicy] at onward
            exact policy_of_routeCourse
              (keyCourse_eq_forwarded (by intro found impossible; cases impossible) onward)
        · cases onward
      · cases onward
      · cases onward

theorem ingressNotices_eq (proxy : CompositeServiceProxy) (policy : ModeADispatchPolicy)
    (info : RequestInfo) :
    ingressNotices proxy policy info = if policy = .rawAudit then
      [.request (TopicResolver.resolveDispatchTopic (proxy.sanitize info))] else [] := by
  cases policy <;> rfl

/-- The gateway takes every response that is no error for a success. -/
theorem reportedNotices_eq_iff (policy : ModeADispatchPolicy) (topic : String)
    (outcome : UpstreamOutcome) :
    reportedNotices policy topic outcome = promisedNotices policy topic outcome ↔
      policy = .none ∨ outcome.Conclusive := by
  cases outcome with
  | connectionError =>
    refine iff_of_true ?_ (.inr ?_)
    · cases policy <;> rfl
    · intro status impossible
      cases impossible
  | responded status =>
    have conclusive : (UpstreamOutcome.responded status).Conclusive ↔
        status.isSuccess = true ∨ status.isError = true := by
      constructor
      · exact fun conclusive => conclusive status rfl
      · intro either other same
        cases same
        exact either
    rw [conclusive]
    have success : (UpstreamOutcome.responded status).isSuccess = status.isSuccess := rfl
    cases isSuccess : status.isSuccess with
    | true =>
      have notError := StatusCode.isError_of_isSuccess isSuccess
      refine iff_of_true ?_ (.inr (.inl rfl))
      cases policy <;> simp [reportedNotices, promisedNotices, success, isSuccess, notError]
    | false =>
      cases isError : status.isError with
      | true =>
        refine iff_of_true ?_ (.inr (.inr rfl))
        cases policy <;>
          simp [reportedNotices, promisedNotices, failedNotices, isQuiet, success, isSuccess, isError]
      | false =>
        cases policy <;> simp [reportedNotices, promisedNotices, success, isSuccess, isError]

end Policy

/-- A forwarded request is reported as its policy promises exactly when the policy is to report
    nothing or what came back is conclusive. -/
theorem forwarded_reported_iff (proxy : CompositeServiceProxy) (dynamic : DynamicGatewayState)
    (environment : Environment) (engine : Engine) (arrival : Arrival) (info : RequestInfo)
    (policy : ModeADispatchPolicy)
    (forwards : arrival.course proxy dynamic engine = .forwarded info policy) :
    noticesOf proxy dynamic environment engine arrival =
        (if effectivePolicy dynamic info = .rawAudit then
          [.request (TopicResolver.resolveDispatchTopic (proxy.sanitize info))] else []) ++
        promisedNotices (effectivePolicy dynamic info)
          (operationTopic dynamic (admitted proxy dynamic arrival) info)
          (arrival.upstreamOutcome proxy dynamic environment engine) ↔
      effectivePolicy dynamic info = .none ∨
        (arrival.upstreamOutcome proxy dynamic environment engine).Conclusive := by
  rw [notices_serve, forwards, ← policy_of_forwarded forwards]
  dsimp only [Course.notices]
  rw [ingressNotices_eq, List.append_cancel_left_eq]
  exact reportedNotices_eq_iff ..

/-- A success, as the policy promises. -/
theorem forwarded_reported_iff_success : ∃ info,
    noticesOf smallProxy (smallDynamic [] []) obliging (fun _ => none) (smallArrival .post [] payBody) =
      (if effectivePolicy (smallDynamic [] []) info = .rawAudit then
          [.request (TopicResolver.resolveDispatchTopic (smallProxy.sanitize info))] else []) ++
        promisedNotices (effectivePolicy (smallDynamic [] []) info)
          (operationTopic (smallDynamic [] [])
            (admitted smallProxy (smallDynamic [] []) (smallArrival .post [] payBody)) info)
          (.responded .ok) := by
  have outcome : (smallArrival .post [] payBody).upstreamOutcome smallProxy (smallDynamic [] []) obliging
      (fun _ => none) = .responded .ok := by decide +kernel
  have forwards : ∃ info, (smallArrival .post [] payBody).course smallProxy (smallDynamic [] [])
      (fun _ => none) = .forwarded info .responseWithFailure := ⟨_, rfl⟩
  obtain ⟨info, forwards⟩ := forwards
  refine ⟨info, ?_⟩
  rw [← outcome]
  refine (forwarded_reported_iff smallProxy (smallDynamic [] []) obliging (fun _ => none)
    (smallArrival .post [] payBody) info _ forwards).mpr (.inr ?_)
  rw [outcome]
  intro status same
  cases same
  exact .inl (by decide)

/-- The upstream answers with a redirection. -/
def redirected : Arrival :=
  { smallArrival .post [] payBody with upstream := .response ⟨⟨302, by decide⟩, []⟩ [] none }

/-- A redirection is reported as a success, whatever the policy promises. -/
theorem redirection_reported_as_success :
    let dynamic := quietly (smallDynamic [] [])
    redirected.upstreamOutcome smallProxy dynamic obliging (fun _ => none) =
        .responded ⟨302, by decide⟩ ∧
      noticesOf smallProxy dynamic obliging (fun _ => none) redirected =
        [.terminal "mutation.default.pay" .success] ∧
      promisedNotices .responseOnly "mutation.default.pay" (.responded ⟨302, by decide⟩) = [] := by
  decide +kernel

/-! ## Operations to dispatch -/

/-- A request event or a terminal event. -/
def Notice.isEvent : Notice → Bool
  | request _ => true
  | terminal _ _ => true
  | payload _ => false

/-- The operation types that the decoder of the service is configured to dispatch. -/
def opsToDispatch (exchange : Exchange) : Option (List GraphQLOperationType) :=
  match exchange.ctx.service with
  | some service =>
    match service.requestProtocol with
    | .graphql ops => some ops
    | .http => none
  | none => none

/-- What comes of forwarding makes an event under the policy. -/
def isReported (policy : ModeADispatchPolicy) : UpstreamOutcome → Bool
  | .connectionError => !isQuiet policy
  | .responded status => if status.isError then !isQuiet policy else !(policy == .none)

/-- A request on the course makes an event, whatever its operation is. -/
def Course.announces (dynamic : DynamicGatewayState) (outcome : UpstreamOutcome) : Course → Bool
  | unrouted => false
  | edge => false
  | keyTaken _ => false
  | unread => false
  | undecoded => false
  | rejected _ _ => !isQuiet dynamic.dispatchPolicy
  | fingerprintTaken _ found => !isReplayable found && !isQuiet dynamic.dispatchPolicy
  | disabled _ _ => !isQuiet dynamic.dispatchPolicy
  | command _ _ => true
  | forwarded _ policy => policy == .rawAudit || isReported policy outcome

/-- The operation type of the decoded request. -/
def Course.operationType (course : Course) : Option GraphQLOperationType :=
  (course.info.bind RequestInfo.gql).map GraphQLRequestInfo.operationType

/-- The request was decoded to an operation that is not to be dispatched. -/
def Course.IsUndispatched (exchange : Exchange) (course : Course) : Prop :=
  ∃ ops operationType, opsToDispatch exchange = some ops ∧
    course.operationType = some operationType ∧ operationType ∉ ops

theorem any_isEvent_failedNotices (policy : ModeADispatchPolicy) (topic : String) :
    (failedNotices policy topic).any Notice.isEvent = !isQuiet policy := by
  unfold failedNotices
  cases isQuiet policy <;> rfl

theorem any_isEvent_reportedNotices (policy : ModeADispatchPolicy) (topic : String)
    (outcome : UpstreamOutcome) :
    (reportedNotices policy topic outcome).any Notice.isEvent = isReported policy outcome := by
  cases outcome with
  | connectionError => exact any_isEvent_failedNotices policy topic
  | responded status =>
    simp only [reportedNotices, isReported]
    cases status.isError with
    | true => exact any_isEvent_failedNotices policy topic
    | false => cases policy <;> rfl

theorem any_isEvent_ingressNotices (proxy : CompositeServiceProxy) (policy : ModeADispatchPolicy)
    (info : RequestInfo) :
    (ingressNotices proxy policy info).any Notice.isEvent = (policy == .rawAudit) := by
  cases policy <;> rfl

theorem any_isEvent_notices (proxy : CompositeServiceProxy) (dynamic : DynamicGatewayState)
    (exchange : Exchange) (audited : Bool) (outcome : UpstreamOutcome) (course : Course) :
    (course.notices proxy dynamic exchange audited outcome).any Notice.isEvent =
      course.announces dynamic outcome := by
  cases course with
  | rejected info rejection =>
    have payloads : (if audited then [Notice.payload (auditTopic info)] else []).any Notice.isEvent =
        false := by cases audited <;> rfl
    simp only [Course.notices, Course.announces, List.any_append, payloads, Bool.false_or]
    exact any_isEvent_failedNotices ..
  | fingerprintTaken info found =>
    simp only [Course.notices, Course.announces]
    cases isReplayable found with
    | true => rfl
    | false => exact any_isEvent_failedNotices ..
  | disabled info route => exact any_isEvent_failedNotices ..
  | command info route => rfl
  | forwarded info policy =>
    simp only [Course.notices, Course.announces, List.any_append, any_isEvent_ingressNotices,
      any_isEvent_reportedNotices]
  | unrouted | edge | keyTaken _ | unread | undecoded => rfl

/-- An operation that is not to be dispatched goes unannounced exactly when any operation would
    on its course: the configured operations are never consulted. -/
theorem undispatched_silent_iff (proxy : CompositeServiceProxy) (dynamic : DynamicGatewayState)
    (environment : Environment) (engine : Engine) (arrival : Arrival) :
    ((arrival.course proxy dynamic engine).IsUndispatched (admitted proxy dynamic arrival) →
      ∀ notice ∈ noticesOf proxy dynamic environment engine arrival, notice.isEvent = false) ↔
      ¬ (arrival.course proxy dynamic engine).IsUndispatched (admitted proxy dynamic arrival) ∨
        (arrival.course proxy dynamic engine).announces dynamic
          (arrival.upstreamOutcome proxy dynamic environment engine) = false := by
  have silent : (∀ notice ∈ noticesOf proxy dynamic environment engine arrival,
      notice.isEvent = false) ↔ (arrival.course proxy dynamic engine).announces dynamic
        (arrival.upstreamOutcome proxy dynamic environment engine) = false := by
    rw [notices_serve, ← any_isEvent_notices proxy dynamic (admitted proxy dynamic arrival)
      (takesRejection environment (admitted proxy dynamic arrival))]
    simp only [List.any_eq_false, Bool.not_eq_true]
  rw [silent]
  exact imp_iff_not_or

/-- A gateway that dispatches queries only. -/
def queriesOnly : CompositeServiceProxy :=
  { smallProxy with
    serviceByPath := fun path =>
      if path = "/graphql" then some ⟨.graphql [.query], "127.0.0.1:4000"⟩ else none }

/-- A mutation is reported by a gateway that dispatches queries only. -/
theorem mutation_reported_among_queries :
    let arrival := smallArrival .post [] payBody
    let dynamic := smallDynamic [] []
    (arrival.course queriesOnly dynamic fun _ => none).IsUndispatched
        (admitted queriesOnly dynamic arrival) ∧
      noticesOf queriesOnly dynamic obliging (fun _ => none) arrival =
        [.terminal "mutation.default.pay" .success] := by
  refine ⟨⟨[.query], .mutation, ?_, ?_, ?_⟩, ?_⟩
  · decide +kernel
  · decide +kernel
  · simp
  · decide +kernel

end SpectraGQL.Gateway
