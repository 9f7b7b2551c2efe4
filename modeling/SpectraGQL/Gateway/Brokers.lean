import SpectraGQL.Gateway.Notices
import SpectraGQL.Interceptors.Sanitizer
import SpectraGQL.Telemetry.Sinks

/-! # Where the messages go

The gateway says which topic a terminal event is for, and leaves the topic of a request event
to the sink.  Two promises are settled here: that both are one topic, the one that the request
filter has made out, and that the sinks tell a failure in the same way.
-/

namespace SpectraGQL.Gateway

open Interaction SpectraGQL.Core SpectraGQL.Http SpectraGQL.Protocol SpectraGQL.Interceptors
open SpectraGQL.Telemetry SpectraGQL.Idempotency

/-! ## One topic for a request -/

/-- The gateway with the sanitizer of the repository. -/
def CompositeServiceProxy.sanitizing (proxy : CompositeServiceProxy) (patterns : Patterns) :
    CompositeServiceProxy :=
  { proxy with
    sanitize := Sanitizer.defaultSanitizer.sanitizeRequest patterns proxy.crates.fromStr }

/-- Sanitizing leaves what a topic is made of. -/
theorem resolveDispatchTopic_sanitizeRequest (sanitizer : Sanitizer) (patterns : Patterns)
    (fromStr : String → Option Json) (info : RequestInfo) :
    TopicResolver.resolveDispatchTopic (sanitizer.sanitizeRequest patterns fromStr info) =
      TopicResolver.resolveDispatchTopic info := by
  unfold Sanitizer.sanitizeRequest TopicResolver.resolveDispatchTopic
  cases info.gql <;> rfl

/-- What stands before the first dot of a topic. -/
def topicKind (topic : String) : String := String.ofList (topic.toList.takeWhile (· ≠ '.'))

theorem eq_append_of_mem {separator : Char} {text : List Char} (member : separator ∈ text) :
    text = text.takeWhile (· ≠ separator) ++ separator ::
      (text.dropWhile (· ≠ separator)).drop 1 := by
  induction text with
  | nil => cases member
  | cons char rest inductionHypothesis =>
    by_cases same : char = separator
    · simp [same]
    · have later : separator ∈ rest := (List.mem_cons.mp member).resolve_left (Ne.symm same)
      simpa [same] using inductionHypothesis later

/-- The prefix of an app leaves a topic alone only if it is what the topic begins with. -/
theorem appTopic_eq_self_iff {topic : String} (dotted : '.' ∈ topic.toList) (topicPrefix : Option String) :
    appTopic topicPrefix topic = topic ↔ topicPrefix = none ∨ topicPrefix = some (topicKind topic) := by
  cases topicPrefix with
  | none => exact iff_of_true rfl (.inl rfl)
  | some text =>
    have parts := eq_append_of_mem dotted
    unfold appTopic topicKind
    dsimp only
    rw [if_pos (by simpa using dotted)]
    generalize topic.toList.takeWhile (· ≠ '.') = kind at parts ⊢
    generalize (topic.toList.dropWhile (· ≠ '.')).drop 1 = op at parts ⊢
    rw [← String.toList_inj, parts]
    split
    · rename_i renamed
      refine iff_of_false ?_ ?_
      · -- the renamed topic is longer, by its app and a dot
        intro same
        have lengths := congrArg List.length same
        simp at lengths
        omega
      · intro either
        cases either with
        | inl impossible => cases impossible
        | inr isKind =>
          cases isKind
          cases renamed.1 with
          | inl isQuery => exact absurd (isQuery ▸ renamed.2) (by decide)
          | inr isSubscription => exact absurd (isSubscription ▸ renamed.2) (by decide)
    · simp [String.ext_iff]

/-- The request itself goes to the broker on the course. -/
def Course.sendsRequest : Course → Bool
  | unrouted => false
  | edge => false
  | keyTaken _ => false
  | unread => false
  | undecoded => false
  | rejected _ _ => false
  | fingerprintTaken _ _ => false
  | disabled _ _ => false
  | command _ _ => true
  | forwarded _ policy => policy == .rawAudit

theorem request_mem_failedNotices {policy : ModeADispatchPolicy} {failedTopic topic : String}
    (member : Notice.request topic ∈ failedNotices policy failedTopic) : False := by
  unfold failedNotices at member
  split at member <;> simp at member

theorem request_mem_reportedNotices {policy : ModeADispatchPolicy} {outcome : UpstreamOutcome}
    {operation topic : String} (member : Notice.request topic ∈ reportedNotices policy operation outcome) :
    False := by
  cases outcome with
  | connectionError => exact request_mem_failedNotices member
  | responded status =>
    simp only [reportedNotices] at member
    split at member
    · exact request_mem_failedNotices member
    · split at member <;> simp at member

/-- A request goes to the topic that its sink resolves. -/
theorem request_mem_notices_iff {proxy : CompositeServiceProxy} {dynamic : DynamicGatewayState}
    {exchange : Exchange} {audited : Bool} {outcome : UpstreamOutcome} {course : Course}
    {info : RequestInfo} (isInfo : course.info = some info) (topic : String) :
    Notice.request topic ∈ course.notices proxy dynamic exchange audited outcome ↔
      course.sendsRequest = true ∧ topic = TopicResolver.resolveDispatchTopic (proxy.sanitize info) := by
  cases course with
  | rejected known rejection =>
    -- audits and failures only
    refine iff_of_false (fun member => ?_) (by simp [Course.sendsRequest])
    simp only [Course.notices] at member
    cases List.mem_append.mp member with
    | inl audit => cases audited <;> simp at audit
    | inr failure => exact request_mem_failedNotices failure
  | fingerprintTaken known found =>
    refine iff_of_false (fun member => ?_) (by simp [Course.sendsRequest])
    simp only [Course.notices] at member
    split at member
    · cases member
    · exact request_mem_failedNotices member
  | disabled known route =>
    exact iff_of_false request_mem_failedNotices (by simp [Course.sendsRequest])
  | command known route =>
    cases isInfo
    simp [Course.notices, Course.sendsRequest]
  | forwarded known policy =>
    cases isInfo
    simp only [Course.notices, Course.sendsRequest, List.mem_append, ingressNotices_eq]
    constructor
    · intro member
      cases member with
      | inl ingress => split at ingress <;> simp_all
      | inr reported => exact (request_mem_reportedNotices reported).elim
    · intro sends
      exact .inl (by simp_all)
  | unrouted | edge | keyTaken _ | unread | undecoded => cases isInfo

/-- A request goes to the topic of its terminal events exactly when it does not go to the broker,
    or its app does not change the topic. -/
theorem request_on_operation_topic_iff (patterns : Patterns) (proxy : CompositeServiceProxy)
    (dynamic : DynamicGatewayState) (environment : Environment) (engine : Engine) (arrival : Arrival)
    (info : RequestInfo)
    (decoded : (arrival.course (proxy.sanitizing patterns) dynamic engine).info = some info) :
    (∀ topic, Notice.request topic ∈
        noticesOf (proxy.sanitizing patterns) dynamic environment engine arrival →
      topic = operationTopic dynamic (admitted (proxy.sanitizing patterns) dynamic arrival) info) ↔
      (arrival.course (proxy.sanitizing patterns) dynamic engine).sendsRequest = false ∨
        appPrefix dynamic (admitted (proxy.sanitizing patterns) dynamic arrival).ctx.appId = none ∨
        appPrefix dynamic (admitted (proxy.sanitizing patterns) dynamic arrival).ctx.appId =
          some (topicKind (TopicResolver.resolveDispatchTopic info)) := by
  have sanitized : TopicResolver.resolveDispatchTopic ((proxy.sanitizing patterns).sanitize info) =
      TopicResolver.resolveDispatchTopic info :=
    resolveDispatchTopic_sanitizeRequest ..
  rw [notices_serve, ← appTopic_eq_self_iff (dot_mem_resolveDispatchTopic info)]
  simp only [request_mem_notices_iff decoded, sanitized]
  unfold operationTopic
  generalize (arrival.course (proxy.sanitizing patterns) dynamic engine).sendsRequest = sends
  cases sends with
  | false => simp
  | true =>
    simp only [true_and, forall_eq, Bool.true_eq_false, false_or]
    exact eq_comm

/-- The small gateway under `raw_audit`, with its apps. -/
def auditing (apps : List SpectraAppConfig) : DynamicGatewayState :=
  { smallDynamic [] [] with dispatchPolicy := .rawAudit, apps := apps }

/-- An app that leaves the topics of mutations alone. -/
def plainApp : SpectraAppConfig := ⟨"default", [], [], "127.0.0.1:4000", some "mutation"⟩

/-- The patterns on texts that have nothing to mask. -/
def nothingToMask : Patterns := ⟨id, id⟩

theorem request_on_operation_topic_iff_plain : ∃ info,
    ∀ topic, Notice.request topic ∈ noticesOf (smallProxy.sanitizing nothingToMask)
        (auditing [plainApp]) obliging (fun _ => none) (smallArrival .post [] payBody) →
      topic = operationTopic (auditing [plainApp]) (admitted (smallProxy.sanitizing nothingToMask)
        (auditing [plainApp]) (smallArrival .post [] payBody)) info := by
  have forwards : ∃ info, ((smallArrival .post [] payBody).course (smallProxy.sanitizing nothingToMask)
      (auditing [plainApp]) fun _ => none).info = some info := ⟨_, rfl⟩
  obtain ⟨info, forwards⟩ := forwards
  refine ⟨info, (request_on_operation_topic_iff nothingToMask smallProxy _ obliging (fun _ => none) _
    info forwards).mpr (.inr (.inr ?_))⟩
  cases forwards
  decide +kernel

/-- The request of the default app and its success are on different topics. -/
theorem request_off_operation_topic :
    noticesOf (smallProxy.sanitizing nothingToMask) (auditing []) obliging (fun _ => none)
        (smallArrival .post [] payBody) =
      [.request "mutation.pay", .terminal "mutation.default.pay" .success] := by
  decide +kernel

/-! ## Sinks that agree -/

theorem terminal_mem_failedNotices {policy : ModeADispatchPolicy} {operation topic : String}
    {status : OperationOutcome} (member : Notice.terminal topic status ∈ failedNotices policy operation) :
    topic = TopicResolver.failedTopic operation := by
  unfold failedNotices at member
  split at member
  · cases member
  · cases List.mem_singleton.mp member
    rfl

/-- A failure is for the failed topic of the operation. -/
theorem failure_mem_notices {proxy : CompositeServiceProxy} {dynamic : DynamicGatewayState}
    {exchange : Exchange} {audited : Bool} {outcome : UpstreamOutcome} {course : Course}
    {info : RequestInfo} (isInfo : course.info = some info) {topic : String}
    (member : Notice.terminal topic .failed ∈ course.notices proxy dynamic exchange audited outcome) :
    topic = TopicResolver.failedTopic (operationTopic dynamic exchange info) := by
  cases course with
  | rejected known rejection =>
    cases isInfo
    simp only [Course.notices] at member
    cases List.mem_append.mp member with
    | inl audit => cases audited <;> simp at audit
    | inr failure => exact terminal_mem_failedNotices failure
  | fingerprintTaken known found =>
    cases isInfo
    simp only [Course.notices] at member
    split at member
    · cases member
    · exact terminal_mem_failedNotices member
  | disabled known route =>
    cases isInfo
    exact terminal_mem_failedNotices member
  | command known route =>
    simp only [Course.notices] at member
    cases List.mem_singleton.mp member
  | forwarded known policy =>
    cases isInfo
    simp only [Course.notices, ingressNotices_eq] at member
    cases List.mem_append.mp member with
    | inl ingress => split at ingress <;> simp at ingress
    | inr reported =>
      -- no answer and a status of an error are the two failures of a forwarded request
      cases outcome with
      | connectionError => exact terminal_mem_failedNotices reported
      | responded status =>
        simp only [reportedNotices] at reported
        split at reported
        · exact terminal_mem_failedNotices reported
        · split at reported <;> simp at reported
  | unrouted | edge | keyTaken _ | unread | undecoded => cases isInfo

/-- The sinks tell a failure that the gateway reports as one message on the failed topic of the
    operation exactly when it can be encoded, every broker takes its first message, and that
    behind NATS does not take a second. -/
theorem failure_told_once_iff (proxy : CompositeServiceProxy) (dynamic : DynamicGatewayState)
    (environment : Environment) (engine : Engine) (arrival : Arrival) (info : RequestInfo)
    (topic : String) (event : TerminalEvent)
    (decoded : (arrival.course proxy dynamic engine).info = some info)
    (reported : Publication.terminal topic event ∈
      publications (run environment (serve proxy dynamic arrival) ⟨engine, []⟩).2.trace)
    (failed : event.status = .failed) (encoder : JsonEventEncoder) (durationMs : Nat)
    (kafka : KafkaDispatch) (redisStreams : RedisStreamsDispatch)
    (natsBroker kafkaBroker redisBroker : Broker) :
    (∃ payload, ∀ side ∈ [(.nats, natsBroker), (.kafka kafka, kafkaBroker),
        (.redisStreams redisStreams, redisBroker)],
      ToldOnce side.1 (TopicResolver.failedTopic
          (operationTopic dynamic (admitted proxy dynamic arrival) info)) payload
        (delivered side.2 (side.1.dispatchTerminalEvent encoder topic event durationMs))) ↔
      (encoder.encodeCompletion event durationMs).isOk = true ∧
        ∀ side ∈ [(Sink.nats, natsBroker), (.kafka kafka, kafkaBroker),
          (.redisStreams redisStreams, redisBroker)], side.1.TellsOnce side.2 := by
  have noticed : Notice.terminal topic event.status ∈
      noticesOf proxy dynamic environment engine arrival :=
    List.mem_map_of_mem (f := Publication.notice) reported
  rw [failed, notices_serve] at noticed
  rw [← failure_mem_notices decoded noticed]
  simp only [toldOnce_dispatchTerminalEvent_iff _ failed, List.forall_mem_cons, List.not_mem_nil,
    false_imp_iff, implies_true, and_true]
  cases encoder.encodeCompletion event durationMs with
  | error error => simp [Except.isOk, Except.toBool]
  | ok text => simp [Except.isOk, Except.toBool]

/-- There is nobody at the upstream. -/
def abandoned : Arrival :=
  { smallArrival .post [] payBody with upstream := .unreachable ⟨"ConnectRefused"⟩ }

/-- Every event as the same text. -/
def anyEncoder : JsonEventEncoder := ⟨fun _ => .ok "\x7b\x7d", fun _ _ => .ok "\x7b\x7d"⟩

def takesAll : Broker := fun _ => .ok ()

/-- A broker that is gone after the first message. -/
def takesFirst : Broker
  | 0 => .ok ()
  | _ + 1 => .error "NATS publish error: disconnected"

theorem abandoned_reported : ∃ info event,
    (abandoned.course smallProxy (smallDynamic [] []) fun _ => none).info = some info ∧
      Publication.terminal "mutation.default.pay.failed" event ∈ publications
        (run obliging (serve smallProxy (smallDynamic [] []) abandoned) ⟨fun _ => none, []⟩).2.trace ∧
      event.status = .failed :=
  ⟨_, _, rfl, List.mem_singleton.mpr rfl, rfl⟩

/-- NATS loses its second message. -/
theorem failure_told_once_iff_lost : ∃ info event payload,
    Publication.terminal "mutation.default.pay.failed" event ∈ publications
        (run obliging (serve smallProxy (smallDynamic [] []) abandoned) ⟨fun _ => none, []⟩).2.trace ∧
      ∀ side ∈ [(Sink.nats, takesFirst), (.kafka {}, takesAll), (.redisStreams {}, takesAll)],
        ToldOnce side.1 (TopicResolver.failedTopic (operationTopic (smallDynamic [] [])
            (admitted smallProxy (smallDynamic [] []) abandoned) info)) payload
          (delivered side.2 (side.1.dispatchTerminalEvent anyEncoder "mutation.default.pay.failed" event 0)) := by
  obtain ⟨info, event, decoded, reported, failed⟩ := abandoned_reported
  obtain ⟨payload, told⟩ := (failure_told_once_iff smallProxy (smallDynamic [] []) obliging
    (fun _ => none) abandoned info _ event decoded reported failed anyEncoder 0 {} {} takesFirst takesAll
    takesAll).mpr ⟨rfl, by simp [Sink.TellsOnce, takesFirst, takesAll, Except.isOk, Except.toBool]⟩
  exact ⟨info, event, payload, reported, told⟩

/-- Where every broker takes what it is sent, NATS alone tells the failure twice. -/
theorem failure_told_twice : ∃ event,
    Publication.terminal "mutation.default.pay.failed" event ∈ publications
        (run obliging (serve smallProxy (smallDynamic [] []) abandoned) ⟨fun _ => none, []⟩).2.trace ∧
      event.status = .failed ∧
      [Sink.nats, .kafka {}, .redisStreams {}].map (fun sink => (delivered takesAll
          (sink.dispatchTerminalEvent anyEncoder "mutation.default.pay.failed" event 0)).map
          BrokerMessage.destination) =
        [["mutation.default.pay.failed", "mutation.default.pay.failed.failed"],
          ["spectra.mutation.default.pay.failed"], ["spectra:mutation:default:pay:failed"]] :=
  ⟨_, List.mem_singleton.mpr rfl, rfl, by decide +kernel⟩

end SpectraGQL.Gateway
