import SpectraGQL.Telemetry.Event
import SpectraGQL.Interaction.Prog

/-! # NATS, Kafka and Redis Streams (`telemetry/{sink,nats,kafka,redis_streams}.rs`)

A sink is a program that sends messages to its broker.  Each broker has its own form of a
message and its own name for a topic; `delivered_sendEncoded` is what all operations but one
come down to, and `NatsDispatch.delivered_dispatchTerminalEvent` is the one.
-/

namespace SpectraGQL.Telemetry

open Interaction SpectraGQL.Http SpectraGQL.Protocol

/-! ## Messages -/

/-- A message in the form of its broker. -/
inductive BrokerMessage where
  | subject (name data : String)
  /-- A record with its headers; the time that it carries is left out. -/
  | record (topic : String) (partition : Int) (key : Option String)
      (headers : List (String × String)) (value : String)
  /-- The arguments of `XADD`, under an id that the server chooses. -/
  | entry (stream : String) (fields : List (String × String))
  deriving DecidableEq, Repr

namespace BrokerMessage

/-- Where the broker files the message. -/
def destination : BrokerMessage → String
  | subject name _ => name
  | record topic _ _ _ _ => topic
  | entry stream _ => stream

/-- The encoded event that the message carries. -/
def payload : BrokerMessage → Option String
  | subject _ data => some data
  | record _ _ _ _ value => some value
  | entry _ fields => fields.lookup "payload"

end BrokerMessage

/-- What `serde_json` makes of the events, always as UTF-8.  The time that a request has taken
    is not part of the modelled event. -/
structure JsonEventEncoder where
  encodeRequest : RequestInfo → Except String String
  encodeCompletion : TerminalEvent → Nat → Except String String

/-- Sending may fail at the connection, at the broker, or at its acknowledgement. -/
abbrev sinkSignature : Signature := ⟨BrokerMessage, fun _ => Except String Unit⟩

abbrev SinkProg := Prog sinkSignature (Except String Unit)

def send (message : BrokerMessage) : SinkProg :=
  Prog.perform (S := sinkSignature) message

/-- Send an event, unless it cannot be encoded. -/
def sendEncoded (encoded : Except String String) (message : String → BrokerMessage) : SinkProg :=
  match encoded with
  | .ok payload => send (message payload)
  | .error error => return .error error

/-- The name of an outcome, as `{:?}` writes it. -/
def OperationOutcome.debug : OperationOutcome → String
  | success => "Success"
  | failed => "Failed"
  | rejected => "Rejected"

def replaceChar (old new : Char) (text : String) : String :=
  String.ofList (text.toList.map fun char => if char = old then new else char)

def operationOf (info : RequestInfo) : String :=
  (info.gql.bind GraphQLRequestInfo.operationName).getD "unknown"

/-! ## NATS -/

namespace NatsDispatch

def publish (topic payload : String) : SinkProg := send (.subject topic payload)

def dispatchRequestInfo (encoder : JsonEventEncoder) (info : RequestInfo) : SinkProg :=
  sendEncoded (encoder.encodeRequest info) (.subject (TopicResolver.resolveDispatchTopic info))

/-- A failure is sent twice: to the topic, and to the failed topic of the topic. -/
def dispatchTerminalEvent (encoder : JsonEventEncoder) (topic : String) (event : TerminalEvent)
    (durationMs : Nat) : SinkProg :=
  match encoder.encodeCompletion event durationMs with
  | .error error => return .error error
  | .ok payload => do
    match ← publish topic payload with
    | .error error => return .error error
    | .ok () =>
      if event.status = .failed then
        let _ ← publish (TopicResolver.failedTopic topic) payload
        return .ok ()
      else return .ok ()

def dispatchPayload (topic payload : String) : SinkProg := publish topic payload

end NatsDispatch

/-! ## Kafka -/

structure KafkaDispatch where
  topicPrefix : String := "spectra"
  partition : Int := 0

namespace KafkaDispatch

def kafkaTopic (dispatch : KafkaDispatch) (topic : String) : String :=
  dispatch.topicPrefix ++ "." ++ replaceChar ':' '.' topic

def publish (dispatch : KafkaDispatch) (topic payload : String) : SinkProg :=
  send (.record (dispatch.kafkaTopic topic) dispatch.partition none [] payload)

def dispatchRequestInfo (dispatch : KafkaDispatch) (encoder : JsonEventEncoder)
    (info : RequestInfo) : SinkProg :=
  sendEncoded (encoder.encodeRequest info)
    (.record (dispatch.kafkaTopic (TopicResolver.resolveDispatchTopic info)) dispatch.partition
      (some info.requestId)
      [("event_type", "Command"), ("request_id", info.requestId),
        ("hlc", info.hlc.toCompactString), ("operation", operationOf info)])

def dispatchTerminalEvent (dispatch : KafkaDispatch) (encoder : JsonEventEncoder) (topic : String)
    (event : TerminalEvent) (durationMs : Nat) : SinkProg :=
  sendEncoded (encoder.encodeCompletion event durationMs)
    (.record (dispatch.kafkaTopic topic) dispatch.partition (some event.request.requestId)
      [("event_type", "TerminalEvent"), ("status", event.status.debug),
        ("request_id", event.request.requestId), ("hlc", event.hlc.toCompactString),
        ("operation", event.operationName.getD "unknown"), ("duration_ms", toString durationMs)])

def dispatchPayload (dispatch : KafkaDispatch) (topic payload : String) : SinkProg :=
  dispatch.publish topic payload

end KafkaDispatch

/-! ## Redis Streams -/

structure RedisStreamsDispatch where
  streamPrefix : String := "spectra"

namespace RedisStreamsDispatch

def streamKey (dispatch : RedisStreamsDispatch) (topic : String) : String :=
  dispatch.streamPrefix ++ ":" ++ replaceChar '.' ':' topic

def publish (dispatch : RedisStreamsDispatch) (topic payload : String) : SinkProg :=
  send (.entry (dispatch.streamKey topic) [("event_type", "Event"), ("payload", payload)])

def dispatchRequestInfo (dispatch : RedisStreamsDispatch) (encoder : JsonEventEncoder)
    (info : RequestInfo) : SinkProg :=
  sendEncoded (encoder.encodeRequest info) fun payload =>
    .entry (dispatch.streamKey (TopicResolver.resolveDispatchTopic info))
      [("event_type", "Command"), ("request_id", info.requestId), ("hlc", info.hlc.toCompactString),
        ("operation", operationOf info), ("payload", payload)]

def dispatchTerminalEvent (dispatch : RedisStreamsDispatch) (encoder : JsonEventEncoder)
    (topic : String) (event : TerminalEvent) (durationMs : Nat) : SinkProg :=
  sendEncoded (encoder.encodeCompletion event durationMs) fun payload =>
    .entry (dispatch.streamKey topic)
      [("event_type", "TerminalEvent"), ("status", event.status.debug),
        ("request_id", event.request.requestId), ("hlc", event.hlc.toCompactString),
        ("operation", event.operationName.getD "unknown"), ("duration_ms", toString durationMs),
        ("payload", payload)]

def dispatchPayload (dispatch : RedisStreamsDispatch) (topic payload : String) : SinkProg :=
  dispatch.publish topic payload

end RedisStreamsDispatch

/-! ## Sinks -/

inductive Sink where
  | nats
  | kafka (dispatch : KafkaDispatch)
  | redisStreams (dispatch : RedisStreamsDispatch)

namespace Sink

def dispatchRequestInfo (sink : Sink) (encoder : JsonEventEncoder) (info : RequestInfo) : SinkProg :=
  match sink with
  | nats => NatsDispatch.dispatchRequestInfo encoder info
  | kafka dispatch => dispatch.dispatchRequestInfo encoder info
  | redisStreams dispatch => dispatch.dispatchRequestInfo encoder info

def dispatchTerminalEvent (sink : Sink) (encoder : JsonEventEncoder) (topic : String)
    (event : TerminalEvent) (durationMs : Nat) : SinkProg :=
  match sink with
  | nats => NatsDispatch.dispatchTerminalEvent encoder topic event durationMs
  | kafka dispatch => dispatch.dispatchTerminalEvent encoder topic event durationMs
  | redisStreams dispatch => dispatch.dispatchTerminalEvent encoder topic event durationMs

def dispatchPayload (sink : Sink) (topic payload : String) : SinkProg :=
  match sink with
  | nats => NatsDispatch.dispatchPayload topic payload
  | kafka dispatch => dispatch.dispatchPayload topic payload
  | redisStreams dispatch => dispatch.dispatchPayload topic payload

/-- What the broker calls a topic. -/
def destination (sink : Sink) (topic : String) : String :=
  match sink with
  | nats => topic
  | kafka dispatch => dispatch.kafkaTopic topic
  | redisStreams dispatch => dispatch.streamKey topic

end Sink

/-! ## Delivery -/

/-- How a broker answers to the messages it is sent, in their order. -/
abbrev Broker := Nat → Except String Unit

/-- The messages that the broker has taken, and how many it was sent. -/
structure Deliveries where
  taken : List BrokerMessage := []
  sent : Nat := 0

def Broker.handle (broker : Broker) (message : BrokerMessage) (deliveries : Deliveries) :
    Except String Unit × Deliveries :=
  match broker deliveries.sent with
  | .ok () => (.ok (), ⟨deliveries.taken ++ [message], deliveries.sent + 1⟩)
  | .error error => (.error error, ⟨deliveries.taken, deliveries.sent + 1⟩)

/-- The messages that a broker has taken of a sink. -/
def delivered (broker : Broker) (program : SinkProg) : List BrokerMessage :=
  (program.interp (S := sinkSignature) broker.handle {}).2.taken

section Delivered

variable {broker : Broker} {sent : Nat}

theorem interp_send_of_ok (accepts : broker sent = .ok ()) (message : BrokerMessage)
    (taken : List BrokerMessage) :
    (send message).interp (S := sinkSignature) broker.handle ⟨taken, sent⟩ =
      (.ok (), ⟨taken ++ [message], sent + 1⟩) := by
  unfold send Prog.perform
  simp only [Prog.interp_call, Prog.interp_ret, Broker.handle, accepts]

theorem interp_send_of_error {error : String} (refuses : broker sent = .error error)
    (message : BrokerMessage) (taken : List BrokerMessage) :
    (send message).interp (S := sinkSignature) broker.handle ⟨taken, sent⟩ =
      (.error error, ⟨taken, sent + 1⟩) := by
  unfold send Prog.perform
  simp only [Prog.interp_call, Prog.interp_ret, Broker.handle, refuses]

theorem delivered_sendEncoded (broker : Broker) (payload : String)
    (message : String → BrokerMessage) :
    delivered broker (sendEncoded (.ok payload) message) =
      if (broker 0).isOk then [message payload] else [] := by
  unfold delivered sendEncoded
  cases answer : broker 0 with
  | ok _ =>
    rw [interp_send_of_ok answer]
    rfl
  | error error =>
    rw [interp_send_of_error answer]
    rfl

theorem delivered_sendEncoded_error (broker : Broker) (error : String)
    (message : String → BrokerMessage) :
    delivered broker (sendEncoded (.error error) message) = [] := rfl

/-- The second message is for the failed topic of what the caller says is the topic. -/
theorem NatsDispatch.delivered_dispatchTerminalEvent (broker : Broker) {encoder : JsonEventEncoder}
    {topic payload : String} {event : TerminalEvent} {durationMs : Nat}
    (encodes : encoder.encodeCompletion event durationMs = .ok payload)
    (failed : event.status = .failed) :
    delivered broker (dispatchTerminalEvent encoder topic event durationMs) =
      if (broker 0).isOk then
        .subject topic payload ::
          if (broker 1).isOk then [.subject (TopicResolver.failedTopic topic) payload] else []
      else [] := by
  unfold delivered dispatchTerminalEvent publish
  rw [encodes]
  dsimp only
  rw [Prog.interp_bind]
  cases first : broker 0 with
  | error error =>
    rw [interp_send_of_error first]
    rfl
  | ok _ =>
    rw [interp_send_of_ok first]
    dsimp only
    rw [if_pos failed, Prog.interp_bind]
    -- the answer to the second message is thrown away
    cases second : broker 1 with
    | error error =>
      rw [interp_send_of_error second]
      rfl
    | ok _ =>
      rw [interp_send_of_ok second]
      rfl

end Delivered

/-! ## One message for one topic -/

/-- The broker has taken one message, for the topic, and with the payload. -/
def ToldOnce (sink : Sink) (topic payload : String) (messages : List BrokerMessage) : Prop :=
  messages.map (fun message => (message.destination, message.payload)) =
    [(sink.destination topic, some payload)]

instance (sink : Sink) (topic payload : String) (messages : List BrokerMessage) :
    Decidable (ToldOnce sink topic payload messages) :=
  inferInstanceAs (Decidable (_ = _))

section ToldOnce

variable {sink : Sink} {encoder : JsonEventEncoder} {topic payload : String} {event : TerminalEvent}
  {durationMs : Nat}

theorem not_toldOnce_nil : ¬ ToldOnce sink topic payload [] := by
  intro told
  cases told

/-- A sink that sends one message for the topic tells it as far as its broker takes it. -/
theorem toldOnce_sendEncoded_iff (broker : Broker) {encoded : Except String String}
    {message : String → BrokerMessage}
    (destined : ∀ text, (message text).destination = sink.destination topic)
    (carries : ∀ text, (message text).payload = some text) :
    ToldOnce sink topic payload (delivered broker (sendEncoded encoded message)) ↔
      encoded = .ok payload ∧ (broker 0).isOk = true := by
  cases encoded with
  | error error =>
    rw [delivered_sendEncoded_error]
    exact iff_of_false not_toldOnce_nil (by simp)
  | ok text =>
    rw [delivered_sendEncoded]
    cases (broker 0).isOk with
    | false => exact iff_of_false not_toldOnce_nil (by simp)
    | true => simp [ToldOnce, destined, carries]

/-- NATS tells a failure once only where its second message is lost. -/
theorem toldOnce_nats_iff (broker : Broker) (failed : event.status = .failed) :
    ToldOnce .nats topic payload
        (delivered broker (NatsDispatch.dispatchTerminalEvent encoder topic event durationMs)) ↔
      encoder.encodeCompletion event durationMs = .ok payload ∧
        (broker 0).isOk = true ∧ (broker 1).isOk = false := by
  cases encodes : encoder.encodeCompletion event durationMs with
  | error error =>
    unfold NatsDispatch.dispatchTerminalEvent
    rw [encodes]
    exact iff_of_false not_toldOnce_nil (by simp)
  | ok text =>
    rw [NatsDispatch.delivered_dispatchTerminalEvent broker encodes failed]
    cases (broker 0).isOk with
    | false => exact iff_of_false not_toldOnce_nil (by simp)
    | true =>
      cases (broker 1).isOk <;>
        simp [ToldOnce, Sink.destination, BrokerMessage.destination, BrokerMessage.payload]

/-- How the broker of a sink has to answer for a failure to be told once. -/
def Sink.TellsOnce (sink : Sink) (broker : Broker) : Prop :=
  match sink with
  | nats => (broker 0).isOk = true ∧ (broker 1).isOk = false
  | kafka _ => (broker 0).isOk = true
  | redisStreams _ => (broker 0).isOk = true

theorem toldOnce_dispatchTerminalEvent_iff (broker : Broker) (failed : event.status = .failed) :
    ToldOnce sink topic payload
        (delivered broker (sink.dispatchTerminalEvent encoder topic event durationMs)) ↔
      encoder.encodeCompletion event durationMs = .ok payload ∧ sink.TellsOnce broker := by
  cases sink with
  | nats => exact toldOnce_nats_iff broker failed
  | kafka dispatch => exact toldOnce_sendEncoded_iff broker (fun _ => rfl) fun _ => rfl
  | redisStreams dispatch => exact toldOnce_sendEncoded_iff broker (fun _ => rfl) fun _ => rfl

end ToldOnce

end SpectraGQL.Telemetry
