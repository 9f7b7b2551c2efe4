import SpectraGQL.Interaction.OnceCell
import SpectraGQL.Telemetry.Nats

/-! # Drivers with one connection (`telemetry/{kafka,rabbitmq,iggy,sierradb,redis_streams,resp}.rs`)

Kafka, RabbitMQ, Iggy, SierraDB and Redis Streams make the same use of their brokers: one connection
is made by whoever sends first, kept in a `OnceCell` and never given up.  What differs is the form
of a message, the step between connection and message, and how errors are told.
-/

namespace SpectraGQL.Telemetry

open Interaction SpectraGQL.Http SpectraGQL.Protocol

/-! ## Messages -/

/-- `iggy::Identifier`. -/
inductive IggyIdentifier where
  | named (name : String)
  | numeric (number : Nat)
  deriving DecidableEq, Repr

inductive DriverMessage where
  /-- A record of Kafka, or an entry of Redis Streams. -/
  | broker (message : BrokerMessage)
  /-- `basic_publish`; the table of headers is a map. -/
  | delivery (exchange routingKey contentType : String) (deliveryMode : Nat)
      (headers : List (String × String)) (body : String)
  | iggy (stream topic : IggyIdentifier) (payload : String)
  /-- `EAPPEND`, for any version. -/
  | eappend (stream eventType payload : String)
  deriving DecidableEq, Repr

/-- The text that a message carries. -/
def DriverMessage.payload : DriverMessage → Option String
  | broker message => message.payload
  | delivery _ _ _ _ _ body => some body
  | iggy _ _ payload => some payload
  | eappend _ _ payload => some payload

/-- What is asked of the broker, over the connection with the given number. -/
inductive DriverCall where
  /-- The channel, or the client of the partition, that a message goes through. -/
  | openChannel (connection : Nat) (message : DriverMessage)
  | send (connection : Nat) (message : DriverMessage)
  | confirm (connection : Nat)
  deriving DecidableEq, Repr

/-- No answer comes to a dispatch that is dropped while it waits. -/
abbrev driverSignature : Signature := ⟨DriverCall, fun _ => Option (Except String Unit)⟩

abbrev DriverProg := CellProg driverSignature WriteResult

def DriverCall.connection : DriverCall → Option Nat
  | openChannel connection _ | send connection _ | confirm connection => some connection

/-! ## Sending -/

/-- How a driver sends: the texts of its errors, and the steps besides the message itself. -/
structure DriverSteps where
  connectionError : String
  /-- For a driver that opens something for each message. -/
  channelError : Option String := none
  sendError : String
  /-- The confirmation is waited for, and not looked at. -/
  confirms : Bool := false

namespace DriverSteps

def openFor (steps : DriverSteps) (connection : Nat) (message : DriverMessage) :
    CellProg driverSignature (Option (Except String Unit)) :=
  match steps.channelError with
  | none => return some (.ok ())
  | some prefixText => do
    match ← CellProg.other (T := driverSignature) (.openChannel connection message) with
    | none => return none
    | some (.error error) => return some (.error (prefixText ++ error))
    | some (.ok ()) => return some (.ok ())

def confirmation (steps : DriverSteps) (connection : Nat) : DriverProg :=
  if steps.confirms then do
    match ← CellProg.other (T := driverSignature) (.confirm connection) with
    | none => return none
    | some _ => return some (.ok ())
  else return some (.ok ())

/-- `produce_record`, `publish_raw`, `send_message`, `append_event` and `write_to_stream`. -/
def sendOver (steps : DriverSteps) (message : DriverMessage) : DriverProg := do
  match ← getOrTryInit with
  | none => return none
  | some (.error error) => return some (.error ⟨.connectError, steps.connectionError ++ error⟩)
  | some (.ok connection) =>
    match ← steps.openFor connection message with
    | none => return none
    | some (.error error) => return some (.error ⟨.connectError, error⟩)
    | some (.ok ()) =>
      match ← CellProg.other (T := driverSignature) (.send connection message) with
      | none => return none
      | some (.error error) => return some (.error ⟨.writeError, steps.sendError ++ error⟩)
      | some (.ok ()) => steps.confirmation connection

end DriverSteps

/-! ## Dispatches -/

theorem ok_of_mapError {α δ ζ : Type} {tell : δ → ζ} {result : Except δ α} {value : α}
    (mapped : result.mapError tell = .ok value) : result = .ok value := by
  cases result with
  | error error => cases mapped
  | ok given =>
    cases mapped
    rfl

theorem error_of_mapError {α δ ζ : Type} {tell : δ → ζ} {result : Except δ α} {failure : ζ}
    (mapped : result.mapError tell = .error failure) : ∃ error, result = .error error ∧ failure = tell error := by
  cases result with
  | error error =>
    cases mapped
    exact ⟨error, rfl, rfl⟩
  | ok given => cases mapped

inductive DispatchOp where
  | requestInfo (info : RequestInfo)
  | terminalEvent (topic : String) (event : TerminalEvent) (durationMs : Nat)
  | payload (topic payload : String)
  /-- `EventSink::publish`. -/
  | publish (topic : String) (payload : Bytes)

def serializationFailed (kind error : String) : WriteFailure :=
  ⟨.custom "SerializationError", kind ++ " serialization error: " ++ error⟩

namespace DispatchOp

/-- The topic of the gateway. -/
def topic : DispatchOp → String
  | requestInfo info => TopicResolver.resolveDispatchTopic info
  | terminalEvent topic _ _ | payload topic _ | publish topic _ => topic

/-- The text to be sent.  Bytes that are not UTF-8 are sent as an empty text. -/
def text (encoder : JsonEventEncoder) : DispatchOp → Except WriteFailure String
  | requestInfo info => (encoder.encodeRequest info).mapError (serializationFailed "Request")
  | terminalEvent _ event durationMs =>
    (encoder.encodeCompletion event durationMs).mapError (serializationFailed "CompletionEvent")
  | payload _ text => .ok text
  | publish _ bytes => .ok ((fromUtf8 bytes).getD "")

/-- What Kafka, RabbitMQ and Redis Streams send along with an event. -/
def headers : DispatchOp → List (String × String)
  | requestInfo info =>
    [("event_type", "Command"), ("request_id", info.requestId), ("hlc", info.hlc.toCompactString),
      ("operation", operationOf info)]
  | terminalEvent _ event durationMs =>
    [("event_type", "TerminalEvent"), ("status", event.status.debug), ("request_id", event.request.requestId),
      ("hlc", event.hlc.toCompactString), ("operation", event.operationName.getD "unknown"),
      ("duration_ms", toString durationMs)]
  | payload _ _ | publish _ _ => []

end DispatchOp

namespace KafkaDispatch

def steps : DriverSteps where
  connectionError := "Kafka connection error: "
  channelError := some "Kafka partition error: "
  sendError := "Kafka produce error: "

/-- The request that an event is about is the key of its record. -/
def recordKey : DispatchOp → Option String
  | .requestInfo info => some info.requestId
  | .terminalEvent _ event _ => some event.request.requestId
  | .payload _ _ | .publish _ _ => none

def buildRecord (dispatch : KafkaDispatch) (op : DispatchOp) (text : String) : DriverMessage :=
  .broker (.record (dispatch.kafkaTopic op.topic) dispatch.partition (recordKey op) op.headers text)

end KafkaDispatch

structure RabbitMqDispatch where
  exchange : String := "amq.topic"
  routingPrefix : String := "spectra"

namespace RabbitMqDispatch

def steps : DriverSteps where
  connectionError := "RabbitMQ connection error: "
  channelError := some "RabbitMQ channel error: "
  sendError := "RabbitMQ publish error: "
  confirms := true

def routingKey (dispatch : RabbitMqDispatch) (topic : String) : String :=
  dispatch.routingPrefix ++ "." ++ replaceChar ':' '.' topic

def buildDelivery (dispatch : RabbitMqDispatch) (op : DispatchOp) (text : String) : DriverMessage :=
  .delivery dispatch.exchange (dispatch.routingKey op.topic) "application/json" 2 op.headers text

end RabbitMqDispatch

/-- The crate `iggy`: which names identify, and how building a message fails. -/
structure IggyCrate where
  named : String → Bool
  buildMessage : String → Except String Unit

def IggyCrate.identifier (crate : IggyCrate) (name : String) : IggyIdentifier :=
  if crate.named name then .named name else .numeric 1

structure IggyDispatch where
  crate : IggyCrate
  stream : String := "spectra"
  topicPrefix : String := "spectra"

namespace IggyDispatch

def steps : DriverSteps where
  connectionError := "Iggy connection error: "
  sendError := "Iggy send error: "

def topicId (dispatch : IggyDispatch) (topic : String) : IggyIdentifier :=
  dispatch.crate.identifier (dispatch.topicPrefix ++ "." ++ replaceChar ':' '.' topic)

def buildMessage (dispatch : IggyDispatch) (op : DispatchOp) (text : String) : Except WriteFailure DriverMessage :=
  match dispatch.crate.buildMessage text with
  | .error error => .error ⟨.custom "MessageBuildError",
      "Failed to build Iggy message: Failed to build IggyMessage: " ++ error⟩
  | .ok () => .ok (.iggy (dispatch.crate.identifier dispatch.stream) (dispatch.topicId op.topic) text)

end IggyDispatch

structure SierraDbDispatch where
  streamPrefix : String := "spectra"

namespace SierraDbDispatch

def steps : DriverSteps where
  connectionError := "SierraDB connection error: "
  sendError := "SierraDB EAPPEND error: "

def streamId (dispatch : SierraDbDispatch) (topic : String) : String :=
  dispatch.streamPrefix ++ ":" ++ replaceChar '.' ':' topic

def eventType : DispatchOp → String
  | .requestInfo info => (info.gql.bind GraphQLRequestInfo.operationName).getD "Command"
  | .terminalEvent _ event _ => "TerminalEvent:" ++ event.status.debug
  | .payload _ _ | .publish _ _ => "Event"

def buildEappendCmd (dispatch : SierraDbDispatch) (op : DispatchOp) (text : String) : DriverMessage :=
  .eappend (dispatch.streamId op.topic) (eventType op) text

end SierraDbDispatch

namespace RedisStreamsDispatch

def steps : DriverSteps where
  connectionError := "Redis connection error: "
  sendError := "Redis XADD error: "

/-- The fields of an event, its text last. -/
def fields (op : DispatchOp) (text : String) : List (String × String) :=
  match op with
  | .requestInfo _ | .terminalEvent _ _ _ => op.headers ++ [("payload", text)]
  | .payload _ _ | .publish _ _ => [("event_type", "Event"), ("payload", text)]

def buildXaddCmd (dispatch : RedisStreamsDispatch) (op : DispatchOp) (text : String) : DriverMessage :=
  .broker (.entry (dispatch.streamKey op.topic) (fields op text))

end RedisStreamsDispatch

/-! ## Drivers -/

inductive Driver where
  | kafka (dispatch : KafkaDispatch)
  | rabbitMq (dispatch : RabbitMqDispatch)
  | iggy (dispatch : IggyDispatch)
  | sierraDb (dispatch : SierraDbDispatch)
  | redisStreams (dispatch : RedisStreamsDispatch)

namespace Driver

def steps : Driver → DriverSteps
  | kafka _ => KafkaDispatch.steps
  | rabbitMq _ => RabbitMqDispatch.steps
  | iggy _ => IggyDispatch.steps
  | sierraDb _ => SierraDbDispatch.steps
  | redisStreams _ => RedisStreamsDispatch.steps

def build (driver : Driver) (op : DispatchOp) (text : String) : Except WriteFailure DriverMessage :=
  match driver with
  | kafka dispatch => .ok (dispatch.buildRecord op text)
  | rabbitMq dispatch => .ok (dispatch.buildDelivery op text)
  | iggy dispatch => dispatch.buildMessage op text
  | sierraDb dispatch => .ok (dispatch.buildEappendCmd op text)
  | redisStreams dispatch => .ok (dispatch.buildXaddCmd op text)

def messageOf (driver : Driver) (encoder : JsonEventEncoder) (op : DispatchOp) : Except WriteFailure DriverMessage := do
  let text ← op.text encoder
  driver.build op text

/-- `dispatch_request_info`, `dispatch_terminal_event`, `dispatch_payload` and `publish`. -/
def dispatch (driver : Driver) (encoder : JsonEventEncoder) (op : DispatchOp) : DriverProg :=
  match driver.messageOf encoder op with
  | .error failure => return some (.error failure)
  | .ok message => driver.steps.sendOver message

/-- What cannot be encoded or built is no failure of writing. -/
theorem notWrite_of_messageOf {driver : Driver} {encoder : JsonEventEncoder} {op : DispatchOp} {failure : WriteFailure}
    (failed : driver.messageOf encoder op = .error failure) : failure.errorType ≠ .writeError := by
  unfold messageOf at failed
  cases text : op.text encoder with
  | error error =>
    rw [text] at failed
    cases failed
    cases op with
    | requestInfo info =>
      obtain ⟨error, -, rfl⟩ := error_of_mapError text
      exact nofun
    | terminalEvent topic event durationMs =>
      obtain ⟨error, -, rfl⟩ := error_of_mapError text
      exact nofun
    | payload _ _ | publish _ _ => cases text
  | ok payload =>
    rw [text] at failed
    cases driver with
    | iggy dispatch =>
      change dispatch.buildMessage op payload = .error failure at failed
      unfold IggyDispatch.buildMessage at failed
      split at failed
      · cases failed
        exact nofun
      · cases failed
    | kafka _ | rabbitMq _ | sierraDb _ | redisStreams _ => cases failed

end Driver

/-! ## The messages of the sinks -/

/-- The driver of a sink that is known by its messages alone. -/
def Sink.driver : Sink → Option Driver
  | .nats => none
  | .kafka dispatch => some (.kafka dispatch)
  | .redisStreams dispatch => some (.redisStreams dispatch)

def Sink.program (sink : Sink) (encoder : JsonEventEncoder) : DispatchOp → SinkProg
  | .requestInfo info => sink.dispatchRequestInfo encoder info
  | .terminalEvent topic event durationMs => sink.dispatchTerminalEvent encoder topic event durationMs
  | .payload topic payload => sink.dispatchPayload topic payload
  | .publish topic bytes => sink.dispatchPayload topic ((fromUtf8 bytes).getD "")

/-- A sink sends the message that its driver sends. -/
theorem Sink.program_eq_send {sink : Sink} {driver : Driver} (isDriver : sink.driver = some driver)
    {encoder : JsonEventEncoder} {op : DispatchOp} {message : BrokerMessage}
    (built : driver.messageOf encoder op = .ok (.broker message)) : sink.program encoder op = send message := by
  unfold Driver.messageOf at built
  cases text : op.text encoder with
  | error failure =>
    rw [text] at built
    cases built
  | ok payload =>
    rw [text] at built
    cases sink with
    | nats => cases isDriver
    | kafka dispatch | redisStreams dispatch =>
      cases isDriver
      cases built
      cases op with
      | requestInfo info =>
        show sendEncoded (encoder.encodeRequest info) _ = _
        rw [ok_of_mapError text]
        rfl
      | terminalEvent topic event durationMs =>
        show sendEncoded (encoder.encodeCompletion event durationMs) _ = _
        rw [ok_of_mapError text]
        rfl
      | payload topic given | publish topic bytes =>
        cases text
        rfl

end SpectraGQL.Telemetry
