import SpectraGQL.Protocol.Json
import SpectraGQL.Http

/-! # The `graphql-transport-ws` protocol (`subscriptions/protocol.rs`)

The messages of both sides, and the frames of a WebSocket as the actor of a connection sees
them.
-/

namespace SpectraGQL.Subscriptions

open SpectraGQL.Http SpectraGQL.Protocol

inductive ClientMessage where
  | connectionInit (payload : Option Json)
  | ping (payload : Option Json)
  | pong (payload : Option Json)
  | subscribe (id query : String) (vars : Option Json)
  | complete (id : String)

inductive ServerMessage where
  | connectionAck (payload : Option Json)
  | ping (payload : Option Json)
  | pong (payload : Option Json)
  /-- A result with its data. -/
  | next (id : String) (data : Json)
  /-- The errors of a query. -/
  | error (id : String) (payload : List Json)
  | complete (id : String)

namespace CloseCodes

def badRequest : Nat := 4400

def unauthorized : Nat := 4401

def subscriberAlreadyExists : Nat := 4409

end CloseCodes

/-- A frame of the WebSocket. -/
inductive WsMessage where
  | text (content : String)
  | binary (data : Bytes)
  | ping (data : Bytes)
  | pong (data : Bytes)
  | close (code : Nat) (reason : String)

/-- `Message::to_text`. -/
def WsMessage.toText : WsMessage → Option String
  | text content => some content
  | binary data => fromUtf8 data
  | ping data => fromUtf8 data
  | pong data => fromUtf8 data
  | close _ reason => some reason

/-- What an actor between messages may wake up to. -/
inductive LoopEvent where
  /-- The first message of the channel. -/
  | outgoing (message : ServerMessage)
  /-- It is time for a heartbeat. -/
  | pingTick
  | incoming (message : WsMessage)
  | readError
  | streamEnded

end SpectraGQL.Subscriptions
