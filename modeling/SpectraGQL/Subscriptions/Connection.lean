import SpectraGQL.Subscriptions.Hub
import SpectraGQL.Subscriptions.Topic

/-! # The actor of a connection (`ConnectionActor::run` of `subscriptions/engine.rs`)

An actor waits for what comes next on its connection, and deals with it before it waits again.
It may wait any number of times; `run` bounds that number, and the stream counts as ended when
it is reached.
-/

namespace SpectraGQL.Subscriptions

open Interaction SpectraGQL.Http SpectraGQL.Protocol SubscriptionHub

/-- The crates that read and write messages. -/
structure SubscriptionCrates where
  /-- `serde_json::from_str::<ClientMessage>`. -/
  fromStr : String → Option ClientMessage
  /-- `serde_json::to_string`. -/
  toString : ServerMessage → Option String
  /-- `apollo_parser::Parser::new(query).parse()`. -/
  parse : String → SubscriptionDocument

structure ConnectionActor where
  connId : ConnectionId
  topicPrefix : String

/-- Whether the loop goes on, and whether the connection has been initialized by then. -/
inductive Flow where
  | goOn (initialized : Bool)
  | stop
  deriving DecidableEq, Repr

namespace ConnectionActor

def sendFrame (actor : ConnectionActor) (frame : WsMessage) : HubProg Bool :=
  perform (.send actor.connId frame)

/-- A message that cannot be written is not sent, and one that cannot be sent is lost. -/
def reply (crates : SubscriptionCrates) (actor : ConnectionActor) (message : ServerMessage) :
    HubProg Unit :=
  match crates.toString message with
  | some json => do
    let _ ← actor.sendFrame (.text json)
    return ()
  | none => return ()

/-- A close frame is the last that the client gets. -/
def closeWith (actor : ConnectionActor) (code : Nat) (reason : String) : HubProg Flow := do
  let _ ← actor.sendFrame (.close code reason)
  return .stop

def subscribe (crates : SubscriptionCrates) (actor : ConnectionActor) (initialized : Bool)
    (id query : String) (vars : Option Json) : HubProg Flow :=
  if !initialized then
    actor.closeWith CloseCodes.unauthorized "Unauthorized: connection_init required"
  else do
    if ← perform (.hasSubscription actor.connId id) then
      actor.closeWith CloseCodes.subscriberAlreadyExists
        ("Subscriber for '" ++ id ++ "' already exists")
    else
      match deriveSubscriptionTopic crates.parse actor.topicPrefix query vars with
      | .ok (topic, rootField) => do
        register actor.connId id topic rootField
        return .goOn initialized
      | .error error => do
        actor.reply crates (.error id [.object [("message", .string error)]])
        return .goOn initialized

def handleClientMessage (crates : SubscriptionCrates) (actor : ConnectionActor) (initialized : Bool) :
    ClientMessage → HubProg Flow
  | .connectionInit _ => do
    actor.reply crates (.connectionAck none)
    return .goOn true
  | .ping payload => do
    actor.reply crates (.pong payload)
    return .goOn initialized
  | .pong _ => return .goOn initialized
  | .subscribe id query vars => actor.subscribe crates initialized id query vars
  | .complete id => do
    deregister actor.connId id
    return .goOn initialized

/-- A frame without a text is ignored. -/
def handleText (crates : SubscriptionCrates) (actor : ConnectionActor) (initialized : Bool)
    (frame : WsMessage) : HubProg Flow :=
  match frame.toText with
  | none => return .goOn initialized
  | some text =>
    match crates.fromStr text with
    | none => actor.closeWith CloseCodes.badRequest "Invalid JSON"
    | some message => actor.handleClientMessage crates initialized message

/-- A frame that is neither a close nor a ping is read as a text, a pong too. -/
def handleFrame (crates : SubscriptionCrates) (actor : ConnectionActor) (initialized : Bool)
    (frame : WsMessage) : HubProg Flow :=
  match frame with
  | .close _ _ => return .stop
  | .ping data => do
    let _ ← actor.sendFrame (.pong data)
    return .goOn initialized
  | .text _ | .binary _ | .pong _ => actor.handleText crates initialized frame

/-- Send a message that the client does not wait for; the loop ends when that fails. -/
def push (crates : SubscriptionCrates) (actor : ConnectionActor) (initialized : Bool)
    (message : ServerMessage) : HubProg Flow :=
  match crates.toString message with
  | some json => do
    if ← actor.sendFrame (.text json) then return .goOn initialized else return .stop
  | none => return .goOn initialized

/-- One round of the loop. -/
def handleEvent (crates : SubscriptionCrates) (actor : ConnectionActor) (initialized : Bool) :
    LoopEvent → HubProg Flow
  | .outgoing message => actor.push crates initialized message
  | .pingTick => actor.push crates initialized (.ping none)
  | .incoming frame => actor.handleFrame crates initialized frame
  | .readError => return .stop
  | .streamEnded => return .stop

/-- The loop, for a number of rounds. -/
def serve (crates : SubscriptionCrates) (actor : ConnectionActor) (initialized : Bool) : Nat → HubProg Unit
  | 0 => return ()
  | rounds + 1 => do
    let event ← perform (.select actor.connId)
    match ← actor.handleEvent crates initialized event with
    | .goOn initialized => serve crates actor initialized rounds
    | .stop => return ()

def run (crates : SubscriptionCrates) (actor : ConnectionActor) (rounds : Nat) : HubProg Unit := do
  actor.serve crates false rounds
  deregisterConnection actor.connId
  perform (.closeChannel actor.connId)

end ConnectionActor

/-! ## Many connections and broadcasts -/

/-- Whose program is running: the actor of a connection, or a broadcast. -/
inductive Task where
  | actor (connId : ConnectionId)
  | broadcast (index : Nat)
  deriving DecidableEq, Repr

/-- Who is served, and what is broadcast. -/
structure Deployment where
  crates : SubscriptionCrates
  topicPrefix : ConnectionId → String
  capacity : ConnectionId → Nat
  /-- How often an actor waits at most. -/
  rounds : ConnectionId → Nat
  topic : Nat → String
  payload : Nat → Json

namespace Deployment

def connection (deployment : Deployment) (connId : ConnectionId) : ConnectionActor :=
  ⟨connId, deployment.topicPrefix connId⟩

/-- A broadcast returns its count, an actor nothing. -/
def program (deployment : Deployment) : Task → HubProg (Option Nat)
  | .actor connId => do
    (deployment.connection connId).run deployment.crates (deployment.rounds connId)
    return none
  | .broadcast index => do
    return some (← broadcast (deployment.topic index) (deployment.payload index))

/-- Actors and broadcasts share the hub, and nothing else happens to it. -/
def system (deployment : Deployment) : System hubSignature Task Empty SubscriptionHub (Option Nat) where
  program := deployment.program
  meaning := fun _ => hubMeaning
  environment := fun event => nomatch event

def hub (deployment : Deployment) : SubscriptionHub := SubscriptionHub.new deployment.capacity

end Deployment

end SpectraGQL.Subscriptions
