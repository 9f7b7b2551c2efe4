import SpectraGQL.Interaction.Pool
import SpectraGQL.Subscriptions.Protocol
import Mathlib.Logic.Function.Basic

/-! # The subscription hub (`subscriptions/hub.rs`)

Two maps, each behind a lock of its own: the subscriptions of a topic, and the subscriptions of
a connection.  A call is what happens under one lock, or at one await.  The lock that
`deregister_connection` keeps while it waits for the other is not modelled, so more
interleavings are possible here than in the code.
-/

namespace SpectraGQL.Subscriptions

open Interaction SpectraGQL.Http SpectraGQL.Protocol

/-! ## State -/

abbrev ConnectionId := String

abbrev SubId := String

/-- A subscription; messages for it go to the channel of its connection. -/
structure SubscriptionRegistration where
  connId : ConnectionId
  subId : SubId
  topic : String
  rootField : String
  deriving DecidableEq, Repr

/-- The bounded channel between the hub and an actor; it closes when the actor is gone. -/
structure Channel where
  queue : List ServerMessage := []
  capacity : Nat
  isClosed : Bool := false

structure SubscriptionHub where
  topics : String → Option (List SubscriptionRegistration)
  connections : ConnectionId → Option (List (SubId × String))
  channels : ConnectionId → Channel

/-- An empty hub, and open channels of their capacities. -/
def SubscriptionHub.new (capacity : ConnectionId → Nat) : SubscriptionHub :=
  ⟨fun _ => none, fun _ => none, fun connId => { capacity := capacity connId }⟩

/-- The subscription of a connection with that id. -/
def SubscriptionRegistration.isFor (connId : ConnectionId) (subId : SubId)
    (sub : SubscriptionRegistration) : Bool :=
  sub.connId = connId ∧ sub.subId = subId

namespace SubscriptionHub

/-! ### Under the lock of the topics -/

def addToTopic (registration : SubscriptionRegistration) (hub : SubscriptionHub) : SubscriptionHub :=
  let others := ((hub.topics registration.topic).getD []).filter fun sub =>
    !sub.isFor registration.connId registration.subId
  { hub with topics := Function.update hub.topics registration.topic (some (others ++ [registration])) }

/-- A topic without subscriptions is forgotten. -/
def removeFromTopic (connId : ConnectionId) (subId : SubId) (topic : String) (hub : SubscriptionHub) :
    SubscriptionHub :=
  match hub.topics topic with
  | none => hub
  | some subs =>
    let kept := subs.filter fun sub => !sub.isFor connId subId
    { hub with topics := Function.update hub.topics topic (if kept = [] then none else some kept) }

/-- The loop over the subscriptions of a connection. -/
def removeAll (connId : ConnectionId) (subList : List (SubId × String)) (hub : SubscriptionHub) :
    SubscriptionHub :=
  subList.foldl (fun hub sub => hub.removeFromTopic connId sub.1 sub.2) hub

/-! ### Under the lock of the connections -/

def trackSubscription (connId : ConnectionId) (subId : SubId) (topic : String) (hub : SubscriptionHub) :
    SubscriptionHub :=
  let others := ((hub.connections connId).getD []).filter fun sub => sub.1 ≠ subId
  { hub with connections := Function.update hub.connections connId (some (others ++ [(subId, topic)])) }

/-- The topic of the subscription that was tracked, and the hub without it. -/
def untrackSubscription (connId : ConnectionId) (subId : SubId) (hub : SubscriptionHub) :
    Option String × SubscriptionHub :=
  match hub.connections connId with
  | none => (none, hub)
  | some list =>
    match list.find? fun sub => sub.1 = subId with
    | none => (none, hub)
    | some (_, topic) =>
      let kept := list.eraseP fun sub => sub.1 = subId
      (some topic, { hub with connections := Function.update hub.connections connId (some kept) })

def hasSubscription (connId : ConnectionId) (subId : SubId) (hub : SubscriptionHub) : Bool :=
  match hub.connections connId with
  | some list => list.any fun sub => sub.1 = subId
  | none => false

def forgetConnection (connId : ConnectionId) (hub : SubscriptionHub) :
    Option (List (SubId × String)) × SubscriptionHub :=
  (hub.connections connId, { hub with connections := Function.update hub.connections connId none })

/-! ### Channels -/

def setChannel (connId : ConnectionId) (channel : Channel) (hub : SubscriptionHub) : SubscriptionHub :=
  { hub with channels := Function.update hub.channels connId channel }

end SubscriptionHub

inductive TrySend where
  | ok | closed | full
  deriving DecidableEq, Repr

/-- `try_send` into the channel of a connection. -/
def SubscriptionHub.trySend (connId : ConnectionId) (message : ServerMessage) (hub : SubscriptionHub) :
    TrySend × SubscriptionHub :=
  let channel := hub.channels connId
  if channel.isClosed then (.closed, hub)
  else if channel.queue.length ≥ channel.capacity then (.full, hub)
  else (.ok, hub.setChannel connId { channel with queue := channel.queue ++ [message] })

/-! ## Calls -/

/-- What an actor or a broadcast does in one go. -/
inductive HubCall where
  /-- Wait for what comes next on a connection. -/
  | select (connId : ConnectionId)
  /-- Send a frame to the client. -/
  | send (connId : ConnectionId) (message : WsMessage)
  | addToTopic (registration : SubscriptionRegistration)
  | trackSubscription (connId : ConnectionId) (subId : SubId) (topic : String)
  | untrackSubscription (connId : ConnectionId) (subId : SubId)
  | removeFromTopic (connId : ConnectionId) (subId : SubId) (topic : String)
  | hasSubscription (connId : ConnectionId) (subId : SubId)
  | forgetConnection (connId : ConnectionId)
  | removeAll (connId : ConnectionId) (subList : List (SubId × String))
  /-- The actor drops its end of the channel. -/
  | closeChannel (connId : ConnectionId)
  /-- The subscriptions of a topic, copied. -/
  | subscribers (topic : String)
  | trySend (connId : ConnectionId) (message : ServerMessage)

abbrev HubCall.Answer : HubCall → Type
  | select _ => LoopEvent
  | send _ _ => Bool
  | addToTopic _ => Unit
  | trackSubscription _ _ _ => Unit
  | untrackSubscription _ _ => Option String
  | removeFromTopic _ _ _ => Unit
  | hasSubscription _ _ => Bool
  | forgetConnection _ => Option (List (SubId × String))
  | removeAll _ _ => Unit
  | closeChannel _ => Unit
  | subscribers _ => Option (List SubscriptionRegistration)
  | trySend _ _ => TrySend

abbrev hubSignature : Signature := ⟨HubCall, HubCall.Answer⟩

abbrev HubProg (α : Type) := Prog hubSignature α

/-- The client and the network may do anything; a message leaves the channel when it is its
    turn. -/
def selects (connId : ConnectionId) (before : SubscriptionHub) : LoopEvent → SubscriptionHub → Prop
  | .outgoing message, after => ∃ rest, (before.channels connId).queue = message :: rest ∧
      after = before.setChannel connId { before.channels connId with queue := rest }
  | .pingTick, after => after = before
  | .incoming _, after => after = before
  | .readError, after => after = before
  | .streamEnded, after => after = before

def hubMeaning : Semantics hubSignature SubscriptionHub
  | .select connId, before, event, after => selects connId before event after
  | .send _ _, before, _, after => after = before
  | .addToTopic registration, before, _, after => after = before.addToTopic registration
  | .trackSubscription connId subId topic, before, _, after =>
    after = before.trackSubscription connId subId topic
  | .untrackSubscription connId subId, before, answer, after =>
    (answer, after) = before.untrackSubscription connId subId
  | .removeFromTopic connId subId topic, before, _, after =>
    after = before.removeFromTopic connId subId topic
  | .hasSubscription connId subId, before, answer, after =>
    answer = before.hasSubscription connId subId ∧ after = before
  | .forgetConnection connId, before, answer, after => (answer, after) = before.forgetConnection connId
  | .removeAll connId subList, before, _, after => after = before.removeAll connId subList
  | .closeChannel connId, before, _, after =>
    after = before.setChannel connId { before.channels connId with isClosed := true }
  | .subscribers topic, before, answer, after => answer = before.topics topic ∧ after = before
  | .trySend connId message, before, answer, after => (answer, after) = before.trySend connId message

/-! ## Operations of the hub -/

namespace SubscriptionHub

def perform (call : HubCall) : HubProg call.Answer := Prog.perform (S := hubSignature) call

def register (connId : ConnectionId) (subId : SubId) (topic rootField : String) : HubProg Unit := do
  perform (.addToTopic ⟨connId, subId, topic, rootField⟩)
  perform (.trackSubscription connId subId topic)

def deregister (connId : ConnectionId) (subId : SubId) : HubProg Unit := do
  match ← perform (.untrackSubscription connId subId) with
  | some topic => perform (.removeFromTopic connId subId topic)
  | none => return ()

def deregisterConnection (connId : ConnectionId) : HubProg Unit := do
  match ← perform (.forgetConnection connId) with
  | some subList => perform (.removeAll connId subList)
  | none => return ()

/-- The data of a broadcast, under the root field unless it has a member `data`. -/
def formatData (rootField : String) (payload : Json) : Json :=
  match payload with
  | .object members =>
    if (members.lookup "data").isSome then payload else Json.ofMembers [(rootField, payload)]
  | _ => Json.ofMembers [(rootField, payload)]

/-- The loop over the subscribers: how many got the message, and whose channel is closed. -/
def sendToAll (payload : Json) (sentCount : Nat) (dead : List (ConnectionId × SubId)) :
    List SubscriptionRegistration → HubProg (Nat × List (ConnectionId × SubId))
  | [] => return (sentCount, dead)
  | sub :: rest => do
    match ← perform (.trySend sub.connId (.next sub.subId (formatData sub.rootField payload))) with
    | .ok => sendToAll payload (sentCount + 1) dead rest
    | .closed => sendToAll payload sentCount (dead ++ [(sub.connId, sub.subId)]) rest
    | .full => sendToAll payload sentCount dead rest

/-- The loop over the dead subscribers. -/
def deregisterAll : List (ConnectionId × SubId) → HubProg Unit
  | [] => return ()
  | (connId, subId) :: rest => do
    deregister connId subId
    deregisterAll rest

def broadcast (topic : String) (payload : Json) : HubProg Nat := do
  match ← perform (.subscribers topic) with
  | none => return 0
  | some subscribers => do
    let (sentCount, dead) ← sendToAll payload 0 [] subscribers
    deregisterAll dead
    return sentCount

end SubscriptionHub

end SpectraGQL.Subscriptions
