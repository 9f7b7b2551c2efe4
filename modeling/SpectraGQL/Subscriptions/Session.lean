import SpectraGQL.Gateway.Context
import SpectraGQL.Protocol.Response
import SpectraGQL.Subscriptions.Phases

/-! # A WebSocket session (`subscriptions/handler.rs`)

`WebSocketHandler::handle` spawns the actor of a connection, carries bytes between the client
and the actor until one of them stops, and aborts the actor.  A task that is aborted is
cancelled where it waits; what it holds is dropped then.
-/

namespace SpectraGQL.Subscriptions

open Interaction SpectraGQL.Http SpectraGQL.Protocol SpectraGQL.Gateway SubscriptionHub

/-! ## Calls -/

/-- What the pump wakes up to. -/
inductive PumpEvent where
  /-- `read_body_or_idle`: bytes, the end of the stream or an error. -/
  | downstream (read : Except PingoraError (Option Bytes))
  /-- A read from the pipe that the actor writes to; no bytes are its end. -/
  | duplex (read : Except String Bytes)
  | actorExited

inductive SessionCall where
  /-- What an actor or a broadcast asks of the hub. -/
  | hub (call : HubCall)
  /-- The task of the actor runs for the first time. -/
  | begins (connId : ConnectionId)
  | writeResponseHeader (connId : ConnectionId) (header : ResponseHeader)
  | writeResponseBody (connId : ConnectionId) (body : Bytes) (isLast : Bool)
  | spawn (connId : ConnectionId)
  /-- The `select!` of the pump. -/
  | wait (connId : ConnectionId)
  /-- `write_all` to the pipe. -/
  | writeAll (connId : ConnectionId) (bytes : Bytes)
  | abort (connId : ConnectionId)

abbrev SessionCall.Answer : SessionCall → Type
  | hub call => call.Answer
  | begins _ => Unit
  | writeResponseHeader _ _ => Except PingoraError Unit
  | writeResponseBody _ _ _ => Except PingoraError Unit
  | spawn _ => Unit
  | wait _ => PumpEvent
  | writeAll _ _ => Bool
  | abort _ => Unit

abbrev sessionSignature : Signature := ⟨SessionCall, SessionCall.Answer⟩

abbrev SessionProg (α : Type) := Prog sessionSignature α

/-! ## State -/

/-- The hub, and what has become of the task of each actor. -/
structure SessionState where
  hub : SubscriptionHub
  spawned : ConnectionId → Bool
  aborted : ConnectionId → Bool
  cancelled : ConnectionId → Bool

namespace SessionState

/-- The actor has dropped its end of everything. -/
def isGone (connId : ConnectionId) (state : SessionState) : Bool := (state.hub.channels connId).isClosed

/-- A pipe ends, and breaks, when the actor is gone; the client may do anything. -/
def Occurs (connId : ConnectionId) (state : SessionState) : PumpEvent → Prop
  | .downstream _ => True
  | .duplex (.ok bytes) => bytes = [] → state.isGone connId = true
  | .duplex (.error _) => state.isGone connId = true
  | .actorExited => state.isGone connId = true

/-- The task is dropped, and its channel with it. -/
def cancel (connId : ConnectionId) (state : SessionState) : SessionState :=
  { state with
    hub := state.hub.setChannel connId { state.hub.channels connId with isClosed := true }
    cancelled := Function.update state.cancelled connId true }

end SessionState

def sessionMeaning : Semantics sessionSignature SessionState
  | .hub call, before, answer, after => ∃ hub, hubMeaning call before.hub answer hub ∧
      after = { before with hub := hub }
  | .begins connId, before, _, after => before.spawned connId = true ∧ after = before
  | .writeResponseHeader _ _, before, _, after => after = before
  | .writeResponseBody _ _ _, before, _, after => after = before
  | .spawn connId, before, _, after =>
    after = { before with spawned := Function.update before.spawned connId true }
  | .wait connId, before, event, after => before.Occurs connId event ∧ after = before
  | .writeAll connId _, before, written, after =>
    (written = false → before.isGone connId = true) ∧ after = before
  | .abort connId, before, _, after =>
    after = { before with aborted := Function.update before.aborted connId true }

/-! ## The handler -/

namespace WebSocketHandler

def perform (call : SessionCall) : SessionProg call.Answer := Prog.perform (S := sessionSignature) call

def badRequest : StatusCode := ⟨400, by decide⟩

def switchingProtocols : StatusCode := ⟨101, by decide⟩

/-- The subprotocol that is answered to the client, when it names any. -/
def acceptedSubprotocol (requested : String) : String :=
  if containsText requested "graphql-transport-ws" then "graphql-transport-ws"
  else trim (((splitOn ',' requested).head?).getD "")

def upgradeResponse (acceptKey : String → String) (headers : HeaderMap) (secKey : String) :
    ResponseHeader :=
  let response := (((ResponseHeader.build switchingProtocols).insertHeader "connection" "Upgrade").insertHeader
    "upgrade" "websocket").insertHeader "sec-websocket-accept" (acceptKey secKey)
  match headers.getStr "sec-websocket-protocol" with
  | some requested => response.insertHeader "sec-websocket-protocol" (acceptedSubprotocol requested)
  | none => response

/-- The loop that carries bytes, for a number of rounds. -/
def pump (connId : ConnectionId) : Nat → SessionProg Unit
  | 0 => return ()
  | rounds + 1 => do
    match ← perform (.wait connId) with
    | .downstream (.ok (some bytes)) =>
      if bytes = [] then return ()
      else if ← perform (.writeAll connId bytes) then pump connId rounds
      else return ()
    | .downstream (.ok none) => return ()
    | .downstream (.error _) => return ()
    | .duplex (.ok bytes) =>
      if bytes = [] then return ()
      else
        match ← perform (.writeResponseBody connId bytes false) with
        | .ok _ => pump connId rounds
        | .error _ => return ()
    | .duplex (.error _) => return ()
    | .actorExited => return ()

def handle (acceptKey : String → String) (connId : ConnectionId) (headers : HeaderMap) (rounds : Nat) :
    SessionProg (Except PingoraError Bool) :=
  let secKey := (headers.getStr "sec-websocket-key").getD ""
  if secKey = "" then do
    match ← perform (.writeResponseHeader connId (.build badRequest)) with
    | .error error => return .error error
    | .ok _ =>
      match ← perform (.writeResponseBody connId (asBytes "Missing Sec-WebSocket-Key") true) with
      | .error error => return .error error
      | .ok _ => return .ok true
  else do
    match ← perform (.writeResponseHeader connId (upgradeResponse acceptKey headers secKey)) with
    | .error error => return .error error
    | .ok _ =>
      perform (.spawn connId)
      pump connId rounds
      perform (.abort connId)
      return .ok true

end WebSocketHandler

/-! ## Many sessions and broadcasts -/

inductive SessionTask where
  | pump (connId : ConnectionId)
  | actor (connId : ConnectionId)
  | broadcast (index : Nat)
  deriving DecidableEq, Repr

/-- What a task returns. -/
inductive Outcome where
  | handled (result : Except PingoraError Bool)
  | exited
  | delivered (count : Nat)

/-- An aborted task is cancelled at some time, unless it has ended. -/
inductive SessionEvent where
  | cancel (connId : ConnectionId)

/-- Who is served, what is broadcast, and the requests that the sessions start with. -/
structure Sessions where
  deployment : Deployment
  /-- `derive_accept_key`. -/
  acceptKey : String → String
  headers : ConnectionId → HeaderMap
  /-- How often a pump waits at most. -/
  pumpRounds : ConnectionId → Nat

namespace Sessions

/-- A program of the hub among the tasks of a gateway. -/
def onHub {α : Type} (program : HubProg α) : SessionProg α :=
  program.refine fun call => WebSocketHandler.perform (.hub call)

def program (sessions : Sessions) : SessionTask → SessionProg Outcome
  | .pump connId => do
    return .handled (← WebSocketHandler.handle sessions.acceptKey connId (sessions.headers connId)
      (sessions.pumpRounds connId))
  | .actor connId => do
    WebSocketHandler.perform (.begins connId)
    onHub ((sessions.deployment.connection connId).run sessions.deployment.crates
      (sessions.deployment.rounds connId))
    return .exited
  | .broadcast index => do
    return .delivered (← onHub (broadcast (sessions.deployment.topic index)
      (sessions.deployment.payload index)))

/-- A task that was cancelled makes no further call. -/
def Runs (task : SessionTask) (state : SessionState) : Prop :=
  ∀ connId, task = .actor connId → state.cancelled connId = false

def system (sessions : Sessions) :
    System sessionSignature SessionTask SessionEvent SessionState Outcome where
  program := sessions.program
  meaning := fun task call before answer after => Runs task before ∧ sessionMeaning call before answer after
  environment := fun
    | .cancel connId, before, after =>
      before.aborted connId = true ∧ before.isGone connId = false ∧ after = before.cancel connId

def start (sessions : Sessions) : SessionState where
  hub := SubscriptionHub.new sessions.deployment.capacity
  spawned _ := false
  aborted _ := false
  cancelled _ := false

end Sessions

end SpectraGQL.Subscriptions
