import SpectraGQL.Interaction.Automaton
import SpectraGQL.Subscriptions.Connection
import SpectraGQL.Subscriptions.View

/-! # The phases of an actor and of a broadcast

Which calls come after which, whatever the answers are.  An actor adds an id that is not in
use, tracks it next, and leaves last.  A broadcast copies the subscribers of its topic, sends
to those it has copied, and deregisters those whose channel it has found closed.
-/

namespace SpectraGQL.Subscriptions

open Interaction SpectraGQL.Http SpectraGQL.Protocol SubscriptionHub

/-! ## Actors -/

/-- Where an actor is, as the hub sees it. -/
inductive Stage where
  /-- Between two calls of the hub that belong together there is nothing; an id may have been found
      not to be in use. -/
  | idle (unused : Option SubId)
  | adding (id : SubId) (topic : String)
  | removing (id : SubId) (topic : String)
  /-- The connection is forgotten, its subscriptions are still in their topics. -/
  | leaving (subList : List (SubId × String))
  | left
  /-- The actor has dropped its channel. -/
  | gone

namespace Stage

def Allows (connId : ConnectionId) : Stage → HubCall → Prop
  | .idle _, .select other => other = connId
  | .idle _, .send other _ => other = connId
  | .idle _, .hasSubscription other _ => other = connId
  | .idle unused, .addToTopic registration =>
    registration.connId = connId ∧ unused = some registration.subId
  | .idle _, .untrackSubscription other _ => other = connId
  | .idle _, .forgetConnection other => other = connId
  | .adding id topic, call => call = .trackSubscription connId id topic
  | .removing id topic, call => call = .removeFromTopic connId id topic
  | .leaving subList, call => call = .removeAll connId subList
  | .left, call => call = .closeChannel connId
  | _, _ => False

def afterUntrack (id : SubId) : Option String → Stage
  | some topic => .removing id topic
  | none => .idle none

def afterForget : Option (List (SubId × String)) → Stage
  | some subList => .leaving subList
  | none => .left

def next : Stage → Event hubSignature → Stage
  | .idle _, ⟨.hasSubscription _ id, found⟩ => .idle (if found then none else some id)
  | .idle _, ⟨.addToTopic registration, _⟩ => .adding registration.subId registration.topic
  | .idle _, ⟨.untrackSubscription _ id, topic⟩ => afterUntrack id topic
  | .idle _, ⟨.forgetConnection _, subList⟩ => afterForget subList
  | .idle _, _ => .idle none
  | .adding _ _, _ => .idle none
  | .removing _ _, _ => .idle none
  | .leaving _, _ => .left
  | .left, _ => .gone
  | .gone, _ => .gone

def automaton (connId : ConnectionId) : Automaton hubSignature Stage where
  allowed := Allows connId
  possible := fun _ => True
  next := next

theorem Allows.owner {connId : ConnectionId} {stage : Stage} {call : HubCall}
    (allows : stage.Allows connId call) : call.owner = some connId := by
  cases stage with
  | idle unused =>
    cases call with
    | select _ | send _ _ | hasSubscription _ _ | untrackSubscription _ _ | forgetConnection _ =>
      exact congrArg some allows
    | addToTopic registration => exact congrArg some allows.1
    | _ => exact allows.elim
  | adding id topic | removing id topic | leaving subList | left =>
    obtain rfl := allows
    rfl
  | gone => exact allows.elim

def IsIdle (stage : Stage) : Prop := ∃ unused, stage = .idle unused

end Stage

section Actor

variable {crates : SubscriptionCrates} {actor : ConnectionActor} {stage : Stage}

/-- A part of the actor's program that starts and ends between calls that belong together. -/
abbrev Returning (connId : ConnectionId) {α : Type} (program : HubProg α) : Prop :=
  ∀ stage : Stage, stage.IsIdle →
    program.Obeys (Stage.automaton connId) (fun _ after => after.IsIdle) stage

theorem returning_ret {connId : ConnectionId} {α : Type} (value : α) :
    Returning connId (.ret value : HubProg α) := fun _ idle => idle

theorem returning_bind {connId : ConnectionId} {α β : Type} {program : HubProg α}
    {next : α → HubProg β} (first : Returning connId program)
    (second : ∀ value, Returning connId (next value)) : Returning connId (program >>= next) :=
  fun stage idle => (first stage idle).bind fun value after idle => second value after idle

namespace ConnectionActor

theorem sendFrame_returning (frame : WsMessage) : Returning actor.connId (actor.sendFrame frame) := by
  rintro _ ⟨unused, rfl⟩
  exact ⟨rfl, fun _ _ => ⟨none, rfl⟩⟩

theorem reply_returning (message : ServerMessage) :
    Returning actor.connId (actor.reply crates message) := by
  simp only [reply]
  cases crates.toString message with
  | none => exact returning_ret ()
  | some json => exact returning_bind (sendFrame_returning _) fun _ => returning_ret ()

theorem closeWith_returning (code : Nat) (reason : String) :
    Returning actor.connId (actor.closeWith code reason) :=
  returning_bind (sendFrame_returning _) fun _ => returning_ret Flow.stop

theorem deregister_returning (connId : ConnectionId) (id : SubId) :
    Returning connId (deregister connId id) := by
  rintro _ ⟨unused, rfl⟩
  refine ⟨rfl, fun answer _ => ?_⟩
  cases answer with
  | none => exact ⟨none, rfl⟩
  | some topic => exact ⟨rfl, fun _ _ => ⟨none, rfl⟩⟩

/-- Registering takes two calls, which belong together. -/
theorem register_obeys (connId : ConnectionId) (id : SubId) (topic rootField : String) :
    (register connId id topic rootField).Obeys (Stage.automaton connId)
      (fun _ after => after.IsIdle) (.idle (some id)) :=
  ⟨⟨rfl, rfl⟩, fun _ _ => ⟨rfl, fun _ _ => ⟨none, rfl⟩⟩⟩

theorem subscribe_returning (initialized : Bool) (id query : String) (vars : Option Json) :
    Returning actor.connId (actor.subscribe crates initialized id query vars) := by
  cases initialized with
  | false => exact closeWith_returning _ _
  | true =>
    rintro _ ⟨unused, rfl⟩
    cases derived : deriveSubscriptionTopic crates.parse actor.topicPrefix query vars with
    | error error =>
      simp only [subscribe, derived]
      refine ⟨rfl, fun found _ => ?_⟩
      cases found with
      | true => exact closeWith_returning _ _ _ ⟨none, rfl⟩
      | false => exact returning_bind (reply_returning _) (fun _ => returning_ret _) _ ⟨some id, rfl⟩
    | ok result =>
      simp only [subscribe, derived]
      refine ⟨rfl, fun found _ => ?_⟩
      cases found with
      | true => exact closeWith_returning _ _ _ ⟨none, rfl⟩
      | false =>
        -- the id is known not to be in use
        exact (register_obeys actor.connId id result.1 result.2).bind fun _ _ idle => idle

theorem handleClientMessage_returning (initialized : Bool) (message : ClientMessage) :
    Returning actor.connId (actor.handleClientMessage crates initialized message) := by
  cases message with
  | connectionInit _ => exact returning_bind (reply_returning _) fun _ => returning_ret _
  | ping _ => exact returning_bind (reply_returning _) fun _ => returning_ret _
  | pong _ => exact returning_ret _
  | subscribe id query vars => exact subscribe_returning initialized id query vars
  | complete id => exact returning_bind (deregister_returning _ _) fun _ => returning_ret _

theorem handleText_returning (initialized : Bool) (frame : WsMessage) :
    Returning actor.connId (actor.handleText crates initialized frame) := by
  simp only [handleText]
  split
  · exact returning_ret _
  · split
    · exact closeWith_returning _ _
    · exact handleClientMessage_returning initialized _

theorem handleFrame_returning (initialized : Bool) (frame : WsMessage) :
    Returning actor.connId (actor.handleFrame crates initialized frame) := by
  cases frame with
  | close _ _ => exact returning_ret _
  | ping _ => exact returning_bind (sendFrame_returning _) fun _ => returning_ret _
  | text content => exact handleText_returning initialized (.text content)
  | binary data => exact handleText_returning initialized (.binary data)
  | pong data => exact handleText_returning initialized (.pong data)

theorem push_returning (initialized : Bool) (message : ServerMessage) :
    Returning actor.connId (actor.push crates initialized message) := by
  simp only [push]
  split
  · refine returning_bind (sendFrame_returning _) fun sent => ?_
    cases sent with
    | true => exact returning_ret _
    | false => exact returning_ret _
  · exact returning_ret _

theorem handleEvent_returning (initialized : Bool) (event : LoopEvent) :
    Returning actor.connId (actor.handleEvent crates initialized event) := by
  cases event with
  | outgoing message => exact push_returning initialized message
  | pingTick => exact push_returning initialized _
  | incoming frame => exact handleFrame_returning initialized frame
  | readError | streamEnded => exact returning_ret _

theorem serve_returning (initialized : Bool) (rounds : Nat) :
    Returning actor.connId (actor.serve crates initialized rounds) := by
  induction rounds generalizing initialized with
  | zero => exact returning_ret ()
  | succ rounds inductionHypothesis =>
    have waits : Returning actor.connId (perform (.select actor.connId)) := by
      rintro _ ⟨unused, rfl⟩
      exact ⟨rfl, fun _ _ => ⟨none, rfl⟩⟩
    refine returning_bind waits fun event => ?_
    refine returning_bind (handleEvent_returning initialized event) fun flow => ?_
    cases flow with
    | goOn initialized => exact inductionHypothesis initialized
    | stop => exact returning_ret ()

theorem run_obeys (crates : SubscriptionCrates) (actor : ConnectionActor) (rounds : Nat) :
    (actor.run crates rounds).Obeys (Stage.automaton actor.connId) (fun _ after => after = .gone)
      (.idle none) := by
  refine (serve_returning false rounds _ ⟨none, rfl⟩).bind ?_
  rintro _ _ ⟨unused, rfl⟩
  refine ⟨rfl, fun subList _ => ?_⟩
  cases subList with
  | none => exact ⟨rfl, fun _ _ => rfl⟩
  | some subList => exact ⟨rfl, fun _ _ => ⟨rfl, fun _ _ => rfl⟩⟩

end ConnectionActor

end Actor

/-! ## Broadcasts -/

/-- The subscribers that were copied, and the connections whose channel was found closed. -/
structure Tour where
  copied : Option (List SubscriptionRegistration) := none
  dead : List ConnectionId := []

namespace Tour

section

variable (topic : String) (payload : Json)

def Allows (tour : Tour) : HubCall → Prop
  | .subscribers at' => at' = topic
  | .trySend connId message => ∃ subs, tour.copied = some subs ∧ ∃ sub ∈ subs,
      sub.connId = connId ∧ message = .next sub.subId (formatData sub.rootField payload)
  | .untrackSubscription connId _ => connId ∈ tour.dead
  | .removeFromTopic connId _ _ => connId ∈ tour.dead
  | _ => False

/-- The first copy counts. -/
def next (tour : Tour) : Event hubSignature → Tour
  | ⟨.subscribers _, subs⟩ => { tour with copied := tour.copied.or (some (subs.getD [])) }
  | ⟨.trySend connId _, answer⟩ =>
    if answer = .closed then { tour with dead := tour.dead ++ [connId] } else tour
  | _ => tour

def automaton : Automaton hubSignature Tour where
  allowed := Allows topic payload
  possible := fun _ => True
  next := next

end

variable {topic : String} {payload : Json} {tour : Tour}

theorem deregisterAll_obeys {dead : List (ConnectionId × SubId)}
    (known : ∀ sub ∈ dead, sub.1 ∈ tour.dead) :
    (deregisterAll dead).Obeys (automaton topic payload) (fun _ _ => True) tour := by
  induction dead with
  | nil => trivial
  | cons sub rest inductionHypothesis =>
    have others := inductionHypothesis fun other member => known other (List.mem_cons_of_mem _ member)
    have isDead := known sub List.mem_cons_self
    refine ⟨isDead, fun found _ => ?_⟩
    cases found with
    | none => exact others
    | some topic => exact ⟨isDead, fun _ _ => others⟩

theorem sendToAll_obeys {subs subscribers : List SubscriptionRegistration} (sentCount : Nat)
    {dead : List (ConnectionId × SubId)} (copied : tour.copied = some subs)
    (among : ∀ sub ∈ subscribers, sub ∈ subs) (known : ∀ sub ∈ dead, sub.1 ∈ tour.dead) :
    (sendToAll payload sentCount dead subscribers).Obeys (automaton topic payload)
      (fun result after => ∀ sub ∈ result.2, sub.1 ∈ after.dead) tour := by
  induction subscribers generalizing sentCount dead tour with
  | nil => exact known
  | cons sub rest inductionHypothesis =>
    have others : ∀ other ∈ rest, other ∈ subs := fun other member =>
      among other (List.mem_cons_of_mem _ member)
    refine ⟨⟨subs, copied, sub, among sub List.mem_cons_self, rfl, rfl⟩, fun answer _ => ?_⟩
    cases answer with
    | ok => exact inductionHypothesis (sentCount + 1) copied others known
    | full => exact inductionHypothesis sentCount copied others known
    | closed =>
      have same : ({ tour with dead := tour.dead ++ [sub.connId] } : Tour).copied = some subs := copied
      refine inductionHypothesis sentCount same others fun other member => ?_
      show other.1 ∈ tour.dead ++ [sub.connId]
      cases List.mem_append.mp member with
      | inl earlier => exact List.mem_append_left _ (known other earlier)
      | inr last => simp [List.mem_singleton.mp last]

theorem broadcast_obeys :
    (broadcast topic payload).Obeys (automaton topic payload) (fun _ _ => True) {} := by
  refine ⟨rfl, fun subscribers _ => ?_⟩
  cases subscribers with
  | none => trivial
  | some subs =>
    refine (sendToAll_obeys 0 rfl (fun _ member => member) (by simp)).bind fun result after known => ?_
    exact (deregisterAll_obeys known).bind fun _ _ _ => trivial

end Tour

end SpectraGQL.Subscriptions
