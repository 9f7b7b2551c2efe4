import SpectraGQL.Interaction.Automaton
import SpectraGQL.Subscriptions.Connection
import SpectraGQL.Subscriptions.View
import Mathlib.Data.List.Nodup

/-! # The ledger of a connection

A `Ledger` follows what the actor of a connection woke up to, and says which subscriptions are
active.  `View.Matches` compares this to what the hub holds.
-/

namespace SpectraGQL.Subscriptions

open Interaction SpectraGQL.Http SpectraGQL.Protocol SubscriptionHub

/-- What a connection has asked for. -/
structure Ledger where
  initialized : Bool := false
  /-- The subscriptions that were accepted, and not completed since. -/
  active : List SubscriptionRegistration := []
  /-- The connection is to be closed. -/
  ended : Bool := false

namespace Ledger

variable (crates : SubscriptionCrates) (actor : ConnectionActor)

def isActive (ledger : Ledger) (id : SubId) : Bool := ledger.active.any fun sub => sub.subId = id

def finish (ledger : Ledger) : Ledger := { ledger with ended := true }

/-- A subscription is refused before the connection is initialized, and when its id is active. -/
def subscribe (ledger : Ledger) (id query : String) (vars : Option Json) : Ledger :=
  if ledger.initialized = false ∨ ledger.isActive id = true then ledger.finish
  else
    match deriveSubscriptionTopic crates.parse actor.topicPrefix query vars with
    | .ok (topic, rootField) =>
      { ledger with active := ledger.active ++ [⟨actor.connId, id, topic, rootField⟩] }
    | .error _ => ledger

def complete (ledger : Ledger) (id : SubId) : Ledger :=
  { ledger with active := ledger.active.filter fun sub => sub.subId ≠ id }

def receive (ledger : Ledger) : ClientMessage → Ledger
  | .connectionInit _ => { ledger with initialized := true }
  | .ping _ => ledger
  | .pong _ => ledger
  | .subscribe id query vars => ledger.subscribe crates actor id query vars
  | .complete id => ledger.complete id

/-- A frame that is not a message closes the connection. -/
def receiveText (ledger : Ledger) (frame : WsMessage) : Ledger :=
  match frame.toText with
  | none => ledger
  | some text =>
    match crates.fromStr text with
    | none => ledger.finish
    | some message => ledger.receive crates actor message

def receiveFrame (ledger : Ledger) : WsMessage → Ledger
  | .close _ _ => ledger.finish
  | .ping _ => ledger
  | .text content => ledger.receiveText crates actor (.text content)
  | .binary data => ledger.receiveText crates actor (.binary data)
  | .pong data => ledger.receiveText crates actor (.pong data)

def see (ledger : Ledger) : LoopEvent → Ledger
  | .outgoing _ => ledger
  | .pingTick => ledger
  | .incoming frame => ledger.receiveFrame crates actor frame
  | .readError => ledger.finish
  | .streamEnded => ledger.finish

/-- Only what the actor woke up to counts. -/
def afterCall (ledger : Ledger) : Event hubSignature → Ledger
  | ⟨.select _, event⟩ => ledger.see crates actor event
  | _ => ledger

/-- The ledger in the course of a run. -/
def automaton : Automaton hubSignature Ledger where
  allowed := fun _ _ => True
  possible := fun _ => True
  next := afterCall crates actor

/-! ### Ids -/

/-- An id is active once, and for the connection. -/
structure Proper (connId : ConnectionId) (ledger : Ledger) : Prop where
  nodup : (ledger.active.map SubscriptionRegistration.subId).Nodup
  own : ∀ sub ∈ ledger.active, sub.connId = connId

variable {crates actor} {ledger : Ledger}

theorem not_isActive {id : SubId} (inactive : ledger.isActive id = false) :
    ∀ sub ∈ ledger.active, sub.subId ≠ id := by
  simpa [isActive] using inactive

theorem Proper.subscribe (proper : ledger.Proper actor.connId) (id query : String)
    (vars : Option Json) : (ledger.subscribe crates actor id query vars).Proper actor.connId := by
  unfold Ledger.subscribe
  split
  · exact ⟨proper.nodup, proper.own⟩
  · rename_i accepted
    split
    · have free : ledger.isActive id = false := by simp_all
      have inactive := not_isActive free
      constructor
      · rw [List.map_append, List.nodup_append]
        refine ⟨proper.nodup, by simp, fun first member second last => ?_⟩
        obtain ⟨sub, isActive, rfl⟩ := List.mem_map.mp member
        rw [List.map_singleton, List.mem_singleton] at last
        rw [last]
        exact inactive sub isActive
      · intro sub member
        cases List.mem_append.mp member with
        | inl earlier => exact proper.own sub earlier
        | inr last => rw [List.mem_singleton.mp last]
    · exact proper

theorem Proper.complete {connId : ConnectionId} (proper : ledger.Proper connId) (id : SubId) :
    (ledger.complete id).Proper connId where
  nodup := proper.nodup.sublist (List.filter_sublist.map _)
  own := fun sub member => proper.own sub (List.mem_of_mem_filter member)

theorem Proper.receiveText (proper : ledger.Proper actor.connId) (frame : WsMessage) :
    (ledger.receiveText crates actor frame).Proper actor.connId := by
  unfold Ledger.receiveText
  split
  · exact proper
  · split
    · exact ⟨proper.nodup, proper.own⟩
    · rename_i message _
      cases message with
      | connectionInit _ => exact ⟨proper.nodup, proper.own⟩
      | ping _ | pong _ => exact proper
      | subscribe id query vars => exact proper.subscribe id query vars
      | complete id => exact proper.complete id

theorem Proper.see (proper : ledger.Proper actor.connId) (event : LoopEvent) :
    (ledger.see crates actor event).Proper actor.connId := by
  cases event with
  | outgoing _ | pingTick => exact proper
  | readError | streamEnded => exact ⟨proper.nodup, proper.own⟩
  | incoming frame =>
    cases frame with
    | close _ _ => exact ⟨proper.nodup, proper.own⟩
    | ping _ => exact proper
    | text content => exact proper.receiveText (.text content)
    | binary data => exact proper.receiveText (.binary data)
    | pong data => exact proper.receiveText (.pong data)

theorem Proper.afterCall (proper : ledger.Proper actor.connId) (event : Event hubSignature) :
    (ledger.afterCall crates actor event).Proper actor.connId := by
  obtain ⟨call, answer⟩ := event
  cases call with
  | select _ => exact proper.see answer
  | _ => exact proper

end Ledger

/-! ## A view that matches -/

/-- The hub holds the active subscriptions of an open connection, and nothing else of it. -/
structure View.Matches (view : View) (active : List SubscriptionRegistration) : Prop where
  entries : view.entries.getD [] = active.map fun sub => (sub.subId, sub.topic)
  registrations : ∀ topic, view.registrations topic = active.filter fun sub => sub.topic = topic
  isOpen : view.isClosed = false

/-- The hub holds nothing but active subscriptions of the connection. -/
structure View.Within (view : View) (active : List SubscriptionRegistration) : Prop where
  entries : ∀ entry ∈ view.entries.getD [], ∃ sub ∈ active, (sub.subId, sub.topic) = entry
  registrations : ∀ topic, ∀ sub ∈ view.registrations topic, sub ∈ active ∧ sub.topic = topic

structure View.IsEmpty (view : View) : Prop where
  entries : view.entries = none
  registrations : ∀ topic, view.registrations topic = []

namespace View

variable {view : View} {active : List SubscriptionRegistration} {id : SubId}

theorem matches_blank : blank.Matches [] := ⟨rfl, fun _ => rfl, rfl⟩

theorem isEmpty_blank : blank.IsEmpty := ⟨rfl, fun _ => rfl⟩

theorem Matches.within (fits : view.Matches active) : view.Within active where
  entries := by
    intro entry member
    rw [fits.entries] at member
    exact List.mem_map.mp member
  registrations := by
    intro topic sub member
    rw [fits.registrations] at member
    simpa using member

theorem IsEmpty.within (empty : view.IsEmpty) : view.Within active where
  entries := by simp [empty.entries]
  registrations := by simp [empty.registrations]

theorem Matches.any_entries (fits : view.Matches active) :
    ((view.entries.getD []).any fun sub => sub.1 = id) = active.any fun sub => sub.subId = id := by
  rw [fits.entries, List.any_map]
  rfl

theorem Matches.register (fits : view.Matches active) (registration : SubscriptionRegistration)
    (inactive : ∀ sub ∈ active, sub.subId ≠ registration.subId) :
    ((view.addToTopic registration).trackSubscription registration.subId registration.topic).Matches
      (active ++ [registration]) := by
  refine ⟨?_, fun topic => ?_, fits.isOpen⟩
  · have kept : (active.map fun sub => (sub.subId, sub.topic)).filter
        (fun sub => sub.1 ≠ registration.subId) = active.map fun sub => (sub.subId, sub.topic) := by
      rw [List.filter_eq_self]
      simpa using inactive
    simp only [trackSubscription, addToTopic, fits.entries, kept, Option.getD_some, List.map_append,
      List.map_singleton]
  · by_cases same : topic = registration.topic
    · subst same
      have kept : (active.filter fun sub => sub.topic = registration.topic).filter
          (fun sub => sub.subId ≠ registration.subId) =
            active.filter fun sub => sub.topic = registration.topic := by
        rw [List.filter_eq_self]
        intro sub member
        simpa using inactive sub (List.mem_of_mem_filter member)
      simp only [trackSubscription, addToTopic, fits.registrations, kept, Function.update_self,
        List.filter_append]
      simp
    · simp [trackSubscription, addToTopic, fits.registrations, same, Ne.symm same]

theorem Matches.untrack_none (fits : view.Matches active) {after : View}
    (untracked : (none, after) = view.untrackSubscription id) :
    after.Matches (active.filter fun sub => sub.subId ≠ id) := by
  unfold untrackSubscription at untracked
  split at untracked
  · rename_i missing
    obtain rfl := (Prod.mk.inj untracked).2
    have kept : active.filter (fun sub => sub.subId ≠ id) = active := by
      rw [fits.entries] at missing
      rw [List.filter_eq_self]
      simpa using missing
    rw [kept]
    exact fits
  · cases (Prod.mk.inj untracked).1

theorem Matches.untrack_some (fits : view.Matches active)
    (nodup : (active.map SubscriptionRegistration.subId).Nodup) {topic : String} {after : View}
    (untracked : (some topic, after) = view.untrackSubscription id) :
    (after.removeFromTopic id topic).Matches (active.filter fun sub => sub.subId ≠ id) := by
  unfold untrackSubscription at untracked
  split at untracked
  · cases (Prod.mk.inj untracked).1
  · rename_i found
    obtain ⟨isTopic, rfl⟩ := Prod.mk.inj untracked
    cases isTopic
    rw [fits.entries, List.find?_map] at found
    obtain ⟨sub, isFirst, same⟩ := Option.map_eq_some_iff.mp found
    obtain ⟨rfl, rfl⟩ := Prod.mk.inj same
    have isActive := List.mem_of_find?_eq_some isFirst
    have isId : sub.subId = id := by simpa using List.find?_some isFirst
    subst isId
    refine ⟨?_, fun at' => ?_, fits.isOpen⟩
    · simp only [removeFromTopic, Option.getD_some, fits.entries, List.eraseP_map,
        ← eraseP_eq_filter SubscriptionRegistration.subId nodup]
      rfl
    · by_cases same : at' = sub.topic
      · subst same
        simp only [removeFromTopic, Function.update_self, fits.registrations, List.filter_filter]
        exact List.filter_congr fun other _ => Bool.and_comm _ _
      · -- the id is registered under its own topic only
        simp only [removeFromTopic, Function.update_of_ne same, fits.registrations, List.filter_filter]
        refine List.filter_congr fun other member => ?_
        by_cases isId : other.subId = sub.subId
        · have equal := List.inj_on_of_nodup_map nodup member isActive isId
          simp [equal, Ne.symm same]
        · simp [isId]

theorem registrations_removeAll (subList : List (SubId × String)) (view : View) (topic : String) :
    (view.removeAll subList).registrations topic =
      (view.registrations topic).filter fun sub => (sub.subId, topic) ∉ subList := by
  induction subList generalizing view with
  | nil => simp [removeAll]
  | cons first rest inductionHypothesis =>
    have later := inductionHypothesis (view.removeFromTopic first.1 first.2)
    by_cases same : topic = first.2
    · subst same
      simp only [removeFromTopic, Function.update_self, List.filter_filter] at later
      refine later.trans (List.filter_congr fun sub _ => ?_)
      by_cases isId : sub.subId = first.1 <;> simp [isId, Prod.ext_iff]
    · simp only [removeFromTopic, Function.update_of_ne same] at later
      refine later.trans (List.filter_congr fun sub _ => ?_)
      simp [Prod.ext_iff, same]

theorem entries_removeAll (subList : List (SubId × String)) (view : View) :
    (view.removeAll subList).entries = view.entries := by
  induction subList generalizing view with
  | nil => rfl
  | cons first rest inductionHypothesis => exact inductionHypothesis _

theorem isClosed_untrackSubscription : (view.untrackSubscription id).2.isClosed = view.isClosed := by
  unfold untrackSubscription
  split <;> rfl

theorem isClosed_removeAll (subList : List (SubId × String)) (view : View) :
    (view.removeAll subList).isClosed = view.isClosed := by
  induction subList generalizing view with
  | nil => rfl
  | cons first rest inductionHypothesis => exact inductionHypothesis _

end View

end SpectraGQL.Subscriptions
