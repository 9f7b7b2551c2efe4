import SpectraGQL.Subscriptions.Hub
import Mathlib.Data.List.Nodup

/-! # What the hub holds of one connection

A call changes the view of its own connection only, and the lemmas say how.
-/

namespace SpectraGQL.Subscriptions

open Interaction

/-- The entries of a connection in both maps, and whether its channel is closed. -/
@[ext] structure View where
  entries : Option (List (SubId × String))
  registrations : String → List SubscriptionRegistration
  isClosed : Bool

/-- Among different keys, the first item with a key is the only one. -/
theorem eraseP_eq_filter {α β : Type} [DecidableEq β] (key : α → β) {items : List α} {wanted : β}
    (distinct : (items.map key).Nodup) :
    items.eraseP (fun item => key item = wanted) = items.filter fun item => key item ≠ wanted := by
  induction items with
  | nil => rfl
  | cons first rest inductionHypothesis =>
    rw [List.map_cons, List.nodup_cons] at distinct
    by_cases same : key first = wanted
    · subst same
      have kept : rest.filter (fun item => key item ≠ key first) = rest := by
        rw [List.filter_eq_self]
        intro item member
        have other : key item ≠ key first := fun equal =>
          distinct.1 (List.mem_map.mpr ⟨item, member, equal⟩)
        simpa using other
      simpa using kept.symm
    · simpa [same] using inductionHypothesis distinct.2

namespace View

def blank : View := ⟨none, fun _ => [], false⟩

def addToTopic (registration : SubscriptionRegistration) (view : View) : View :=
  let others := (view.registrations registration.topic).filter fun sub =>
    sub.subId ≠ registration.subId
  let kept := Function.update view.registrations registration.topic (others ++ [registration])
  { view with registrations := kept }

def removeFromTopic (subId : SubId) (topic : String) (view : View) : View :=
  let kept := (view.registrations topic).filter fun sub => sub.subId ≠ subId
  { view with registrations := Function.update view.registrations topic kept }

def removeAll (subList : List (SubId × String)) (view : View) : View :=
  subList.foldl (fun view sub => view.removeFromTopic sub.1 sub.2) view

def trackSubscription (subId : SubId) (topic : String) (view : View) : View :=
  let others := (view.entries.getD []).filter fun sub => sub.1 ≠ subId
  { view with entries := some (others ++ [(subId, topic)]) }

def untrackSubscription (subId : SubId) (view : View) : Option String × View :=
  match (view.entries.getD []).find? fun sub => sub.1 = subId with
  | none => (none, view)
  | some (_, topic) =>
    let kept := (view.entries.getD []).eraseP fun sub => sub.1 = subId
    (some topic, { view with entries := some kept })

end View

namespace SubscriptionHub

variable {hub before after : SubscriptionHub} {connId other : ConnectionId} {subId : SubId}
  {topic : String}

def view (hub : SubscriptionHub) (connId : ConnectionId) : View where
  entries := hub.connections connId
  registrations topic := ((hub.topics topic).getD []).filter fun sub => sub.connId = connId
  isClosed := (hub.channels connId).isClosed

@[simp] theorem view_new (capacity : ConnectionId → Nat) (connId : ConnectionId) :
    (SubscriptionHub.new capacity).view connId = View.blank := rfl

/-! ## Topics -/

theorem view_addToTopic_self (registration : SubscriptionRegistration) (hub : SubscriptionHub) :
    (hub.addToTopic registration).view registration.connId =
      (hub.view registration.connId).addToTopic registration := by
  refine View.ext rfl (funext fun topic => ?_) rfl
  by_cases same : topic = registration.topic
  · subst same
    simp only [view, addToTopic, View.addToTopic, Function.update_self, Option.getD_some,
      List.filter_append, List.filter_filter]
    congr 1
    · refine List.filter_congr fun sub _ => ?_
      by_cases own : sub.connId = registration.connId <;>
        simp [SubscriptionRegistration.isFor, own]
    · simp
  · simp [view, addToTopic, View.addToTopic, Function.update_of_ne same]

theorem view_addToTopic_of_ne {registration : SubscriptionRegistration}
    (different : registration.connId ≠ connId) :
    (hub.addToTopic registration).view connId = hub.view connId := by
  refine View.ext rfl (funext fun topic => ?_) rfl
  by_cases same : topic = registration.topic
  · subst same
    simp only [view, addToTopic, Function.update_self, Option.getD_some, List.filter_append,
      List.filter_filter]
    have notOwn : [registration].filter (fun sub => sub.connId = connId) = [] := by simp [different]
    rw [notOwn, List.append_nil]
    refine List.filter_congr fun sub _ => ?_
    by_cases own : sub.connId = connId
    · simp [SubscriptionRegistration.isFor, own, Ne.symm different]
    · simp [own]
  · simp [view, addToTopic, Function.update_of_ne same]

/-- Forgetting a topic without subscriptions makes no difference to what is registered. -/
theorem topics_removeFromTopic (connId : ConnectionId) (subId : SubId) (topic at' : String)
    (hub : SubscriptionHub) :
    ((hub.removeFromTopic connId subId topic).topics at').getD [] =
      if at' = topic then ((hub.topics topic).getD []).filter fun sub => !sub.isFor connId subId
      else (hub.topics at').getD [] := by
  cases found : hub.topics topic with
  | none =>
    by_cases same : at' = topic
    · subst same
      simp [removeFromTopic, found]
    · simp [removeFromTopic, found, same]
  | some subs =>
    by_cases same : at' = topic
    · subst same
      simp only [removeFromTopic, found, Function.update_self, if_true, Option.getD_some]
      split
      · rename_i gone
        exact gone.symm
      · rfl
    · simp [removeFromTopic, found, same]

@[simp] theorem connections_removeFromTopic :
    (hub.removeFromTopic connId subId topic).connections = hub.connections := by
  unfold removeFromTopic
  split <;> rfl

@[simp] theorem channels_removeFromTopic :
    (hub.removeFromTopic connId subId topic).channels = hub.channels := by
  unfold removeFromTopic
  split <;> rfl

theorem view_removeFromTopic_self :
    (hub.removeFromTopic connId subId topic).view connId =
      (hub.view connId).removeFromTopic subId topic := by
  refine View.ext (by simp [view, View.removeFromTopic]) (funext fun at' => ?_)
    (by simp [view, View.removeFromTopic])
  simp only [view, View.removeFromTopic, topics_removeFromTopic]
  by_cases same : at' = topic
  · subst same
    simp only [if_true, Function.update_self, List.filter_filter]
    refine List.filter_congr fun sub _ => ?_
    by_cases own : sub.connId = connId <;> simp [SubscriptionRegistration.isFor, own]
  · simp [same]

theorem view_removeFromTopic_of_ne (different : other ≠ connId) :
    (hub.removeFromTopic other subId topic).view connId = hub.view connId := by
  refine View.ext (by simp [view]) (funext fun at' => ?_) (by simp [view])
  simp only [view, topics_removeFromTopic]
  by_cases same : at' = topic
  · subst same
    simp only [if_true, List.filter_filter]
    refine List.filter_congr fun sub _ => ?_
    by_cases own : sub.connId = connId
    · simp [SubscriptionRegistration.isFor, own, Ne.symm different]
    · simp [own]
  · simp [same]

theorem view_removeAll_self (subList : List (SubId × String)) :
    (hub.removeAll connId subList).view connId = (hub.view connId).removeAll subList := by
  induction subList generalizing hub with
  | nil => rfl
  | cons sub rest inductionHypothesis =>
    calc ((hub.removeFromTopic connId sub.1 sub.2).removeAll connId rest).view connId
        = ((hub.removeFromTopic connId sub.1 sub.2).view connId).removeAll rest := inductionHypothesis
      _ = ((hub.view connId).removeFromTopic sub.1 sub.2).removeAll rest := by
        rw [view_removeFromTopic_self]

theorem view_removeAll_of_ne (subList : List (SubId × String)) (different : other ≠ connId) :
    (hub.removeAll other subList).view connId = hub.view connId := by
  induction subList generalizing hub with
  | nil => rfl
  | cons sub rest inductionHypothesis =>
    calc ((hub.removeFromTopic other sub.1 sub.2).removeAll other rest).view connId
        = (hub.removeFromTopic other sub.1 sub.2).view connId := inductionHypothesis
      _ = hub.view connId := view_removeFromTopic_of_ne different

/-! ## Connections -/

theorem view_trackSubscription_self :
    (hub.trackSubscription connId subId topic).view connId =
      (hub.view connId).trackSubscription subId topic := by
  simp [view, trackSubscription, View.trackSubscription]

theorem view_trackSubscription_of_ne (different : other ≠ connId) :
    (hub.trackSubscription other subId topic).view connId = hub.view connId := by
  simp [view, trackSubscription, Function.update_of_ne (Ne.symm different)]

/-- Nothing is found among no entries. -/
theorem untrackSubscription_of_entries (subId : SubId)
    (noEntries : (hub.view connId).entries.getD [] = []) :
    hub.untrackSubscription connId subId = (none, hub) := by
  simp only [view] at noEntries
  cases found : hub.connections connId with
  | none => simp [untrackSubscription, found]
  | some list =>
    rw [found, Option.getD_some] at noEntries
    simp [untrackSubscription, found, noEntries]

theorem view_untrackSubscription_self :
    ((hub.untrackSubscription connId subId).1,
        (hub.untrackSubscription connId subId).2.view connId) =
      (hub.view connId).untrackSubscription subId := by
  simp only [view, untrackSubscription, View.untrackSubscription]
  cases found : hub.connections connId with
  | none => simp [found]
  | some list =>
    cases tracked : list.find? fun sub => sub.1 = subId with
    | none => simp [found, tracked]
    | some sub => simp [tracked]

theorem view_untrackSubscription_of_ne (different : other ≠ connId) :
    (hub.untrackSubscription other subId).2.view connId = hub.view connId := by
  unfold untrackSubscription
  split
  · rfl
  · split
    · rfl
    · simp [view, Function.update_of_ne (Ne.symm different)]

theorem hasSubscription_eq :
    hub.hasSubscription connId subId =
      ((hub.view connId).entries.getD []).any fun sub => sub.1 = subId := by
  unfold hasSubscription view
  cases hub.connections connId with
  | none => rfl
  | some list => rfl

theorem view_forgetConnection_self :
    (hub.forgetConnection connId).2.view connId = { hub.view connId with entries := none } := by
  simp [view, forgetConnection]

theorem view_forgetConnection_of_ne (different : other ≠ connId) :
    (hub.forgetConnection other).2.view connId = hub.view connId := by
  simp [view, forgetConnection, Function.update_of_ne (Ne.symm different)]

/-! ## Channels -/

theorem view_setChannel_self (channel : Channel) :
    (hub.setChannel connId channel).view connId =
      { hub.view connId with isClosed := channel.isClosed } := by
  simp [view, setChannel]

theorem view_setChannel_of_ne (channel : Channel) (different : other ≠ connId) :
    (hub.setChannel other channel).view connId = hub.view connId := by
  simp [view, setChannel, Function.update_of_ne (Ne.symm different)]

/-- The messages of a channel do not belong to the view. -/
theorem view_setChannel_of_open {channel : Channel}
    (same : channel.isClosed = (hub.channels other).isClosed) :
    (hub.setChannel other channel).view connId = hub.view connId := by
  by_cases own : other = connId
  · subst own
    rw [view_setChannel_self, same]
    rfl
  · exact view_setChannel_of_ne channel own

theorem view_trySend (message : ServerMessage) :
    (hub.trySend other message).2.view connId = hub.view connId := by
  simp only [trySend]
  split
  · rfl
  · split
    · rfl
    · exact view_setChannel_of_open rfl

/-- Only the channel of an actor that is gone is closed. -/
theorem isClosed_of_trySend {message : ServerMessage}
    (closed : (hub.trySend connId message).1 = .closed) : (hub.view connId).isClosed = true := by
  simp only [trySend] at closed
  split at closed
  · assumption
  · split at closed <;> cases closed

theorem view_selects {event : LoopEvent} (selected : selects other before event after) :
    after.view connId = before.view connId := by
  cases event with
  | outgoing message =>
    obtain ⟨rest, -, rfl⟩ := selected
    exact view_setChannel_of_open rfl
  | pingTick | incoming _ | readError | streamEnded => exact congrArg (view · connId) selected

end SubscriptionHub

/-! ## Calls -/

/-- The connection whose view a call may change. -/
def HubCall.owner : HubCall → Option ConnectionId
  | .select connId => some connId
  | .send connId _ => some connId
  | .addToTopic registration => some registration.connId
  | .trackSubscription connId _ _ => some connId
  | .untrackSubscription connId _ => some connId
  | .removeFromTopic connId _ _ => some connId
  | .hasSubscription connId _ => some connId
  | .forgetConnection connId => some connId
  | .removeAll connId _ => some connId
  | .closeChannel connId => some connId
  | .subscribers _ => none
  | .trySend _ _ => none

section Calls

variable {call : HubCall} {before after : SubscriptionHub} {answer : call.Answer}
  {connId : ConnectionId}

/-- A call leaves the views of the other connections alone. -/
theorem view_of_owner_ne (effect : hubMeaning call before answer after)
    (notOwn : call.owner ≠ some connId) : after.view connId = before.view connId := by
  cases call with
  | select other => exact SubscriptionHub.view_selects effect
  | send other message => exact congrArg (·.view connId) effect
  | addToTopic registration =>
    rw [show after = _ from effect]
    exact SubscriptionHub.view_addToTopic_of_ne fun same => notOwn (congrArg some same)
  | trackSubscription other subId topic =>
    rw [show after = _ from effect]
    exact SubscriptionHub.view_trackSubscription_of_ne fun same => notOwn (congrArg some same)
  | untrackSubscription other subId =>
    rw [(Prod.mk.inj effect).2]
    exact SubscriptionHub.view_untrackSubscription_of_ne fun same => notOwn (congrArg some same)
  | removeFromTopic other subId topic =>
    rw [show after = _ from effect]
    exact SubscriptionHub.view_removeFromTopic_of_ne fun same => notOwn (congrArg some same)
  | hasSubscription other subId => exact congrArg (·.view connId) effect.2
  | forgetConnection other =>
    rw [(Prod.mk.inj effect).2]
    exact SubscriptionHub.view_forgetConnection_of_ne fun same => notOwn (congrArg some same)
  | removeAll other subList =>
    rw [show after = _ from effect]
    exact SubscriptionHub.view_removeAll_of_ne subList fun same => notOwn (congrArg some same)
  | closeChannel other =>
    rw [show after = _ from effect]
    exact SubscriptionHub.view_setChannel_of_ne _ fun same => notOwn (congrArg some same)
  | subscribers topic => exact congrArg (·.view connId) effect.2
  | trySend other message =>
    rw [(Prod.mk.inj effect).2]
    exact SubscriptionHub.view_trySend message

/-- What the calls of a connection do to its view, whatever the hub holds of the others. -/
def viewMeaning : Semantics hubSignature View
  | .select _, before, _, after => after = before
  | .send _ _, before, _, after => after = before
  | .addToTopic registration, before, _, after => after = before.addToTopic registration
  | .trackSubscription _ subId topic, before, _, after => after = before.trackSubscription subId topic
  | .untrackSubscription _ subId, before, answer, after =>
    (answer, after) = before.untrackSubscription subId
  | .removeFromTopic _ subId topic, before, _, after => after = before.removeFromTopic subId topic
  | .hasSubscription _ subId, before, answer, after =>
    answer = ((before.entries.getD []).any fun sub => sub.1 = subId) ∧ after = before
  | .forgetConnection _, before, answer, after =>
    answer = before.entries ∧ after = { before with entries := none }
  | .removeAll _ subList, before, _, after => after = before.removeAll subList
  | .closeChannel _, before, _, after => after = { before with isClosed := true }
  | .subscribers _, before, _, after => after = before
  | .trySend _ _, before, _, after => after = before

/-- A hub shared by many connections serves each like a hub of its own. -/
theorem viewMeaning_of_owner (effect : hubMeaning call before answer after)
    (own : call.owner = some connId) :
    viewMeaning call (before.view connId) answer (after.view connId) := by
  cases call with
  | subscribers _ => cases own
  | trySend _ _ => cases own
  | select other => exact SubscriptionHub.view_selects effect
  | send other message => exact congrArg (·.view connId) effect
  | addToTopic registration =>
    cases own
    rw [show after = _ from effect]
    exact SubscriptionHub.view_addToTopic_self registration before
  | trackSubscription other subId topic =>
    cases own
    rw [show after = _ from effect]
    exact SubscriptionHub.view_trackSubscription_self
  | untrackSubscription other subId =>
    cases own
    obtain ⟨rfl, rfl⟩ := Prod.mk.inj effect
    exact SubscriptionHub.view_untrackSubscription_self
  | removeFromTopic other subId topic =>
    cases own
    rw [show after = _ from effect]
    exact SubscriptionHub.view_removeFromTopic_self
  | hasSubscription other subId =>
    cases own
    obtain ⟨rfl, rfl⟩ := effect
    exact ⟨SubscriptionHub.hasSubscription_eq, rfl⟩
  | forgetConnection other =>
    cases own
    obtain ⟨rfl, rfl⟩ := Prod.mk.inj effect
    exact ⟨rfl, SubscriptionHub.view_forgetConnection_self⟩
  | removeAll other subList =>
    cases own
    rw [show after = _ from effect]
    exact SubscriptionHub.view_removeAll_self subList
  | closeChannel other =>
    cases own
    rw [show after = _ from effect]
    exact SubscriptionHub.view_setChannel_self _

/-- Every call can be answered: no task waits for ever. -/
theorem exists_answer (call : HubCall) (before : SubscriptionHub) :
    ∃ answer after, hubMeaning call before answer after := by
  cases call with
  | select _ => exact ⟨.streamEnded, before, rfl⟩
  | send _ _ => exact ⟨true, before, rfl⟩
  | addToTopic _ | trackSubscription _ _ _ | removeFromTopic _ _ _ | removeAll _ _
  | closeChannel _ => exact ⟨(), _, rfl⟩
  | untrackSubscription _ _ | forgetConnection _ | trySend _ _ => exact ⟨_, _, rfl⟩
  | hasSubscription _ _ | subscribers _ => exact ⟨_, before, rfl, rfl⟩

end Calls

end SpectraGQL.Subscriptions
