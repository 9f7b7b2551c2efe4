import SpectraGQL.Subscriptions.Mirror

/-! # Operations that nothing interrupts (`subscriptions/hub.rs`)

Every connection registers its own sender, so the hub of the programs is a `Hub` whose channels
are the connections (`toHub`).  An operation that runs alone does what the operation of that hub
does, one lemma for each operation.
-/

namespace SpectraGQL.Subscriptions

open Interaction SpectraGQL.Http SpectraGQL.Protocol

/-- The registration with the sender of its connection. -/
def SubscriptionRegistration.subscriber (sub : SubscriptionRegistration) : Subscriber ConnectionId :=
  ⟨sub, sub.connId⟩

namespace SubscriptionHub

/-- The hub with the senders in its topics. -/
def toHub (hub : SubscriptionHub) : Hub ConnectionId where
  topics := Option.map (List.map SubscriptionRegistration.subscriber) ∘ hub.topics
  connections := hub.connections
  channels := hub.channels

variable {before after : SubscriptionHub} {connId : ConnectionId} {subId : SubId} {topic : String}
  {events : List (Event hubSignature)}

theorem toHub_new (capacity : ConnectionId → Nat) :
    (new capacity).toHub = Hub.new fun connId => { capacity := capacity connId } := rfl

@[simp] theorem toHub_connections (hub : SubscriptionHub) : hub.toHub.connections = hub.connections := rfl

@[simp] theorem toHub_channels (hub : SubscriptionHub) : hub.toHub.channels = hub.channels := rfl

theorem toHub_topics (hub : SubscriptionHub) (topic : String) :
    hub.toHub.topics topic = (hub.topics topic).map (List.map SubscriptionRegistration.subscriber) := rfl

/-! ## Calls -/

/-- A filter that does not look at the sender. -/
theorem map_subscriber_filter (keep : SubscriptionRegistration → Bool) (subs : List SubscriptionRegistration) :
    (subs.map SubscriptionRegistration.subscriber).filter (fun sub => keep sub.toSubscriptionRegistration) =
      (subs.filter keep).map SubscriptionRegistration.subscriber := by
  rw [List.filter_map]
  rfl

theorem toHub_register (registration : SubscriptionRegistration) (hub : SubscriptionHub) :
    ((hub.addToTopic registration).trackSubscription registration.connId registration.subId
      registration.topic).toHub = hub.toHub.register registration.subscriber := by
  have others : ((hub.toHub.topics registration.topic).getD []).filter (fun sub =>
      !sub.isFor registration.connId registration.subId) =
      (((hub.topics registration.topic).getD []).filter fun sub =>
        !sub.isFor registration.connId registration.subId).map SubscriptionRegistration.subscriber := by
    rw [toHub_topics, ← map_subscriber_filter]
    cases hub.topics registration.topic <;> rfl
  unfold Hub.register
  simp only [SubscriptionRegistration.subscriber] at others ⊢
  rw [others]
  simp only [toHub, addToTopic, trackSubscription, Function.comp_update, Option.map_some, List.map_append]
  rfl

theorem toHub_removeFromTopic (hub : SubscriptionHub) :
    (hub.removeFromTopic connId subId topic).toHub = hub.toHub.removeFromTopic connId subId topic := by
  unfold removeFromTopic Hub.removeFromTopic
  rw [toHub_topics]
  cases hub.topics topic with
  | none => rfl
  | some subs =>
    simp only [Option.map_some, map_subscriber_filter fun sub => !sub.isFor connId subId, List.isEmpty_map]
    simp only [toHub, Function.comp_update, List.isEmpty_iff]
    split <;> rfl

theorem toHub_removeAll (subList : List (SubId × String)) (hub : SubscriptionHub) :
    (hub.removeAll connId subList).toHub = hub.toHub.removeAll connId subList := by
  induction subList generalizing hub with
  | nil => rfl
  | cons entry rest inductionHypothesis =>
    have first := inductionHypothesis (hub.removeFromTopic connId entry.1 entry.2)
    rw [toHub_removeFromTopic] at first
    exact first

theorem toHub_trySend (connId : ConnectionId) (message : ServerMessage) (hub : SubscriptionHub) :
    hub.toHub.trySend connId message =
      ((hub.trySend connId message).1, (hub.trySend connId message).2.toHub) := by
  unfold trySend Hub.trySend
  rw [toHub_channels]
  by_cases isClosed : (hub.channels connId).isClosed
  · simp only [if_pos isClosed]
  · by_cases isFull : (hub.channels connId).queue.length ≥ (hub.channels connId).capacity
    · simp only [if_neg isClosed, if_pos isFull]
    · simp only [if_neg isClosed, if_neg isFull]
      rfl

/-- What was tracked goes from its topic. -/
theorem toHub_untrackSubscription (hub : SubscriptionHub) :
    hub.toHub.deregister connId subId =
      match hub.untrackSubscription connId subId with
      | (some topic, untracked) => (untracked.removeFromTopic connId subId topic).toHub
      | (none, untracked) => untracked.toHub := by
  unfold Hub.deregister untrackSubscription
  rw [toHub_connections]
  cases hub.connections connId with
  | none => rfl
  | some list =>
    cases found : list.find? fun entry => entry.1 = subId with
    | none => simp only [found]
    | some entry =>
      simp only [found, toHub_removeFromTopic]
      rfl

theorem toHub_forgetConnection (hub : SubscriptionHub) :
    hub.toHub.deregisterConnection connId =
      match hub.forgetConnection connId with
      | (some subList, forgotten) => (forgotten.removeAll connId subList).toHub
      | (none, forgotten) => forgotten.toHub := by
  unfold Hub.deregisterConnection forgetConnection
  rw [toHub_connections]
  cases tracked : hub.connections connId with
  | none =>
    have unchanged : Function.update hub.connections connId none = hub.connections := by
      rw [← tracked, Function.update_eq_self]
    simp only [unchanged]
  | some subList =>
    simp only [toHub_removeAll]
    rfl

/-! ## Operations -/

theorem register_alone {rootField : String}
    (run : (register connId subId topic rootField).Runs hubMeaning before events () after) :
    after.toHub = before.toHub.register ⟨⟨connId, subId, topic, rootField⟩, connId⟩ := by
  cases run with
  | call added rest =>
    cases rest with
    | call tracked rest =>
      cases rest
      cases added
      cases tracked
      exact toHub_register ⟨connId, subId, topic, rootField⟩ before

theorem deregister_alone (run : (deregister connId subId).Runs hubMeaning before events () after) :
    after.toHub = before.toHub.deregister connId subId := by
  cases run with
  | @call _ _ _ middle _ answer _ _ untracked rest =>
    have untracked : before.untrackSubscription connId subId = (answer, middle) := Eq.symm untracked
    rw [toHub_untrackSubscription, untracked]
    cases answer with
    | none =>
      cases rest
      rfl
    | some topic =>
      cases rest with
      | call removed rest =>
        cases rest
        exact congrArg toHub removed

theorem deregisterConnection_alone
    (run : (deregisterConnection connId).Runs hubMeaning before events () after) :
    after.toHub = before.toHub.deregisterConnection connId := by
  cases run with
  | @call _ _ _ middle _ answer _ _ forgotten rest =>
    have forgotten : before.forgetConnection connId = (answer, middle) := Eq.symm forgotten
    rw [toHub_forgetConnection, forgotten]
    cases answer with
    | none =>
      cases rest
      rfl
    | some subList =>
      cases rest with
      | call removed rest =>
        cases rest
        exact congrArg toHub removed

theorem sendToAll_alone {payload : Json} {sentCount : Nat} {dead : List (ConnectionId × SubId)}
    {subs : List SubscriptionRegistration} {result : Nat × List (ConnectionId × SubId)}
    (run : (sendToAll payload sentCount dead subs).Runs hubMeaning before events result after) :
    before.toHub.sendToAll payload sentCount dead (subs.map SubscriptionRegistration.subscriber) =
      (result, after.toHub) := by
  induction subs generalizing sentCount dead before events with
  | nil =>
    cases run
    rfl
  | cons sub rest inductionHypothesis =>
    cases run with
    | @call _ _ _ middle _ answer _ _ sent later =>
      have sent : before.trySend sub.connId (sub.subscriber.next payload) = (answer, middle) := Eq.symm sent
      have isSent := toHub_trySend sub.connId (sub.subscriber.next payload) before
      rw [sent] at isSent
      rw [List.map_cons, Hub.sendToAll]
      cases answer <;> simp only [SubscriptionRegistration.subscriber] at isSent ⊢ <;> rw [isSent] <;>
        exact inductionHypothesis later

theorem deregisterAll_alone {dead : List (ConnectionId × SubId)}
    (run : (deregisterAll dead).Runs hubMeaning before events () after) :
    after.toHub = before.toHub.deregisterAll dead := by
  induction dead generalizing before events with
  | nil =>
    cases run
    rfl
  | cons sub rest inductionHypothesis =>
    obtain ⟨_, _, middle, _, rfl, first, later⟩ := run.of_bind
    rw [inductionHypothesis later, deregister_alone first]
    rfl

/-- A broadcast that runs alone sends and counts as the broadcast of the hub does. -/
theorem broadcast_alone {payload : Json} {sentCount : Nat}
    (run : (broadcast topic payload).Runs hubMeaning before events sentCount after) :
    before.toHub.broadcast topic payload = (sentCount, after.toHub) := by
  cases run with
  | @call _ _ _ middle _ answer _ _ found rest =>
    -- the copy of the subscribers is read first, the hub is as before
    obtain ⟨found, rfl⟩ := found
    rw [Hub.broadcast, toHub_topics, ← found]
    cases answer with
    | none =>
      cases rest
      rfl
    | some subs =>
      change (sendToAll payload 0 [] subs >>= fun sent => deregisterAll sent.2 >>= fun _ =>
        .ret sent.1).Runs hubMeaning _ _ _ _ at rest
      obtain ⟨_, sent, _, _, rfl, sending, rest⟩ := rest.of_bind
      obtain ⟨_, _, _, _, rfl, dropping, rest⟩ := rest.of_bind
      cases rest
      simp only [Option.map_some, sendToAll_alone sending, deregisterAll_alone dropping]

end SubscriptionHub

end SpectraGQL.Subscriptions
