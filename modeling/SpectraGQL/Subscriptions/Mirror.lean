import SpectraGQL.Subscriptions.View

/-! # Registrations in both maps (`subscriptions/hub.rs`, one operation at a time)

A registration stands under its topic, and with its topic under its connection.  While the two
maps mirror each other, `deregister`, `deregister_connection` and the second pass of a broadcast
drop the same registrations from both (`Keeps`), and a broadcast sends to every registration of
its topic whose channel has room.
-/

namespace SpectraGQL.Subscriptions

open Interaction SpectraGQL.Http SpectraGQL.Protocol

/-! ## The hub -/

/-- A registration with the sender it came with; `κ` are the channels. -/
structure Subscriber (κ : Type) extends SubscriptionRegistration where
  tx : κ

/-- What is sent for a registration when a payload is broadcast. -/
def Subscriber.next {κ : Type} (payload : Json) (sub : Subscriber κ) : ServerMessage :=
  .next sub.subId (SubscriptionHub.formatData sub.rootField payload)

/-- The hub between two of its operations. -/
structure Hub (κ : Type) where
  topics : String → Option (List (Subscriber κ))
  connections : ConnectionId → Option (List (SubId × String))
  channels : κ → Channel

namespace Hub

variable {κ : Type}

def new (channels : κ → Channel) : Hub κ := ⟨fun _ => none, fun _ => none, channels⟩

def register (registration : Subscriber κ) (hub : Hub κ) : Hub κ :=
  let subs := ((hub.topics registration.topic).getD []).filter fun sub =>
    !sub.isFor registration.connId registration.subId
  let list := ((hub.connections registration.connId).getD []).filter fun entry =>
    entry.1 ≠ registration.subId
  { hub with
    topics := Function.update hub.topics registration.topic (some (subs ++ [registration]))
    connections := Function.update hub.connections registration.connId
      (some (list ++ [(registration.subId, registration.topic)])) }

/-- A topic without subscriptions is forgotten. -/
def removeFromTopic (connId : ConnectionId) (subId : SubId) (topic : String) (hub : Hub κ) : Hub κ :=
  match hub.topics topic with
  | none => hub
  | some subs =>
    let kept := subs.filter fun sub => !sub.isFor connId subId
    { hub with topics := Function.update hub.topics topic (if kept.isEmpty then none else some kept) }

def deregister (connId : ConnectionId) (subId : SubId) (hub : Hub κ) : Hub κ :=
  match hub.connections connId with
  | none => hub
  | some list =>
    match list.find? fun entry => entry.1 = subId with
    | none => hub
    | some (_, topic) =>
      let kept := list.eraseP fun entry => entry.1 = subId
      removeFromTopic connId subId topic
        { hub with connections := Function.update hub.connections connId (some kept) }

def removeAll (connId : ConnectionId) (subList : List (SubId × String)) (hub : Hub κ) : Hub κ :=
  subList.foldl (fun hub entry => hub.removeFromTopic connId entry.1 entry.2) hub

def deregisterConnection (connId : ConnectionId) (hub : Hub κ) : Hub κ :=
  match hub.connections connId with
  | none => hub
  | some subList =>
    removeAll connId subList
      { hub with connections := Function.update hub.connections connId none }

/-- The loop over the dead subscribers. -/
def deregisterAll (dead : List (ConnectionId × SubId)) (hub : Hub κ) : Hub κ :=
  dead.foldl (fun hub sub => hub.deregister sub.1 sub.2) hub

variable [DecidableEq κ]

def trySend (tx : κ) (message : ServerMessage) (hub : Hub κ) : TrySend × Hub κ :=
  let channel := hub.channels tx
  if channel.isClosed then (.closed, hub)
  else if channel.queue.length ≥ channel.capacity then (.full, hub)
  else (.ok, { hub with
    channels := Function.update hub.channels tx { channel with queue := channel.queue ++ [message] } })

/-- The loop over the subscribers: how many got the message, and whose channel is closed. -/
def sendToAll (payload : Json) (sentCount : Nat) (dead : List (ConnectionId × SubId)) :
    List (Subscriber κ) → Hub κ → (Nat × List (ConnectionId × SubId)) × Hub κ
  | [], hub => ((sentCount, dead), hub)
  | sub :: rest, hub =>
    match hub.trySend sub.tx (sub.next payload) with
    | (.ok, hub) => sendToAll payload (sentCount + 1) dead rest hub
    | (.closed, hub) => sendToAll payload sentCount (dead ++ [(sub.connId, sub.subId)]) rest hub
    | (.full, hub) => sendToAll payload sentCount dead rest hub

def broadcast (topic : String) (payload : Json) (hub : Hub κ) : Nat × Hub κ :=
  match hub.topics topic with
  | none => (0, hub)
  | some subscribers =>
    let ((sentCount, dead), hub) := sendToAll payload 0 [] subscribers hub
    (sentCount, hub.deregisterAll dead)

end Hub

/-! ## The two maps -/

namespace Hub

variable {κ : Type} {hub before after : Hub κ} {connId : ConnectionId} {subId : SubId} {topic : String}

def subscribers (hub : Hub κ) (topic : String) : List (Subscriber κ) := (hub.topics topic).getD []

def tracked (hub : Hub κ) (connId : ConnectionId) : List (SubId × String) :=
  (hub.connections connId).getD []

/-- A connection and an id, registered for a topic. -/
def Registered (hub : Hub κ) (connId : ConnectionId) (subId : SubId) (topic : String) : Prop :=
  ∃ sub ∈ hub.subscribers topic, sub.isFor connId subId = true

/-- The maps mirror each other, and a connection and an id occur once. -/
structure Mirrored (hub : Hub κ) : Prop where
  registered_iff : ∀ connId subId topic,
    hub.Registered connId subId topic ↔ (subId, topic) ∈ hub.tracked connId
  topicsOnce : ∀ topic, ((hub.subscribers topic).map fun sub => (sub.connId, sub.subId)).Nodup
  connectionsOnce : ∀ connId, ((hub.tracked connId).map Prod.fst).Nodup

theorem mirrored_new (channels : κ → Channel) : (new channels).Mirrored := by
  constructor <;> simp [Registered, subscribers, tracked, new]

theorem Mirrored.topic_unique (mirrored : hub.Mirrored) {other : String}
    (registered : hub.Registered connId subId topic) (again : hub.Registered connId subId other) :
    topic = other := by
  rw [mirrored.registered_iff] at registered again
  have same := List.inj_on_of_nodup_map (mirrored.connectionsOnce connId) registered again rfl
  exact (Prod.mk.inj same).2

/-! ### Dropping registrations -/

/-- Both maps without the registrations that are not kept. -/
structure Keeps (keep : ConnectionId → SubId → Bool) (before after : Hub κ) : Prop where
  topics : ∀ topic,
    after.subscribers topic = (before.subscribers topic).filter fun sub => keep sub.connId sub.subId
  connections : ∀ connId,
    after.tracked connId = (before.tracked connId).filter fun entry => keep connId entry.1

namespace Keeps

variable {keep : ConnectionId → SubId → Bool}

theorem registered_iff (keeps : Keeps keep before after) :
    after.Registered connId subId topic ↔
      before.Registered connId subId topic ∧ keep connId subId = true := by
  simp only [Registered, keeps.topics, List.mem_filter, SubscriptionRegistration.isFor, decide_eq_true_eq]
  constructor
  · intro registered
    obtain ⟨sub, ⟨member, kept⟩, rfl, rfl⟩ := registered
    exact ⟨⟨sub, member, rfl, rfl⟩, kept⟩
  · intro registered
    obtain ⟨⟨sub, member, rfl, rfl⟩, kept⟩ := registered
    exact ⟨sub, ⟨member, kept⟩, rfl, rfl⟩

theorem mirrored (keeps : Keeps keep before after) (mirrored : before.Mirrored) : after.Mirrored where
  registered_iff connId subId topic := by
    rw [keeps.registered_iff, mirrored.registered_iff, keeps.connections, List.mem_filter]
  topicsOnce topic := by
    rw [keeps.topics]
    exact (mirrored.topicsOnce topic).sublist ((List.filter_sublist).map _)
  connectionsOnce connId := by
    rw [keeps.connections]
    exact (mirrored.connectionsOnce connId).sublist ((List.filter_sublist).map _)

theorem all (hub : Hub κ) (everything : ∀ connId subId topic,
    hub.Registered connId subId topic ∨ (subId, topic) ∈ hub.tracked connId → keep connId subId = true) :
    Keeps keep hub hub where
  topics topic := by
    symm
    rw [List.filter_eq_self]
    intro sub member
    exact everything _ _ topic (.inl ⟨sub, member, by simp [SubscriptionRegistration.isFor]⟩)
  connections connId := by
    symm
    rw [List.filter_eq_self]
    intro entry member
    exact everything connId entry.1 entry.2 (.inr member)

theorem trans {next : Hub κ} {later : ConnectionId → SubId → Bool} (keeps : Keeps keep before after)
    (laterKeeps : Keeps later after next) :
    Keeps (fun connId subId => keep connId subId && later connId subId) before next where
  topics topic := by
    rw [laterKeeps.topics, keeps.topics, List.filter_filter]
    exact List.filter_congr fun sub _ => Bool.and_comm _ _
  connections connId := by
    rw [laterKeeps.connections, keeps.connections, List.filter_filter]
    exact List.filter_congr fun entry _ => Bool.and_comm _ _

theorem congr {other : ConnectionId → SubId → Bool} (keeps : Keeps keep before after)
    (same : ∀ connId subId, other connId subId = keep connId subId) : Keeps other before after := by
  have equal : other = keep := funext fun connId => funext fun subId => same connId subId
  rw [equal]
  exact keeps

end Keeps

@[simp] theorem connections_removeFromTopic (connId : ConnectionId) (subId : SubId) (topic : String) :
    (hub.removeFromTopic connId subId topic).connections = hub.connections := by
  unfold removeFromTopic
  split <;> rfl

@[simp] theorem tracked_removeFromTopic (connId other : ConnectionId) (subId : SubId) (topic : String) :
    (hub.removeFromTopic connId subId topic).tracked other = hub.tracked other := by
  simp [tracked]

@[simp] theorem channels_removeFromTopic (connId : ConnectionId) (subId : SubId) (topic : String) :
    (hub.removeFromTopic connId subId topic).channels = hub.channels := by
  unfold removeFromTopic
  split <;> rfl

theorem topics_removeFromTopic_of_ne {other : String} (different : other ≠ topic) :
    (hub.removeFromTopic connId subId topic).topics other = hub.topics other := by
  unfold removeFromTopic
  split
  · rfl
  · simp [different]

theorem subscribers_removeFromTopic_self :
    (hub.removeFromTopic connId subId topic).subscribers topic =
      (hub.subscribers topic).filter fun sub => !sub.isFor connId subId := by
  unfold removeFromTopic subscribers
  split
  · rename_i missing
    simp [missing]
  · rename_i subs found
    by_cases none : subs.filter (fun sub => !sub.isFor connId subId) = []
    · simp [found, none]
    · simp [found, none]

theorem deregister_of_untracked (untracked : ∀ topic, (subId, topic) ∉ hub.tracked connId) :
    hub.deregister connId subId = hub := by
  unfold deregister
  split
  · rfl
  · rename_i list found
    have missing : list.find? (fun entry => entry.1 = subId) = none := by
      rw [List.find?_eq_none]
      intro entry member isId
      obtain ⟨id, topic⟩ := entry
      obtain rfl : id = subId := by simpa using isId
      exact untracked topic (by simpa [tracked, found] using member)
    simp [missing]

theorem Mirrored.deregister_of_tracked (mirrored : hub.Mirrored)
    (isTracked : (subId, topic) ∈ hub.tracked connId) :
    hub.deregister connId subId = removeFromTopic connId subId topic
      { hub with
        connections := Function.update hub.connections connId
          (some ((hub.tracked connId).filter fun entry => entry.1 ≠ subId)) } := by
  have once := mirrored.connectionsOnce connId
  unfold tracked at isTracked once ⊢
  unfold deregister
  cases found : hub.connections connId with
  | none => simp [found] at isTracked
  | some list =>
    simp only [found, Option.getD_some] at isTracked once ⊢
    obtain ⟨entry, isFirst⟩ := Option.isSome_iff_exists.mp
      (List.find?_isSome.mpr ⟨(subId, topic), isTracked, decide_eq_true rfl⟩ :
        (list.find? fun entry => entry.1 = subId).isSome)
    have isId : entry.1 = subId := by simpa using List.find?_some isFirst
    have same := List.inj_on_of_nodup_map once (List.mem_of_find?_eq_some isFirst) isTracked isId
    simp only [isFirst, same, eraseP_eq_filter Prod.fst once]

/-- The registration is in no other topic. -/
theorem Mirrored.keeps_deregister (mirrored : hub.Mirrored) (connId : ConnectionId) (subId : SubId) :
    Keeps (fun other id => !(other = connId && id = subId)) hub (hub.deregister connId subId) := by
  by_cases isTracked : ∃ topic, (subId, topic) ∈ hub.tracked connId
  · obtain ⟨topic, isTracked⟩ := isTracked
    rw [mirrored.deregister_of_tracked isTracked]
    constructor
    · intro other
      by_cases same : other = topic
      · subst same
        rw [subscribers_removeFromTopic_self]
        simp [SubscriptionRegistration.isFor, subscribers]
      · -- a registration of this connection and id in another topic would be tracked there too
        have elsewhere : ∀ sub ∈ hub.subscribers other,
            ¬ (sub.connId = connId ∧ sub.subId = subId) := by
          intro sub member isFor
          have registered : hub.Registered connId subId other :=
            ⟨sub, member, by simpa [SubscriptionRegistration.isFor] using isFor⟩
          exact same (mirrored.topic_unique registered ((mirrored.registered_iff _ _ _).mpr isTracked))
        have kept : (hub.subscribers other).filter
            (fun sub => !(sub.connId = connId && sub.subId = subId)) = hub.subscribers other := by
          rw [List.filter_eq_self]
          intro sub member
          simpa using not_and_or.mp (elsewhere sub member)
        rw [subscribers, topics_removeFromTopic_of_ne same]
        exact kept.symm
    · intro other
      rw [tracked_removeFromTopic]
      by_cases same : other = connId
      · subst same
        simp [tracked]
      · simp [tracked, same]
  · rw [not_exists] at isTracked
    rw [deregister_of_untracked isTracked]
    apply Keeps.all
    intro other id topic present
    rw [mirrored.registered_iff, or_self] at present
    have different : ¬ (other = connId ∧ id = subId) := by
      intro isTarget
      obtain ⟨rfl, rfl⟩ := isTarget
      exact isTracked topic present
    simpa using not_and_or.mp different

@[simp] theorem channels_deregister (connId : ConnectionId) (subId : SubId) :
    (hub.deregister connId subId).channels = hub.channels := by
  unfold deregister
  split
  · rfl
  · split
    · rfl
    · rw [channels_removeFromTopic]

theorem Mirrored.topics_deregister (mirrored : hub.Mirrored)
    (untracked : (subId, topic) ∉ hub.tracked connId) :
    (hub.deregister connId subId).topics topic = hub.topics topic := by
  by_cases isTracked : ∃ other, (subId, other) ∈ hub.tracked connId
  · obtain ⟨other, isTracked⟩ := isTracked
    have different : topic ≠ other := by
      intro same
      subst same
      exact untracked isTracked
    rw [mirrored.deregister_of_tracked isTracked, topics_removeFromTopic_of_ne different]
  · rw [deregister_of_untracked (not_exists.mp isTracked)]

theorem Mirrored.connections_deregister (mirrored : hub.Mirrored) {other : ConnectionId}
    (different : other ≠ connId) :
    (hub.deregister connId subId).connections other = hub.connections other := by
  by_cases isTracked : ∃ topic, (subId, topic) ∈ hub.tracked connId
  · obtain ⟨topic, isTracked⟩ := isTracked
    rw [mirrored.deregister_of_tracked isTracked]
    simp [different]
  · rw [deregister_of_untracked (not_exists.mp isTracked)]

/-! ### Dropping several -/

@[simp] theorem channels_deregisterAll (dead : List (ConnectionId × SubId)) :
    (hub.deregisterAll dead).channels = hub.channels := by
  induction dead generalizing hub with
  | nil => rfl
  | cons first rest inductionHypothesis =>
    rw [deregisterAll, List.foldl_cons, ← deregisterAll, inductionHypothesis, channels_deregister]

theorem Mirrored.keeps_deregisterAll (mirrored : hub.Mirrored) (dead : List (ConnectionId × SubId)) :
    Keeps (fun connId subId => (connId, subId) ∉ dead) hub (hub.deregisterAll dead) := by
  induction dead generalizing hub with
  | nil => exact Keeps.all hub fun _ _ _ _ => by simp
  | cons first rest inductionHypothesis =>
    have keeps := mirrored.keeps_deregister first.1 first.2
    refine (keeps.trans (inductionHypothesis (keeps.mirrored mirrored))).congr fun connId subId => ?_
    simp [Prod.ext_iff]

theorem Mirrored.topics_deregisterAll (mirrored : hub.Mirrored) {dead : List (ConnectionId × SubId)}
    (untracked : ∀ sub ∈ dead, (sub.2, topic) ∉ hub.tracked sub.1) :
    (hub.deregisterAll dead).topics topic = hub.topics topic := by
  induction dead generalizing hub with
  | nil => rfl
  | cons first rest inductionHypothesis =>
    have keeps := mirrored.keeps_deregister first.1 first.2
    rw [deregisterAll, List.foldl_cons, ← deregisterAll, inductionHypothesis (keeps.mirrored mirrored),
      mirrored.topics_deregister (untracked first List.mem_cons_self)]
    intro sub member isTracked
    rw [keeps.connections] at isTracked
    exact untracked sub (List.mem_cons_of_mem _ member) (List.mem_of_mem_filter isTracked)

theorem Mirrored.connections_deregisterAll (mirrored : hub.Mirrored)
    {dead : List (ConnectionId × SubId)} (others : ∀ sub ∈ dead, connId ≠ sub.1) :
    (hub.deregisterAll dead).connections connId = hub.connections connId := by
  induction dead generalizing hub with
  | nil => rfl
  | cons first rest inductionHypothesis =>
    have keeps := mirrored.keeps_deregister first.1 first.2
    rw [deregisterAll, List.foldl_cons, ← deregisterAll, inductionHypothesis (keeps.mirrored mirrored),
      mirrored.connections_deregister (others first List.mem_cons_self)]
    exact fun sub member => others sub (List.mem_cons_of_mem _ member)

theorem subscribers_removeAll (subList : List (SubId × String)) :
    (hub.removeAll connId subList).subscribers topic = (hub.subscribers topic).filter fun sub =>
      !(sub.connId = connId && (sub.subId, topic) ∈ subList) := by
  induction subList generalizing hub with
  | nil => simp [removeAll]
  | cons first rest inductionHypothesis =>
    rw [removeAll, List.foldl_cons, ← removeAll, inductionHypothesis]
    by_cases same : topic = first.2
    · subst same
      rw [subscribers_removeFromTopic_self, List.filter_filter]
      refine List.filter_congr fun sub _ => ?_
      simp only [SubscriptionRegistration.isFor, Prod.ext_iff, List.mem_cons]
      grind
    · rw [subscribers, topics_removeFromTopic_of_ne same]
      refine List.filter_congr fun sub _ => ?_
      simp [Prod.ext_iff, same]

@[simp] theorem tracked_removeAll (subList : List (SubId × String)) (other : ConnectionId) :
    (hub.removeAll connId subList).tracked other = hub.tracked other := by
  induction subList generalizing hub with
  | nil => rfl
  | cons first rest inductionHypothesis =>
    rw [removeAll, List.foldl_cons, ← removeAll, inductionHypothesis, tracked_removeFromTopic]

/-- What the connection is registered for is what it is tracked with. -/
theorem Mirrored.keeps_deregisterConnection (mirrored : hub.Mirrored) (connId : ConnectionId) :
    Keeps (fun other _ => other ≠ connId) hub (hub.deregisterConnection connId) := by
  have subscribers_eq : ∀ topic, (hub.deregisterConnection connId).subscribers topic =
      (hub.subscribers topic).filter fun sub =>
        !(sub.connId = connId && (sub.subId, topic) ∈ hub.tracked connId) := by
    intro topic
    unfold deregisterConnection
    cases found : hub.connections connId with
    | none => simp [tracked, found]
    | some subList =>
      simp only [subscribers_removeAll]
      simp [subscribers, tracked, found]
  constructor
  · intro topic
    rw [subscribers_eq]
    refine List.filter_congr fun sub member => ?_
    by_cases own : sub.connId = connId
    · -- all that the connection is registered for is in the list that is gone through
      have registered : hub.Registered connId sub.subId topic :=
        ⟨sub, member, by simp [SubscriptionRegistration.isFor, own]⟩
      rw [mirrored.registered_iff] at registered
      simp [own, registered]
    · simp [own]
  · intro other
    unfold deregisterConnection
    cases found : hub.connections connId with
    | none =>
      by_cases same : other = connId
      · subst same
        simp [tracked, found]
      · simp [same]
    | some subList =>
      simp only [tracked_removeAll]
      by_cases same : other = connId
      · subst same
        simp [tracked]
      · simp [tracked, same]

/-! ### Registering -/

section Register

variable {registration : Subscriber κ}

theorem subscribers_register_self :
    (hub.register registration).subscribers registration.topic =
      (hub.subscribers registration.topic).filter
        (fun sub => !sub.isFor registration.connId registration.subId) ++ [registration] := by
  simp [register, subscribers]

theorem topics_register_of_ne (different : topic ≠ registration.topic) :
    (hub.register registration).topics topic = hub.topics topic := by
  simp [register, different]

theorem tracked_register_self :
    (hub.register registration).tracked registration.connId =
      (hub.tracked registration.connId).filter (fun entry => entry.1 ≠ registration.subId) ++
        [(registration.subId, registration.topic)] := by
  simp [register, tracked]

theorem connections_register_of_ne (different : connId ≠ registration.connId) :
    (hub.register registration).connections connId = hub.connections connId := by
  simp [register, different]

/-- In the other topics nothing is removed. -/
theorem registered_register_iff :
    (hub.register registration).Registered connId subId topic ↔
      hub.Registered connId subId topic ∨
        connId = registration.connId ∧ subId = registration.subId ∧ topic = registration.topic := by
  by_cases same : topic = registration.topic
  · subst same
    simp only [Registered, subscribers_register_self, List.mem_append, List.mem_filter,
      List.mem_singleton, SubscriptionRegistration.isFor, decide_eq_true_eq]
    grind
  · simp [Registered, subscribers, topics_register_of_ne same, same]

/-- Under the connection the id is replaced, whatever its topic was. -/
theorem mem_tracked_register_iff :
    (subId, topic) ∈ (hub.register registration).tracked connId ↔
      ((subId, topic) ∈ hub.tracked connId ∧
        ¬ (connId = registration.connId ∧ subId = registration.subId)) ∨
        connId = registration.connId ∧ subId = registration.subId ∧ topic = registration.topic := by
  by_cases same : connId = registration.connId
  · subst same
    rw [tracked_register_self]
    simp
  · simp [tracked, connections_register_of_ne same, same]

/-- The id is registered for no other topic. -/
def Fits (hub : Hub κ) (registration : Subscriber κ) : Prop :=
  ∀ topic, (registration.subId, topic) ∈ hub.tracked registration.connId → topic = registration.topic

/-- The maps still mirror each other exactly if the id is not tracked with another topic. -/
theorem Mirrored.register_iff (mirrored : hub.Mirrored) :
    (hub.register registration).Mirrored ↔ hub.Fits registration := by
  constructor
  · intro after topic isTracked
    by_contra different
    -- it stays registered for its old topic, but is not tracked with it any more
    have registered := (mirrored.registered_iff _ _ _).mpr isTracked
    have stays : (hub.register registration).Registered registration.connId registration.subId topic :=
      registered_register_iff.mpr (.inl registered)
    rw [after.registered_iff, mem_tracked_register_iff] at stays
    simp [different] at stays
  · intro fits
    constructor
    · intro connId subId topic
      rw [registered_register_iff, mem_tracked_register_iff, mirrored.registered_iff]
      constructor
      · intro present
        by_cases target : connId = registration.connId ∧ subId = registration.subId
        · obtain ⟨rfl, rfl⟩ := target
          have atTopic : topic = registration.topic := present.elim (fits topic) fun same => same.2.2
          exact .inr ⟨rfl, rfl, atTopic⟩
        · exact present.imp (fun isTracked => ⟨isTracked, target⟩) id
      · exact fun present => present.imp (fun isTracked => isTracked.1) id
    · intro topic
      by_cases same : topic = registration.topic
      · subst same
        rw [subscribers_register_self, List.map_append, List.map_singleton, List.nodup_append']
        refine ⟨(mirrored.topicsOnce _).sublist ((List.filter_sublist).map _), List.nodup_singleton _, ?_⟩
        rw [List.disjoint_singleton]
        intro isKey
        obtain ⟨sub, kept, same⟩ := List.mem_map.mp isKey
        simp [SubscriptionRegistration.isFor, Prod.mk.inj same] at kept
      · rw [subscribers, topics_register_of_ne same]
        exact mirrored.topicsOnce topic
    · intro connId
      by_cases same : connId = registration.connId
      · subst same
        rw [tracked_register_self, List.map_append, List.map_singleton, List.nodup_append']
        refine ⟨(mirrored.connectionsOnce _).sublist ((List.filter_sublist).map _),
          List.nodup_singleton _, ?_⟩
        rw [List.disjoint_singleton]
        simp
      · rw [tracked, connections_register_of_ne same]
        exact mirrored.connectionsOnce connId

end Register

end Hub

end SpectraGQL.Subscriptions
