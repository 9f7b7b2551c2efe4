import SpectraGQL.Subscriptions.Delivery

/-! # Subscriptions that are registered again (`subscriptions/hub.rs`)

`register` drops an earlier registration under the same connection and id, from the list of the
connection whatever its topic was, but of the topics only from the one it registers for.  So an
id that is registered again for another topic stays registered for the old one: no map leads
there any more, neither `deregister` nor `deregister_connection` finds it, and a broadcast on the
old topic still goes to it.  In all other histories the maps mirror each other.
-/

namespace SpectraGQL.Subscriptions

open SpectraGQL.Protocol

/-! ## Histories -/

/-- The operations of a hub, and what the holders of its channels do. -/
inductive HubOp (κ : Type) where
  | register (registration : Subscriber κ)
  | deregister (connId : ConnectionId) (subId : SubId)
  | deregisterConnection (connId : ConnectionId)
  | broadcast (topic : String) (payload : Json)
  /-- Messages are received or sent elsewhere, and receivers are dropped. -/
  | useChannels (use : (κ → Channel) → κ → Channel)

section Histories

variable {κ : Type} {ops : List (HubOp κ)} {op : HubOp κ} {hub : Hub κ}

/-- What an operation registers for a connection and an id. -/
def HubOp.registers (connId : ConnectionId) (subId : SubId) : HubOp κ → Option (Subscriber κ)
  | .register registration => if registration.isFor connId subId then some registration else none
  | _ => none

/-- What has been registered last for a connection and an id; it has replaced all before it. -/
def lastRegistration (ops : List (HubOp κ)) (connId : ConnectionId) (subId : SubId) :
    Option (Subscriber κ) :=
  ops.reverse.findSome? (HubOp.registers connId subId)

theorem lastRegistration_append (connId : ConnectionId) (subId : SubId) :
    lastRegistration (ops ++ [op]) connId subId =
      (op.registers connId subId <|> lastRegistration ops connId subId) := by
  simp only [lastRegistration, List.reverse_append, List.reverse_singleton, List.singleton_append,
    List.findSome?_cons]
  cases op.registers connId subId <;> rfl

/-- Nothing that is registered has been replaced. -/
structure Current (ops : List (HubOp κ)) (hub : Hub κ) : Prop where
  mirrored : hub.Mirrored
  latest : ∀ topic, ∀ sub ∈ hub.subscribers topic,
    sub.topic = topic ∧ lastRegistration ops sub.connId sub.subId = some sub

theorem Current.keeps {keep : ConnectionId → SubId → Bool} {after : Hub κ} (current : Current ops hub)
    (keeps : Hub.Keeps keep hub after) (silent : ∀ connId subId, op.registers connId subId = none) :
    Current (ops ++ [op]) after where
  mirrored := keeps.mirrored current.mirrored
  latest topic sub member := by
    rw [keeps.topics] at member
    rw [lastRegistration_append, silent]
    exact current.latest topic sub (List.mem_of_mem_filter member)

theorem Current.register {registration : Subscriber κ} (current : Current ops hub)
    (fits : hub.Fits registration) :
    Current (ops ++ [.register registration]) (hub.register registration) where
  mirrored := current.mirrored.register_iff.mpr fits
  latest topic sub member := by
    have unlessReplaced : sub ∈ hub.subscribers topic →
        registration.isFor sub.connId sub.subId = false →
        sub.topic = topic ∧
          lastRegistration (ops ++ [.register registration]) sub.connId sub.subId = some sub := by
      intro earlier other
      rw [lastRegistration_append, HubOp.registers, other]
      exact current.latest topic sub earlier
    by_cases same : topic = registration.topic
    · subst same
      rw [Hub.subscribers_register_self, List.mem_append, List.mem_singleton] at member
      obtain earlier | rfl := member
      · obtain ⟨earlier, other⟩ := List.mem_filter.mp earlier
        have swapped : registration.isFor sub.connId sub.subId =
            sub.isFor registration.connId registration.subId :=
          decide_eq_decide.mpr (and_congr eq_comm eq_comm)
        apply unlessReplaced earlier
        simpa [swapped] using other
      · have isItself : sub.isFor sub.connId sub.subId = true := by
          simp [SubscriptionRegistration.isFor]
        rw [lastRegistration_append, HubOp.registers, if_pos isItself]
        exact ⟨rfl, rfl⟩
    · rw [Hub.subscribers, Hub.topics_register_of_ne same] at member
      apply unlessReplaced member
      by_contra isFor
      have isKey : registration.connId = sub.connId ∧ registration.subId = sub.subId := by
        simpa [SubscriptionRegistration.isFor] using isFor
      -- the registration would move to another topic
      have registered : hub.Registered registration.connId registration.subId topic :=
        ⟨sub, member, by simp [SubscriptionRegistration.isFor, isKey]⟩
      rw [current.mirrored.registered_iff] at registered
      exact same (fits topic registered)

variable [DecidableEq κ] {channels : κ → Channel}

def HubOp.apply : HubOp κ → Hub κ → Hub κ
  | .register registration, hub => hub.register registration
  | .deregister connId subId, hub => hub.deregister connId subId
  | .deregisterConnection connId, hub => hub.deregisterConnection connId
  | .broadcast topic payload, hub => (hub.broadcast topic payload).2
  | .useChannels use, hub => { hub with channels := use hub.channels }

/-- The hub after some operations, from an empty one. -/
def afterOps (channels : κ → Channel) (ops : List (HubOp κ)) : Hub κ :=
  ops.foldl (fun hub op => op.apply hub) (Hub.new channels)

/-- The maps mirror each other; what is to be removed is removed everywhere, and no broadcast
    delivers to a registration that has been replaced. -/
structure Consistent (ops : List (HubOp κ)) (hub : Hub κ) : Prop where
  mirrored : hub.Mirrored
  deregister : ∀ connId subId topic, ¬ (hub.deregister connId subId).Registered connId subId topic
  deregisterConnection : ∀ connId subId topic,
    ¬ (hub.deregisterConnection connId).Registered connId subId topic
  broadcast : ∀ topic payload, ∃ sent : List (Subscriber κ),
    (∀ sub ∈ sent, sub.topic = topic ∧ lastRegistration ops sub.connId sub.subId = some sub) ∧
    ∀ tx, (hub.broadcast topic payload).2.channels tx = (hub.channels tx).append
      ((sent.filter fun sub => sub.tx = tx).map (Subscriber.next payload))

theorem afterOps_append : afterOps channels (ops ++ [op]) = op.apply (afterOps channels ops) := by
  simp [afterOps]

theorem Current.apply (current : Current ops hub)
    (fits : ∀ registration, op = .register registration → hub.Fits registration) :
    Current (ops ++ [op]) (op.apply hub) := by
  cases op with
  | register registration => exact current.register (fits registration rfl)
  | deregister connId subId =>
    exact current.keeps (current.mirrored.keeps_deregister connId subId) fun _ _ => rfl
  | deregisterConnection connId =>
    exact current.keeps (current.mirrored.keeps_deregisterConnection connId) fun _ _ => rfl
  | broadcast topic payload =>
    exact current.keeps (current.mirrored.keeps_broadcast topic payload) fun _ _ => rfl
  | useChannels use =>
    constructor
    · exact ⟨current.mirrored.registered_iff, current.mirrored.topicsOnce, current.mirrored.connectionsOnce⟩
    · intro topic sub member
      rw [lastRegistration_append]
      exact current.latest topic sub member

theorem Current.consistent (current : Current ops hub) : Consistent ops hub where
  mirrored := current.mirrored
  deregister connId subId topic := by
    rw [(current.mirrored.keeps_deregister connId subId).registered_iff]
    simp
  deregisterConnection connId subId topic := by
    rw [(current.mirrored.keeps_deregisterConnection connId).registered_iff]
    simp
  broadcast topic payload := by
    refine ⟨hub.recipients topic, fun sub member => ?_, hub.channels_broadcast topic payload⟩
    exact current.latest topic sub ((Hub.served_sublist _ _).subset member)

/-- In every history the maps mirror each other and nothing is left behind after each operation,
    exactly if no id is ever registered while its connection has it for another topic. -/
theorem hub_consistent_iff (channels : κ → Channel) (ops : List (HubOp κ)) :
    (∀ earlier, earlier <+: ops → Consistent earlier (afterOps channels earlier)) ↔
      ∀ earlier registration, earlier ++ [.register registration] <+: ops →
        (afterOps channels earlier).Fits registration := by
  constructor
  · intro consistent earlier registration isPrefix
    have before := (consistent earlier ((List.prefix_append _ _).trans isPrefix)).mirrored
    have after := (consistent _ isPrefix).mirrored
    rw [afterOps_append] at after
    exact before.register_iff.mp after
  · intro fits earlier isPrefix
    suffices current : Current earlier (afterOps channels earlier) from current.consistent
    induction earlier using List.reverseRecOn with
    | nil =>
      constructor
      · exact Hub.mirrored_new channels
      · intro topic sub member
        cases member
    | append_singleton earlier op inductionHypothesis =>
      rw [afterOps_append]
      apply (inductionHypothesis ((List.prefix_append _ _).trans isPrefix)).apply
      intro registration isRegister
      subst isRegister
      exact fits earlier registration isPrefix

end Histories

/-! ## A subscription that moves -/

def browserUpdates (topic : String) : Subscriber Unit := ⟨⟨"browser", "1", topic, "updates"⟩, ()⟩

/-- One id, registered for two topics. -/
def movingOps : List (HubOp Unit) :=
  [.register (browserUpdates "orders"), .register (browserUpdates "prices")]

/-- The registration for the first topic outlives its connection. -/
theorem moved_registration_stays :
    ¬ (∀ earlier, earlier <+: movingOps →
      Consistent earlier (afterOps (fun _ => { capacity := 1 }) earlier)) ∧
    ((afterOps (fun _ => { capacity := 1 }) movingOps).deregisterConnection "browser").Registered
      "browser" "1" "orders" := by
  have stays : ((afterOps (fun _ => { capacity := 1 }) movingOps).deregisterConnection
      "browser").Registered "browser" "1" "orders" :=
    ⟨browserUpdates "orders", List.mem_singleton.mpr rfl, rfl⟩
  refine ⟨fun consistent => ?_, stays⟩
  exact (consistent movingOps (List.prefix_refl _)).deregisterConnection _ _ _ stays

end SpectraGQL.Subscriptions
