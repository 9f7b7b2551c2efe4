import SpectraGQL.Subscriptions.Mirror

/-! # Whom a broadcast reaches (`subscriptions/hub.rs`)

A broadcast goes through the registrations of its topic once, in their order.  Each message takes
a slot of the channel of its registration, so a registration gets its message if the channel is
open and has a slot left for it after those before it.  Registrations whose channel is closed are
dropped from both maps, and nothing else changes.
-/

namespace SpectraGQL.Subscriptions

open SpectraGQL.Http SpectraGQL.Protocol

/-- How many messages a channel still takes. -/
def Channel.room (channel : Channel) : Nat :=
  if channel.isClosed then 0 else channel.capacity - channel.queue.length

def Channel.append (messages : List ServerMessage) (channel : Channel) : Channel :=
  { channel with queue := channel.queue ++ messages }

@[simp] theorem Channel.append_nil (channel : Channel) : channel.append [] = channel := by
  simp [Channel.append]

@[simp] theorem Channel.append_append (channel : Channel) (first rest : List ServerMessage) :
    (channel.append first).append rest = channel.append (first ++ rest) := by
  simp [Channel.append]

theorem Channel.room_append_singleton (channel : Channel) (message : ServerMessage) :
    (channel.append [message]).room = channel.room - 1 := by
  unfold Channel.room Channel.append
  split
  · rfl
  · simp only [List.length_append, List.length_singleton]
    omega

namespace Hub

variable {κ : Type} {hub : Hub κ} {sub : Subscriber κ} {topic : String}

/-! ## Closed channels -/

/-- The channel of the registration is closed. -/
def isDead (hub : Hub κ) (sub : Subscriber κ) : Bool := (hub.channels sub.tx).isClosed

/-- The connections and ids of the registrations of a topic whose channel is closed. -/
def deadOf (hub : Hub κ) (topic : String) : List (ConnectionId × SubId) :=
  ((hub.subscribers topic).filter hub.isDead).map fun sub => (sub.connId, sub.subId)

theorem Mirrored.mem_deadOf_iff (mirrored : hub.Mirrored) (member : sub ∈ hub.subscribers topic) :
    (sub.connId, sub.subId) ∈ hub.deadOf topic ↔ hub.isDead sub = true := by
  constructor
  · intro dead
    obtain ⟨other, isDead, same⟩ := List.mem_map.mp dead
    obtain ⟨otherMember, isDead⟩ := List.mem_filter.mp isDead
    rw [← List.inj_on_of_nodup_map (mirrored.topicsOnce topic) otherMember member same]
    exact isDead
  · intro isDead
    exact List.mem_map.mpr ⟨sub, List.mem_filter.mpr ⟨member, isDead⟩, rfl⟩

theorem decide_mem_deadOf (connId : ConnectionId) (subId : SubId) :
    decide ((connId, subId) ∈ hub.deadOf topic) =
      (hub.subscribers topic).any fun sub => sub.isFor connId subId && hub.isDead sub := by
  rw [Bool.eq_iff_iff]
  simp only [deadOf, List.mem_map, List.mem_filter, List.any_eq_true, Bool.and_eq_true,
    SubscriptionRegistration.isFor, decide_eq_true_eq, Prod.mk.injEq]
  grind

/-- What is dead is tracked for the topic only. -/
theorem Mirrored.untracked_of_mem_deadOf (mirrored : hub.Mirrored) {other : String}
    (different : other ≠ topic) : ∀ dead ∈ hub.deadOf topic, (dead.2, other) ∉ hub.tracked dead.1 := by
  intro dead member isTracked
  obtain ⟨sub, isDead, rfl⟩ := List.mem_map.mp member
  have registered : hub.Registered sub.connId sub.subId topic :=
    ⟨sub, List.mem_of_mem_filter isDead, by simp [SubscriptionRegistration.isFor]⟩
  rw [← mirrored.registered_iff] at isTracked
  exact different (mirrored.topic_unique isTracked registered)

variable [DecidableEq κ]

/-! ## Sending -/

theorem trySend_of_closed {tx : κ} (message : ServerMessage) (closed : (hub.channels tx).isClosed = true) :
    hub.trySend tx message = (.closed, hub) := by
  simp [trySend, closed]

theorem trySend_of_full {tx : κ} (message : ServerMessage)
    (isOpen : (hub.channels tx).isClosed = false) (full : (hub.channels tx).room = 0) :
    hub.trySend tx message = (.full, hub) := by
  have noSlot : (hub.channels tx).queue.length ≥ (hub.channels tx).capacity := by
    simp only [Channel.room, isOpen, Bool.false_eq_true, if_false] at full
    omega
  simp [trySend, isOpen, noSlot]

theorem trySend_of_room {tx : κ} (message : ServerMessage) (hasRoom : (hub.channels tx).room ≠ 0) :
    hub.trySend tx message = (.ok, { hub with
      channels := Function.update hub.channels tx ((hub.channels tx).append [message]) }) := by
  have isOpen : (hub.channels tx).isClosed = false := by
    by_contra closed
    simp [Channel.room, closed] at hasRoom
  have hasSlot : ¬ (hub.channels tx).queue.length ≥ (hub.channels tx).capacity := by
    simp only [Channel.room, isOpen, Bool.false_eq_true, if_false] at hasRoom
    omega
  simp [trySend, isOpen, hasSlot, Channel.append]

/-- The registrations that get their message, when the channels take so many. -/
def served (room : κ → Nat) : List (Subscriber κ) → List (Subscriber κ)
  | [] => []
  | sub :: rest =>
    if room sub.tx = 0 then served room rest
    else sub :: served (Function.update room sub.tx (room sub.tx - 1)) rest

def delivered (hub : Hub κ) (payload : Json) (sent : List (Subscriber κ)) : Hub κ :=
  { hub with
    channels := fun tx =>
      (hub.channels tx).append ((sent.filter fun sub => sub.tx = tx).map (Subscriber.next payload)) }

/-- The hub when one registration has got its message. -/
def sentTo (hub : Hub κ) (payload : Json) (sub : Subscriber κ) : Hub κ :=
  { hub with
    channels := Function.update hub.channels sub.tx
      ((hub.channels sub.tx).append [sub.next payload]) }

theorem room_sentTo (hub : Hub κ) (payload : Json) (sub : Subscriber κ) :
    (fun tx => ((hub.sentTo payload sub).channels tx).room) =
      Function.update (fun tx => (hub.channels tx).room) sub.tx ((hub.channels sub.tx).room - 1) := by
  funext tx
  by_cases same : tx = sub.tx
  · subst same
    simp [sentTo, Channel.room_append_singleton]
  · simp [sentTo, same]

theorem isDead_sentTo (hub : Hub κ) (payload : Json) (sub : Subscriber κ) :
    (hub.sentTo payload sub).isDead = hub.isDead := by
  funext other
  by_cases same : other.tx = sub.tx
  · simp [isDead, sentTo, same, Channel.append]
  · simp [isDead, sentTo, same]

theorem delivered_sentTo (hub : Hub κ) (payload : Json) (sub : Subscriber κ)
    (sent : List (Subscriber κ)) :
    (hub.sentTo payload sub).delivered payload sent = hub.delivered payload (sub :: sent) := by
  unfold delivered
  congr 1
  funext tx
  by_cases same : tx = sub.tx
  · subst same
    simp [sentTo]
  · simp [sentTo, same, Ne.symm same]

theorem sendToAll_eq (payload : Json) (sentCount : Nat) (dead : List (ConnectionId × SubId))
    (subs : List (Subscriber κ)) (hub : Hub κ) :
    sendToAll payload sentCount dead subs hub =
      ((sentCount + (served (fun tx => (hub.channels tx).room) subs).length,
        dead ++ (subs.filter hub.isDead).map fun sub => (sub.connId, sub.subId)),
        hub.delivered payload (served (fun tx => (hub.channels tx).room) subs)) := by
  induction subs generalizing sentCount dead hub with
  | nil => simp [sendToAll, served, delivered]
  | cons sub rest inductionHypothesis =>
    by_cases full : (hub.channels sub.tx).room = 0
    · cases closed : (hub.channels sub.tx).isClosed with
      | true =>
        simp only [sendToAll, trySend_of_closed _ closed, inductionHypothesis, served, full, if_true]
        simp [isDead, closed]
      | false =>
        simp only [sendToAll, trySend_of_full _ closed full, inductionHypothesis, served, full, if_true]
        simp [isDead, closed]
    · have isOpen : hub.isDead sub = false := by
        by_contra closed
        simp only [isDead, Bool.not_eq_false] at closed
        simp [Channel.room, closed] at full
      simp only [sendToAll, trySend_of_room _ full, ← sentTo.eq_def]
      simp only [inductionHypothesis, room_sentTo, isDead_sentTo, delivered_sentTo, served, full, if_false,
        List.filter_cons_of_neg (by simp [isOpen] : ¬ hub.isDead sub = true), List.length_cons]
      simp only [Nat.add_assoc, Nat.add_comm 1]

theorem served_sublist (room : κ → Nat) (subs : List (Subscriber κ)) : (served room subs).Sublist subs := by
  induction subs generalizing room with
  | nil => exact List.Sublist.refl _
  | cons first rest inductionHypothesis =>
    unfold served
    split
    · exact (inductionHypothesis room).cons first
    · exact (inductionHypothesis _).cons_cons first

/-- A registration gets its message if those before it leave a slot of the channel. -/
theorem mem_served_iff (room : κ → Nat) (earlier later : List (Subscriber κ))
    (distinct : (earlier ++ sub :: later).Nodup) :
    sub ∈ served room (earlier ++ sub :: later) ↔
      (earlier.countP fun other => other.tx = sub.tx) < room sub.tx := by
  induction earlier generalizing room with
  | nil =>
    have notLater : sub ∉ served room later := fun member =>
      (List.nodup_cons.mp distinct).1 ((served_sublist room later).subset member)
    by_cases full : room sub.tx = 0
    · simp [served, full, notLater]
    · simpa [served, full] using Nat.pos_of_ne_zero full
  | cons first rest inductionHypothesis =>
    obtain ⟨fresh, distinct⟩ := List.nodup_cons.mp distinct
    have different : sub ≠ first := fun same => fresh (by simp [same])
    by_cases full : room first.tx = 0
    · simp only [List.cons_append, served, full, if_true, inductionHypothesis room distinct]
      by_cases same : first.tx = sub.tx
      · rw [same] at full
        simp [full]
      · simp [same]
    · simp only [List.cons_append, served, full, if_false, List.mem_cons, different, false_or,
        inductionHypothesis _ distinct]
      by_cases same : first.tx = sub.tx
      · -- the first one takes a slot of the same channel
        rw [same] at full ⊢
        simp only [same, decide_true, List.countP_cons_of_pos, Function.update_self]
        omega
      · simp [same, Ne.symm same]

/-! ## Broadcasts -/

/-- The registrations that a broadcast reaches. -/
def recipients (hub : Hub κ) (topic : String) : List (Subscriber κ) :=
  served (fun tx => (hub.channels tx).room) (hub.subscribers topic)

theorem broadcast_eq (hub : Hub κ) (topic : String) (payload : Json) :
    hub.broadcast topic payload =
      ((hub.recipients topic).length,
        (hub.delivered payload (hub.recipients topic)).deregisterAll (hub.deadOf topic)) := by
  unfold broadcast recipients deadOf subscribers
  cases hub.topics topic with
  | none => simp [served, delivered, deregisterAll]
  | some subs => simp [sendToAll_eq]

theorem channels_broadcast (hub : Hub κ) (topic : String) (payload : Json) (tx : κ) :
    (hub.broadcast topic payload).2.channels tx = (hub.channels tx).append
      (((hub.recipients topic).filter fun sub => sub.tx = tx).map (Subscriber.next payload)) := by
  rw [broadcast_eq, channels_deregisterAll]
  rfl

/-- What a broadcast does when `due` says, with the registrations before it, which registration is
    to get the message. -/
structure DeliversOnce (hub : Hub κ) (topic : String) (payload : Json)
    (due : List (Subscriber κ) → Subscriber κ → Prop) (result : Nat × Hub κ) : Prop where
  /-- Each of them is sent one message, under its id, and nothing else is sent. -/
  sends : ∃ sent : List (Subscriber κ), sent.Sublist (hub.subscribers topic) ∧
    (∀ earlier sub later, hub.subscribers topic = earlier ++ sub :: later →
      (sub ∈ sent ↔ due earlier sub)) ∧
    result.1 = sent.length ∧
    ∀ tx, result.2.channels tx = (hub.channels tx).append
      ((sent.filter fun sub => sub.tx = tx).map (Subscriber.next payload))
  removes : result.2.subscribers topic = (hub.subscribers topic).filter fun sub => !hub.isDead sub
  untracks : ∀ connId, result.2.tracked connId = (hub.tracked connId).filter fun entry =>
    !(hub.subscribers topic).any fun sub => sub.isFor connId entry.1 && hub.isDead sub
  otherTopics : ∀ other ≠ topic, result.2.topics other = hub.topics other
  otherConnections : ∀ connId,
    (∀ sub ∈ hub.subscribers topic, hub.isDead sub = true → sub.connId ≠ connId) →
    result.2.connections connId = hub.connections connId

/-- The channel is open, and the earlier registrations leave it a slot. -/
def HasRoom (hub : Hub κ) (earlier : List (Subscriber κ)) (sub : Subscriber κ) : Prop :=
  (hub.channels sub.tx).isClosed = false ∧
    (hub.channels sub.tx).queue.length + (earlier.countP fun other => other.tx = sub.tx) <
      (hub.channels sub.tx).capacity

theorem hasRoom_iff (earlier : List (Subscriber κ)) :
    hub.HasRoom earlier sub ↔
      (earlier.countP fun other => other.tx = sub.tx) < (hub.channels sub.tx).room := by
  unfold HasRoom Channel.room
  cases (hub.channels sub.tx).isClosed with
  | true => simp
  | false =>
    simp only [true_and, Bool.false_eq_true, if_false]
    omega

theorem Mirrored.delivered (mirrored : hub.Mirrored) (payload : Json) (sent : List (Subscriber κ)) :
    (hub.delivered payload sent).Mirrored :=
  ⟨mirrored.registered_iff, mirrored.topicsOnce, mirrored.connectionsOnce⟩

theorem Mirrored.keeps_broadcast (mirrored : hub.Mirrored) (topic : String) (payload : Json) :
    Keeps (fun connId subId => (connId, subId) ∉ hub.deadOf topic) hub
      (hub.broadcast topic payload).2 := by
  rw [broadcast_eq]
  have keeps := (mirrored.delivered payload (hub.recipients topic)).keeps_deregisterAll
    (hub.deadOf topic)
  exact ⟨keeps.topics, keeps.connections⟩

/-- Every registration of the topic gets its message once if its channel is open and has a slot
    left; those with a closed channel are removed, and nothing else changes. -/
theorem broadcast_delivers_once (hub : Hub κ) (mirrored : hub.Mirrored) (topic : String)
    (payload : Json) :
    DeliversOnce hub topic payload hub.HasRoom (hub.broadcast topic payload) := by
  have keeps := mirrored.keeps_broadcast topic payload
  have mirrored' := mirrored.delivered payload (hub.recipients topic)
  constructor
  case sends =>
    refine ⟨hub.recipients topic, served_sublist _ _, ?_, by rw [broadcast_eq],
      hub.channels_broadcast topic payload⟩
    intro earlier sub later split
    -- a registration is before itself at no other place
    have distinct := (mirrored.topicsOnce topic).of_map
    rw [recipients]
    rw [split] at distinct ⊢
    rw [mem_served_iff _ _ _ distinct, hasRoom_iff]
  case removes =>
    rw [keeps.topics]
    refine List.filter_congr fun sub member => ?_
    simp [mirrored.mem_deadOf_iff member]
  case untracks =>
    intro connId
    rw [keeps.connections]
    refine List.filter_congr fun entry _ => ?_
    rw [decide_not, decide_mem_deadOf]
  case otherTopics =>
    intro other different
    rw [broadcast_eq]
    exact mirrored'.topics_deregisterAll (mirrored.untracked_of_mem_deadOf different)
  case otherConnections =>
    -- only connections of dead registrations are looked up in the second pass
    intro connId alive
    rw [broadcast_eq]
    refine mirrored'.connections_deregisterAll ?_
    intro dead member same
    obtain ⟨sub, isDead, rfl⟩ := List.mem_map.mp member
    obtain ⟨member, isDead⟩ := List.mem_filter.mp isDead
    exact alive sub member isDead same.symm

/-! ## One slot for two -/

/-- Two subscriptions of one connection, whose messages go through the same sender. -/
def priceUpdates (subId : SubId) : Subscriber Unit := ⟨⟨"browser", subId, "prices", "prices"⟩, ()⟩

/-- The channel takes one message. -/
def lastSlot : Hub Unit :=
  ((new fun _ => { capacity := 1 }).register (priceUpdates "1")).register (priceUpdates "2")

theorem mirrored_lastSlot : lastSlot.Mirrored := by
  have first : ((new fun _ : Unit => { capacity := 1 }).register (priceUpdates "1")).Mirrored := by
    rw [(mirrored_new _).register_iff]
    intro topic isTracked
    cases isTracked
  rw [lastSlot, first.register_iff]
  intro topic isTracked
  rw [mem_tracked_register_iff] at isTracked
  obtain earlier | same := isTracked
  · cases earlier.1
  · exact same.2.2

theorem broadcast_delivers_once_lastSlot :
    DeliversOnce lastSlot "prices" .null lastSlot.HasRoom (lastSlot.broadcast "prices" .null) :=
  broadcast_delivers_once lastSlot mirrored_lastSlot "prices" .null

/-- Both find the channel open and not full before the broadcast, and the second gets nothing. -/
theorem second_misses_message : lastSlot.Mirrored ∧
    ¬ DeliversOnce lastSlot "prices" .null (fun _ => lastSlot.HasRoom [])
      (lastSlot.broadcast "prices" .null) := by
  refine ⟨mirrored_lastSlot, fun delivers => ?_⟩
  obtain ⟨sent, -, isDue, sentCount, -⟩ := delivers.sends
  have isFree : ∀ subId, lastSlot.HasRoom [] (priceUpdates subId) := fun _ => ⟨rfl, Nat.one_pos⟩
  have first := (isDue [] (priceUpdates "1") [priceUpdates "2"] rfl).mpr (isFree "1")
  have second := (isDue [priceUpdates "1"] (priceUpdates "2") [] rfl).mpr (isFree "2")
  have one : sent.length = 1 := sentCount.symm
  obtain ⟨only, rfl⟩ := List.length_eq_one_iff.mp one
  rw [List.mem_singleton] at first second
  have sameId := congrArg (fun sub => sub.subId) (first.trans second.symm)
  simp [priceUpdates] at sameId

end Hub

end SpectraGQL.Subscriptions
