import Mathlib.Data.List.Forall2
import Mathlib.Data.List.TakeWhile
import SpectraGQL.Subscriptions.Phases
import SpectraGQL.Subscriptions.Registry

/-! # What an actor writes

A broadcast copies the subscribers of its topic, and sends to them one by one.  A message waits
in the channel of its connection until the actor takes it.  Between the copy and the write the
client may complete the subscription, and use its id again.

The messages in a channel do not say which broadcast they come from.  `Outbox` keeps their
senders, in the order of the channel.
-/

namespace SpectraGQL.Subscriptions

open Interaction SpectraGQL.Http SpectraGQL.Protocol SubscriptionHub

/-! ## Senders -/

/-- Who has sent the messages of a channel, and what its actor has just taken out of it. -/
structure Outbox where
  senders : List Task := []
  taken : Option (Task × ServerMessage) := none

namespace Outbox

def send (outbox : Outbox) (sender : Task) : TrySend → Outbox
  | .ok => { outbox with senders := outbox.senders ++ [sender] }
  | .closed => outbox
  | .full => outbox

/-- A channel is first in, first out. -/
def wake (outbox : Outbox) : LoopEvent → Outbox
  | .outgoing message =>
    match outbox.senders with
    | sender :: rest => ⟨rest, some (sender, message)⟩
    | [] => ⟨[], none⟩
  | .pingTick => { outbox with taken := none }
  | .incoming _ => { outbox with taken := none }
  | .readError => { outbox with taken := none }
  | .streamEnded => { outbox with taken := none }

/-- The first call after a message was taken deals with it. -/
def follow (connId : ConnectionId) (outbox : Outbox) : HubLabel → Outbox
  | .perform sender ⟨.trySend other _, answer⟩ =>
    if other = connId then outbox.send sender answer else outbox
  | .perform (.actor other) ⟨.select _, event⟩ => if other = connId then outbox.wake event else outbox
  | .perform (.actor other) _ => if other = connId then { outbox with taken := none } else outbox
  | _ => outbox

end Outbox

/-- The outbox of a connection in the course of a run. -/
def outboxOf (connId : ConnectionId) (history : List HubLabel) : Outbox :=
  history.foldl (Outbox.follow connId) {}

theorem outboxOf_append (connId : ConnectionId) (history : List HubLabel) (label : HubLabel) :
    outboxOf connId (history ++ [label]) = (outboxOf connId history).follow connId label := by
  simp [outboxOf]

/-- The actor has taken `message`, which `sender` has put into the channel, and is about to send a
    frame. -/
def Writing (connId : ConnectionId) (sender : Task) (message : ServerMessage) (config : HubConfig) :
    Prop :=
  (outboxOf connId config.moment.history).taken = some (sender, message) ∧
    ∃ frame next, config.threads (.actor connId) = .running (.call (.send connId frame) next)

/-! ## What has happened since a broadcast -/

/-- A broadcast copies the subscribers. -/
def copies (index : Nat) : HubLabel → Bool
  | .perform (.broadcast other) ⟨.subscribers _, _⟩ => other = index
  | _ => false

/-- The steps after a broadcast has copied the subscribers. -/
def sinceCopy (index : Nat) (history : List HubLabel) : List HubLabel :=
  (history.dropWhile fun label => !copies index label).tail

section Kept

variable (connId : ConnectionId) (id : SubId) (topic : String)

/-- The subscription is taken out of its topic, because it was completed or because the
    connection has ended. -/
def removes : HubLabel → Bool
  | .perform _ ⟨.removeFromTopic other subId at', _⟩ => other = connId ∧ subId = id ∧ at' = topic
  | .perform _ ⟨.removeAll other subList, _⟩ => other = connId ∧ (id, topic) ∈ subList
  | _ => false

/-- The id is subscribed on the topic. -/
def adds : HubLabel → Bool
  | .perform _ ⟨.addToTopic registration, _⟩ =>
    registration.isFor connId id ∧ registration.topic = topic
  | _ => false

/-- Whenever the subscription was taken out of the topic, the id was subscribed there again. -/
def Kept (since : List HubLabel) : Prop :=
  ∀ earlier label later, since = earlier ++ label :: later → removes connId id topic label = true →
    ∃ again ∈ later, adds connId id topic again = true

variable {connId id topic} {since : List HubLabel} {label : HubLabel}

theorem kept_nil : Kept connId id topic [] := by
  intro earlier label later split
  simp at split

theorem not_removes_of_adds (added : adds connId id topic label = true) :
    removes connId id topic label = false := by
  cases label with
  | perform task event =>
    obtain ⟨call, answer⟩ := event
    cases call with
    | addToTopic registration => rfl
    | _ => simp [adds] at added
  | start _ | finish _ _ | environment _ => rfl

/-- The last step decides, unless it does neither. -/
theorem kept_append : Kept connId id topic (since ++ [label]) ↔
    adds connId id topic label = true ∨
      Kept connId id topic since ∧ removes connId id topic label = false := by
  constructor
  · intro kept
    by_cases added : adds connId id topic label = true
    · exact .inl added
    · right
      constructor
      · intro earlier removal later split removed
        obtain ⟨again, member, isAdded⟩ := kept earlier removal (later ++ [label]) (by simp [split]) removed
        cases List.mem_append.mp member with
        | inl within => exact ⟨again, within, isAdded⟩
        | inr last =>
          rw [List.mem_singleton.mp last] at isAdded
          exact absurd isAdded added
      · cases removed : removes connId id topic label with
        | false => rfl
        | true =>
          obtain ⟨_, member, _⟩ := kept since label [] rfl removed
          cases member
  · intro last earlier removal later split removed
    cases later.eq_nil_or_concat with
    | inl none =>
      -- the last step is the removal itself
      subst none
      obtain ⟨rfl, same⟩ := List.append_inj' split rfl
      obtain rfl : label = removal := by simpa using same
      cases last with
      | inl added => rw [not_removes_of_adds added] at removed; cases removed
      | inr before => rw [before.2] at removed; cases removed
    | inr more =>
      obtain ⟨front, final, rfl⟩ := more
      rw [List.concat_eq_append, ← List.cons_append, ← List.append_assoc] at split
      obtain ⟨rfl, same⟩ := List.append_inj' split rfl
      obtain rfl : label = final := by simpa using same
      cases last with
      | inl added => exact ⟨label, by simp, added⟩
      | inr before =>
        obtain ⟨again, member, isAdded⟩ := before.1 earlier removal front rfl removed
        exact ⟨again, by simp [member], isAdded⟩

end Kept

theorem sinceCopy_append {index : Nat} {history : List HubLabel} (copied : history.any (copies index) = true)
    (label : HubLabel) : sinceCopy index (history ++ [label]) = sinceCopy index history ++ [label] := by
  have found : (history.dropWhile fun label => !copies index label).isEmpty = false := by
    rw [List.any_eq_true] at copied
    obtain ⟨copy, member, isCopy⟩ := copied
    rw [List.isEmpty_eq_false_iff, ne_eq, List.dropWhile_eq_nil_iff]
    intro none
    simpa [isCopy] using none copy member
  rw [sinceCopy, List.dropWhile_append, found, sinceCopy]
  cases split : history.dropWhile fun label => !copies index label with
  | nil => simp [split] at found
  | cons copy rest => rfl

theorem sinceCopy_copy {index : Nat} {history : List HubLabel} {label : HubLabel}
    (fresh : history.any (copies index) = false) (copied : copies index label = true) :
    sinceCopy index (history ++ [label]) = [] := by
  have none : history.dropWhile (fun label => !copies index label) = [] := by
    rw [List.dropWhile_eq_nil_iff]
    intro earlier member
    simpa using List.any_eq_false.mp fresh earlier member
  rw [sinceCopy, List.dropWhile_append, none]
  simp [copied]

/-! ## What is registered -/

/-- The id is registered on a topic. -/
def View.Registered (view : View) (id : SubId) (topic : String) : Prop :=
  ∃ sub ∈ view.registrations topic, sub.subId = id

namespace View

variable {view : View} {id : SubId} {topic : String}

theorem registered_addToTopic (registration : SubscriptionRegistration) :
    (view.addToTopic registration).Registered id topic ↔
      (registration.subId = id ∧ registration.topic = topic) ∨ view.Registered id topic := by
  by_cases same : topic = registration.topic
  · subst same
    simp only [Registered, addToTopic, Function.update_self, List.mem_append, List.mem_filter,
      List.mem_singleton]
    constructor
    · rintro ⟨sub, old | rfl, isId⟩
      · exact .inr ⟨sub, old.1, isId⟩
      · exact .inl ⟨isId, trivial⟩
    · rintro (⟨isId, -⟩ | ⟨sub, member, isId⟩)
      · exact ⟨registration, .inr rfl, isId⟩
      · -- an earlier subscription with the id is replaced
        by_cases replaced : sub.subId = registration.subId
        · exact ⟨registration, .inr rfl, replaced ▸ isId⟩
        · exact ⟨sub, .inl ⟨member, by simpa using replaced⟩, isId⟩
  · simp [Registered, addToTopic, same, Ne.symm same]

theorem registered_removeFromTopic (subId : SubId) (at' : String) :
    (view.removeFromTopic subId at').Registered id topic ↔
      view.Registered id topic ∧ ¬ (subId = id ∧ at' = topic) := by
  by_cases same : topic = at'
  · subst same
    simp only [Registered, removeFromTopic, Function.update_self, List.mem_filter]
    constructor
    · rintro ⟨sub, ⟨member, kept⟩, rfl⟩
      exact ⟨⟨sub, member, rfl⟩, fun removed => by simp [removed.1] at kept⟩
    · rintro ⟨⟨sub, member, rfl⟩, other⟩
      have different : sub.subId ≠ subId := fun equal => other ⟨equal.symm, trivial⟩
      exact ⟨sub, ⟨member, by simpa using different⟩, rfl⟩
  · simp [Registered, removeFromTopic, same, Ne.symm same]

theorem registered_removeAll (subList : List (SubId × String)) :
    (view.removeAll subList).Registered id topic ↔
      view.Registered id topic ∧ (id, topic) ∉ subList := by
  simp only [Registered, registrations_removeAll, List.mem_filter, decide_eq_true_eq]
  constructor
  · rintro ⟨sub, ⟨member, kept⟩, rfl⟩
    exact ⟨⟨sub, member, rfl⟩, kept⟩
  · rintro ⟨⟨sub, member, rfl⟩, kept⟩
    exact ⟨sub, ⟨member, kept⟩, rfl⟩

theorem registrations_untrackSubscription (subId : SubId) :
    (view.untrackSubscription subId).2.registrations = view.registrations := by
  unfold untrackSubscription
  split <;> rfl

theorem Matches.registered_iff {active : List SubscriptionRegistration} (fits : view.Matches active) :
    view.Registered id topic ↔ ∃ sub ∈ active, sub.subId = id ∧ sub.topic = topic := by
  simp only [Registered, fits.registrations, List.mem_filter, decide_eq_true_eq]
  constructor
  · rintro ⟨sub, ⟨member, isTopic⟩, isId⟩
    exact ⟨sub, member, isId, isTopic⟩
  · rintro ⟨sub, member, isId, isTopic⟩
    exact ⟨sub, ⟨member, isTopic⟩, isId⟩

end View

section Step

variable {connId : ConnectionId} {id : SubId} {topic : String} {task : Task} {call : HubCall}
  {answer : call.Answer} {before after : SubscriptionHub}

/-- Whatever a call does besides, it changes the registration of an id only so. -/
theorem registered_perform (effect : hubMeaning call before answer after) :
    (after.view connId).Registered id topic ↔
      adds connId id topic (.perform task ⟨call, answer⟩) = true ∨
        (before.view connId).Registered id topic ∧
          removes connId id topic (.perform task ⟨call, answer⟩) = false := by
  -- a call of another connection touches none of this one
  by_cases own : call.owner = some connId
  · have onView := viewMeaning_of_owner effect own
    cases call with
    | addToTopic registration =>
      cases own
      rw [show after.view registration.connId = _ from onView, View.registered_addToTopic]
      simp [adds, removes, SubscriptionRegistration.isFor]
    | removeFromTopic other subId at' =>
      cases own
      rw [show after.view connId = _ from onView, View.registered_removeFromTopic]
      simp [adds, removes]
    | removeAll other subList =>
      cases own
      rw [show after.view connId = _ from onView, View.registered_removeAll]
      simp [adds, removes]
    | untrackSubscription other subId =>
      have same : (after.view connId).registrations = (before.view connId).registrations := by
        rw [(Prod.mk.inj onView).2]
        exact View.registrations_untrackSubscription subId
      simp [adds, removes, View.Registered, same]
    | hasSubscription _ _ | forgetConnection _ =>
      simp [adds, removes, View.Registered, onView.2]
    | select _ | send _ _ | trackSubscription _ _ _ | closeChannel _ | subscribers _ | trySend _ _ =>
      rw [show after.view connId = _ from onView]
      simp [adds, removes, View.Registered, View.trackSubscription]
  · rw [view_of_owner_ne effect own]
    cases call with
    | addToTopic registration =>
      have different : registration.connId ≠ connId := fun same => own (congrArg some same)
      simp [adds, removes, SubscriptionRegistration.isFor, different]
    | removeFromTopic other _ _ | removeAll other _ =>
      have different : other ≠ connId := fun same => own (congrArg some same)
      simp [adds, removes, different]
    | _ => simp [adds, removes]

end Step

/-! ## Channels -/

section Channels

variable {connId : ConnectionId} {call : HubCall} {answer : call.Answer}
  {before after : SubscriptionHub}

theorem channels_removeAll (other : ConnectionId) (subList : List (SubId × String))
    (hub : SubscriptionHub) : (hub.removeAll other subList).channels = hub.channels := by
  induction subList generalizing hub with
  | nil => rfl
  | cons sub rest inductionHypothesis =>
    exact (inductionHypothesis (hub.removeFromTopic other sub.1 sub.2)).trans channels_removeFromTopic

theorem channels_untrackSubscription (other : ConnectionId) (id : SubId) (hub : SubscriptionHub) :
    (hub.untrackSubscription other id).2.channels = hub.channels := by
  simp only [SubscriptionHub.untrackSubscription]
  split
  · rfl
  · split <;> rfl

/-- Only the actor takes messages out of a channel, and only `trySend` puts them in. -/
theorem queue_of_perform (effect : hubMeaning call before answer after)
    (notSelect : ∀ other, call ≠ .select other) (notSend : ∀ other message, call ≠ .trySend other message) :
    (after.channels connId).queue = (before.channels connId).queue := by
  cases call with
  | select other => exact absurd rfl (notSelect other)
  | trySend other message => exact absurd rfl (notSend other message)
  | closeChannel other =>
    rw [show after = _ from effect]
    by_cases own : connId = other
    · subst own
      simp [setChannel]
    · simp [setChannel, own]
  | untrackSubscription other id =>
    rw [(Prod.mk.inj effect).2]
    exact congrArg (fun channels => (channels connId).queue) (channels_untrackSubscription other id before)
  | removeFromTopic other id topic => rw [show after = _ from effect, channels_removeFromTopic]
  | removeAll other subList =>
    rw [show after = _ from effect]
    rw [channels_removeAll]
  | hasSubscription _ _ | subscribers _ => rw [effect.2]
  | forgetConnection _ =>
    rw [(Prod.mk.inj effect).2]
  | send _ _ => rw [show after = before from effect]
  | addToTopic registration =>
    rw [show after = _ from effect, SubscriptionHub.addToTopic]
  | trackSubscription other id topic =>
    rw [show after = _ from effect, SubscriptionHub.trackSubscription]

theorem queue_of_outgoing {message : ServerMessage}
    (selected : selects connId before (.outgoing message) after) :
    (before.channels connId).queue = message :: (after.channels connId).queue := by
  obtain ⟨rest, isQueue, rfl⟩ := selected
  simpa [setChannel] using isQueue

theorem hub_of_select {other : ConnectionId} {event : LoopEvent}
    (selected : selects other before event after) (quiet : ∀ message, event ≠ .outgoing message) :
    after = before := by
  cases event with
  | outgoing message => exact absurd rfl (quiet message)
  | pingTick | incoming _ | readError | streamEnded => exact selected

theorem queue_of_select_ne {other : ConnectionId} {event : LoopEvent}
    (selected : selects other before event after) (different : connId ≠ other) :
    (after.channels connId).queue = (before.channels connId).queue := by
  cases event with
  | outgoing message =>
    obtain ⟨rest, -, rfl⟩ := selected
    simp [setChannel, different]
  | pingTick | incoming _ | readError | streamEnded =>
    rw [hub_of_select selected fun _ same => by cases same]

theorem queue_of_trySend {other : ConnectionId} {message : ServerMessage} {answer : TrySend}
    (effect : (answer, after) = before.trySend other message) :
    (after.channels connId).queue = (before.channels connId).queue ++
      if other = connId ∧ answer = .ok then [message] else [] := by
  simp only [trySend] at effect
  split at effect
  · obtain ⟨rfl, rfl⟩ := Prod.mk.inj effect
    simp
  · split at effect
    · obtain ⟨rfl, rfl⟩ := Prod.mk.inj effect
      simp
    · obtain ⟨rfl, rfl⟩ := Prod.mk.inj effect
      by_cases own : other = connId
      · subst own
        simp [setChannel]
      · simp [setChannel, own, Ne.symm own]

/-- A connection that calls for itself leaves the channels of the others alone. -/
theorem queue_of_owner_ne {other : ConnectionId} (effect : hubMeaning call before answer after)
    (owned : call.owner = some other) (different : connId ≠ other) :
    (after.channels connId).queue = (before.channels connId).queue := by
  by_cases isSelect : ∃ waiting, call = .select waiting
  · obtain ⟨waiting, rfl⟩ := isSelect
    cases owned
    exact queue_of_select_ne effect different
  · apply queue_of_perform effect
    · exact fun waiting same => isSelect ⟨waiting, same⟩
    · rintro receiver message rfl
      cases owned

end Channels

/-! ## Every run -/

namespace Deployment

variable {deployment : Deployment} {connId : ConnectionId} {config : HubConfig}
  {history : List HubLabel} {label : HubLabel}

theorem program_actor_obeys (deployment : Deployment) : (deployment.program (.actor connId)).Obeys (Stage.automaton connId)
    (fun _ after => after = .gone) (.idle none) := by
  have runs : ((deployment.connection connId).run deployment.crates (deployment.rounds connId)).Obeys
      (Stage.automaton connId) (fun _ after => after = .gone) (.idle none) :=
    ConnectionActor.run_obeys deployment.crates (deployment.connection connId) _
  exact runs.bind fun _ _ gone => gone

theorem program_broadcast_obeys (deployment : Deployment) (index : Nat) : (deployment.program (.broadcast index)).Obeys
    (Tour.automaton (deployment.topic index) (deployment.payload index)) (fun _ _ => True) {} := by
  have runs : (broadcast (deployment.topic index) (deployment.payload index)).Obeys
      (Tour.automaton (deployment.topic index) (deployment.payload index)) (fun _ _ => True) {} :=
    Tour.broadcast_obeys
  exact runs.bind fun _ _ _ => trivial

/-- What a broadcast has copied and found. -/
def tour (deployment : Deployment) (index : Nat) (history : List HubLabel) : Tour :=
  (Tour.automaton (deployment.topic index) (deployment.payload index)).phaseOf {} (.broadcast index) history

theorem owner_of_running (reaches : deployment.system.Reaches deployment.hub config) {call : HubCall}
    {next : call.Answer → HubProg (Option Nat)}
    (running : config.threads (.actor connId) = .running (.call call next)) :
    call.owner = some connId := by
  have obeys := System.Reaches.obeys deployment.program_actor_obeys (fun _ => trivial) reaches running
  exact Stage.Allows.owner obeys.1

theorem tour_allows (reaches : deployment.system.Reaches deployment.hub config) {index : Nat}
    {call : HubCall} {next : call.Answer → HubProg (Option Nat)}
    (running : config.threads (.broadcast index) = .running (.call call next)) :
    (deployment.tour index config.moment.history).Allows (deployment.topic index)
      (deployment.payload index) call :=
  (System.Reaches.obeys (deployment.program_broadcast_obeys index) (fun _ => trivial) reaches running).1

theorem tour_append (index : Nat) : deployment.tour index (history ++ [label]) =
    (Tour.automaton (deployment.topic index) (deployment.payload index)).follow (.broadcast index)
      (deployment.tour index history) label := by
  rw [tour, Automaton.phaseOf_append]
  rfl

/-- A copy is kept. -/
theorem copied_append {index : Nat} {subs : List SubscriptionRegistration}
    (copied : (deployment.tour index history).copied = some subs) :
    (deployment.tour index (history ++ [label])).copied = some subs := by
  rw [tour_append]
  cases label with
  | start _ | finish _ _ | environment _ => exact copied
  | perform task event =>
    simp only [Automaton.follow]
    split
    · obtain ⟨call, answer⟩ := event
      cases call with
      | subscribers at' => simp [Tour.automaton, Tour.next, copied]
      | trySend other message =>
        simp only [Tour.automaton, Tour.next]
        split <;> exact copied
      | _ => exact copied
    · exact copied

/-- The message is for a subscription that the sender has copied. -/
def SentBy (deployment : Deployment) (connId : ConnectionId) (history : List HubLabel) (sender : Task)
    (message : ServerMessage) : Prop :=
  ∃ index subs, sender = .broadcast index ∧ (deployment.tour index history).copied = some subs ∧
    ∃ sub ∈ subs, sub.connId = connId ∧
      message = .next sub.subId (formatData sub.rootField (deployment.payload index))

theorem SentBy.append {sender : Task} {message : ServerMessage}
    (sent : deployment.SentBy connId history sender message) :
    deployment.SentBy connId (history ++ [label]) sender message := by
  obtain ⟨index, subs, isSender, copied, member⟩ := sent
  exact ⟨index, subs, isSender, copied_append copied, member⟩

/-- The outbox tells the senders of the messages in the channel, and the subscriptions are in order
    while a message is written. -/
structure OutboxOk (deployment : Deployment) (connId : ConnectionId) (moment : HubMoment) : Prop where
  queued : List.Forall₂ (deployment.SentBy connId moment.history)
    (outboxOf connId moment.history).senders (moment.shared.channels connId).queue
  taken : ∀ sender message, (outboxOf connId moment.history).taken = some (sender, message) →
    deployment.SentBy connId moment.history sender message ∧
      (moment.shared.view connId).Matches (deployment.ledger connId moment.history).active

section Steps

variable {moment : HubMoment} {shared : SubscriptionHub}

/-- A step that concerns neither the channel nor the view. -/
theorem OutboxOk.quiet (ok : deployment.OutboxOk connId moment)
    (quiet : ∀ event, label ≠ .perform (.actor connId) event)
    (sameOutbox : (outboxOf connId moment.history).follow connId label = outboxOf connId moment.history)
    (sameQueue : (shared.channels connId).queue = (moment.shared.channels connId).queue)
    (sameView : shared.view connId = moment.shared.view connId) :
    deployment.OutboxOk connId (moment.push shared label) where
  queued := by
    rw [Moment.push_history, outboxOf_append, sameOutbox, Moment.push_shared, sameQueue]
    exact ok.queued.imp fun _ _ sent => sent.append
  taken := by
    rw [Moment.push_history, outboxOf_append, sameOutbox, Moment.push_shared, sameView,
      ledger_silent quiet]
    exact fun sender message taken => ⟨(ok.taken sender message taken).1.append,
      (ok.taken sender message taken).2⟩

/-- A broadcast sends to those it has copied, and does nothing else to a channel. -/
theorem OutboxOk.broadcast (ok : deployment.OutboxOk connId moment) {index : Nat} {call : HubCall}
    {answer : call.Answer}
    (allows : (deployment.tour index moment.history).Allows (deployment.topic index)
      (deployment.payload index) call)
    (effect : hubMeaning call moment.shared answer shared)
    (sameView : shared.view connId = moment.shared.view connId) :
    deployment.OutboxOk connId (moment.push shared (.perform (.broadcast index) ⟨call, answer⟩)) := by
  have notOwn : ∀ event, (.perform (.broadcast index) ⟨call, answer⟩ : HubLabel) ≠
      .perform (.actor connId) event := fun _ same => by cases same
  cases call with
  | subscribers at' =>
    exact ok.quiet notOwn rfl (by rw [show shared = _ from effect.2]) sameView
  | untrackSubscription _ _ | removeFromTopic _ _ _ =>
    exact ok.quiet notOwn rfl
      (queue_of_perform effect (fun _ same => by cases same) fun _ _ same => by cases same) sameView
  | trySend other message =>
    have isQueue : (shared.channels connId).queue = (moment.shared.channels connId).queue ++
        if other = connId ∧ answer = .ok then [message] else [] := queue_of_trySend effect
    -- a message that is taken stands at the end of the queue, one that is not leaves it as it is
    by_cases sent : other = connId ∧ answer = .ok
    · obtain ⟨rfl, rfl⟩ := sent
      obtain ⟨subs, copied, sub, member, isConn, isMessage⟩ := allows
      have new : deployment.SentBy other moment.history (.broadcast index) message :=
        ⟨index, subs, rfl, copied, sub, member, isConn, isMessage⟩
      constructor
      · have entered : (outboxOf other (moment.history ++ [.perform (.broadcast index)
            ⟨.trySend other message, .ok⟩])).senders =
              (outboxOf other moment.history).senders ++ [.broadcast index] := by
          simp [outboxOf_append, Outbox.follow, Outbox.send]
        rw [Moment.push_history, Moment.push_shared, entered, isQueue, if_pos ⟨rfl, rfl⟩]
        exact List.rel_append (ok.queued.imp fun _ _ sent => sent.append) (.cons new.append .nil)
      · have same : (outboxOf other (moment.history ++ [.perform (.broadcast index)
            ⟨.trySend other message, .ok⟩])).taken = (outboxOf other moment.history).taken := by
          simp [outboxOf_append, Outbox.follow, Outbox.send]
        rw [Moment.push_history, same, Moment.push_shared, sameView, ledger_silent notOwn]
        exact fun sender message taken => ⟨(ok.taken sender message taken).1.append,
          (ok.taken sender message taken).2⟩
    · rw [if_neg sent, List.append_nil] at isQueue
      refine ok.quiet notOwn ?_ isQueue sameView
      by_cases own : other = connId
      · have lost : answer ≠ .ok := fun isOk => sent ⟨own, isOk⟩
        cases answer with
        | ok => exact absurd rfl lost
        | closed | full => simp [Outbox.follow, Outbox.send]
      · simp [Outbox.follow, own]
  | _ => exact allows.elim

/-- The actor takes the first message, or none. -/
theorem OutboxOk.own (ok : deployment.OutboxOk connId moment) {call : HubCall} {answer : call.Answer}
    (owned : call.owner = some connId) (effect : hubMeaning call moment.shared answer shared)
    (waits : ∀ other, call = .select other →
      (moment.shared.view connId).Matches (deployment.ledger connId moment.history).active) :
    deployment.OutboxOk connId (moment.push shared (.perform (.actor connId) ⟨call, answer⟩)) := by
  have older : List.Forall₂
      (deployment.SentBy connId (moment.history ++ [.perform (.actor connId) ⟨call, answer⟩]))
      (outboxOf connId moment.history).senders (moment.shared.channels connId).queue :=
    ok.queued.imp fun _ _ sent => sent.append
  by_cases isSelect : ∃ other, call = .select other
  · obtain ⟨other, rfl⟩ := isSelect
    cases owned
    have fits := waits connId rfl
    by_cases outgoing : ∃ message, answer = .outgoing message
    · obtain ⟨message, rfl⟩ := outgoing
      rw [queue_of_outgoing effect] at older
      cases isSenders : (outboxOf connId moment.history).senders with
      | nil =>
        rw [isSenders] at older
        cases older
      | cons sender rest =>
        rw [isSenders] at older
        have woken : outboxOf connId (moment.history ++ [.perform (.actor connId)
            ⟨.select connId, .outgoing message⟩]) = ⟨rest, some (sender, message)⟩ := by
          simp [outboxOf_append, Outbox.follow, Outbox.wake, isSenders]
        cases older with
        | cons sent others =>
          constructor
          · rw [Moment.push_history, woken]
            exact others
          · have sameView : shared.view connId = moment.shared.view connId :=
              view_selects (show selects connId moment.shared (.outgoing message) shared from effect)
            rw [Moment.push_history, woken, Moment.push_shared, sameView, ledger_own]
            rintro _ _ ⟨⟩
            exact ⟨sent, fits⟩
    · have same := hub_of_select effect fun message isOutgoing => outgoing ⟨message, isOutgoing⟩
      have woken : outboxOf connId (moment.history ++ [.perform (.actor connId)
          ⟨.select connId, answer⟩]) = ⟨(outboxOf connId moment.history).senders, none⟩ := by
        cases answer with
        | outgoing message => exact absurd ⟨message, rfl⟩ outgoing
        | pingTick | incoming _ | readError | streamEnded =>
          simp [outboxOf_append, Outbox.follow, Outbox.wake]
      constructor
      · rw [Moment.push_history, woken, Moment.push_shared, same]
        exact older
      · rw [Moment.push_history, woken]
        rintro _ _ ⟨⟩
  · -- the actor has dealt with the message that it has taken
    have notSelect : ∀ other, call ≠ .select other := fun other same => isSelect ⟨other, same⟩
    have notSend : ∀ other message, call ≠ .trySend other message := by
      rintro other message rfl
      cases owned
    have dealt : outboxOf connId (moment.history ++ [.perform (.actor connId) ⟨call, answer⟩]) =
        ⟨(outboxOf connId moment.history).senders, none⟩ := by
      cases call with
      | select other => exact absurd rfl (notSelect other)
      | trySend other message => exact absurd rfl (notSend other message)
      | _ => simp [outboxOf_append, Outbox.follow]
    constructor
    · rw [Moment.push_history, dealt, Moment.push_shared, queue_of_perform effect notSelect notSend]
      exact older
    · rw [Moment.push_history, dealt]
      rintro _ _ ⟨⟩

end Steps

theorem outboxOk (reaches : deployment.system.Reaches deployment.hub config) (connId : ConnectionId) :
    deployment.OutboxOk connId config.moment := by
  induction reaches with
  | initial =>
    refine ⟨.nil, ?_⟩
    rintro _ _ ⟨⟩
  | @step config config' label earlier step inductionHypothesis =>
    cases step with
    | start _ | finish _ => exact inductionHypothesis.quiet (fun _ same => by cases same) rfl rfl rfl
    | @environment event _ _ => cases event
    | @perform task call next answer shared running effect =>
      -- a broadcast changes no view, an actor no view but its own
      have guarantee := ((discipline deployment).guarantees inv_hub
        (fun task _ inv fresh => meets_program task inv fresh) earlier (.perform running effect)
        trivial).2
      cases task with
      | broadcast index =>
        exact inductionHypothesis.broadcast (tour_allows earlier running) effect (guarantee connId)
      | actor mine =>
        have owned := owner_of_running earlier running
        by_cases own : connId = mine
        · subst own
          apply inductionHypothesis.own owned effect
          rintro other rfl
          exact (allowed_of_running earlier running).1
        · have notOwn : ∀ event, (.perform (.actor mine) ⟨call, answer⟩ : HubLabel) ≠
              .perform (.actor connId) event := fun _ same => by
            cases same
            exact own rfl
          apply inductionHypothesis.quiet notOwn _ (queue_of_owner_ne effect owned own)
            (guarantee.2.2 connId own)
          cases call with
          | trySend other message => cases owned
          | _ => simp [Outbox.follow, Ne.symm own]

/-! ### Registrations -/

/-- A step changes the registration of an id as its label says. -/
theorem registered_step {config' : HubConfig} {id : SubId} {topic : String}
    (step : System.Step deployment.system config label config') :
    (config'.moment.shared.view connId).Registered id topic ↔
      adds connId id topic label = true ∨
        (config.moment.shared.view connId).Registered id topic ∧ removes connId id topic label = false := by
  cases step with
  | start _ | finish _ => simp [adds, removes]
  | @environment event _ _ => cases event
  | perform running effect => exact registered_perform effect

theorem copied_other {index : Nat} (other : copies index label = false) :
    (deployment.tour index (history ++ [label])).copied = (deployment.tour index history).copied := by
  rw [tour_append]
  cases label with
  | start _ | finish _ _ | environment _ => rfl
  | perform task event =>
    simp only [Automaton.follow]
    split
    · rename_i mine
      subst mine
      obtain ⟨call, answer⟩ := event
      cases call with
      | subscribers at' => simp [copies] at other
      | trySend receiver message =>
        simp only [Tour.automaton, Tour.next]
        split <;> rfl
      | _ => rfl
    · rfl

/-- Those who were copied are registered on the topic as long as their subscription is kept. -/
structure CopyOk (deployment : Deployment) (index : Nat) (moment : HubMoment) : Prop where
  before : (deployment.tour index moment.history).copied = none →
    moment.history.any (copies index) = false
  after : ∀ subs, (deployment.tour index moment.history).copied = some subs →
    moment.history.any (copies index) = true ∧ ∀ sub ∈ subs,
      ((moment.shared.view sub.connId).Registered sub.subId (deployment.topic index) ↔
        Kept sub.connId sub.subId (deployment.topic index) (sinceCopy index moment.history))

theorem CopyOk.step {config' : HubConfig} {index : Nat} (ok : deployment.CopyOk index config.moment)
    (step : System.Step deployment.system config label config') (other : copies index label = false) :
    deployment.CopyOk index config'.moment := by
  constructor
  · rw [step.history_eq, copied_other other]
    intro none
    simp [ok.before none, other]
  · rw [step.history_eq, copied_other other]
    intro subs copied
    obtain ⟨earlier, kept⟩ := ok.after subs copied
    refine ⟨by simp [earlier], fun sub member => ?_⟩
    rw [sinceCopy_append earlier, kept_append, registered_step step, kept sub member]

/-- The copy itself. -/
theorem CopyOk.copy {index : Nat} {moment : HubMoment} {subs : Option (List SubscriptionRegistration)}
    (ok : deployment.CopyOk index moment)
    (isTopic : subs = moment.shared.topics (deployment.topic index)) :
    deployment.CopyOk index (moment.push moment.shared
      (.perform (.broadcast index) ⟨.subscribers (deployment.topic index), subs⟩)) := by
  have isCopy : copies index (.perform (.broadcast index)
      ⟨.subscribers (deployment.topic index), subs⟩) = true := by simp [copies]
  have isCopied : (deployment.tour index (moment.history ++ [.perform (.broadcast index)
      ⟨.subscribers (deployment.topic index), subs⟩])).copied =
        (deployment.tour index moment.history).copied.or (some (subs.getD [])) := by
    rw [tour_append]
    simp [Automaton.follow, Tour.automaton, Tour.next]
  constructor
  · rw [Moment.push_history, isCopied]
    intro none
    simp at none
  · rw [Moment.push_history, isCopied, Moment.push_shared]
    intro copied isSome
    -- the first copy counts; a later one finds it made
    cases earlier : (deployment.tour index moment.history).copied with
    | none =>
      rw [earlier] at isSome
      obtain rfl : subs.getD [] = copied := by simpa using isSome
      refine ⟨by simp [isCopy], fun sub member => ?_⟩
      rw [sinceCopy_copy (ok.before earlier) isCopy]
      have registered : (moment.shared.view sub.connId).Registered sub.subId (deployment.topic index) :=
        ⟨sub, by simpa [view, ← isTopic] using member, rfl⟩
      exact ⟨fun _ => kept_nil, fun _ => registered⟩
    | some first =>
      rw [earlier] at isSome
      obtain rfl : first = copied := by simpa using isSome
      obtain ⟨again, kept⟩ := ok.after first earlier
      refine ⟨by simp [again], fun sub member => ?_⟩
      rw [sinceCopy_append again, kept_append, kept sub member]
      simp [adds, removes]

theorem copyOk (reaches : deployment.system.Reaches deployment.hub config) (index : Nat) :
    deployment.CopyOk index config.moment := by
  induction reaches with
  | initial =>
    refine ⟨fun _ => rfl, ?_⟩
    rintro _ ⟨⟩
  | @step config config' label earlier step inductionHypothesis =>
    cases isCopy : copies index label with
    | false => exact inductionHypothesis.step step isCopy
    | true =>
      cases step with
      | start _ | finish _ => cases isCopy
      | @environment event _ _ => cases event
      | @perform task call next answer shared running effect =>
        cases task with
        | actor _ => cases isCopy
        | broadcast other =>
          cases call with
          | subscribers at' =>
            obtain rfl : other = index := by simpa [copies] using isCopy
            obtain rfl := tour_allows earlier running
            obtain ⟨isTopic, rfl⟩ := effect
            exact inductionHypothesis.copy isTopic
          | _ => cases isCopy

end Deployment

/-- A result that an actor writes under an id is an event of the topic that is subscribed under this
    id, as long as the subscription was kept since the event was broadcast. -/
theorem next_for_active_iff (deployment : Deployment) (connId : ConnectionId) (config : HubConfig)
    (sender : Task) (id : SubId) (data : Json)
    (reaches : deployment.system.Reaches deployment.hub config)
    (writing : Writing connId sender (.next id data) config) :
    ∃ index, sender = .broadcast index ∧
      (∃ rootField, data = formatData rootField (deployment.payload index)) ∧
      ((∃ sub ∈ (deployment.ledger connId config.moment.history).active,
          sub.subId = id ∧ sub.topic = deployment.topic index) ↔
        Kept connId id (deployment.topic index) (sinceCopy index config.moment.history)) := by
  obtain ⟨sent, fits⟩ := (deployment.outboxOk reaches connId).taken sender _ writing.1
  obtain ⟨index, subs, rfl, copied, sub, member, rfl, isMessage⟩ := sent
  cases isMessage
  have kept := ((deployment.copyOk reaches index).after subs copied).2 sub member
  exact ⟨index, rfl, ⟨sub.rootField, rfl⟩, fits.registered_iff.symm.trans kept⟩

/-! ## A result that is late -/

/-- An actor that waits gets a text, or the first message of its channel. -/
def feedScheduler (deployment : Deployment) : Scheduler deployment.system (Option String) where
  answer := fun choice task call hub =>
    match choice, call with
    | none, .select connId =>
      (hub.channels connId).queue.head?.map fun message =>
        (.outgoing message,
          hub.setChannel connId { hub.channels connId with queue := (hub.channels connId).queue.tail })
    | some text, call => (textScheduler deployment).answer text task call hub
    | none, call => (textScheduler deployment).answer "" task call hub
  event := fun event => event.elim
  answer_sound := by
    intro choice task call before result answered
    cases choice with
    | some text => exact (textScheduler deployment).answer_sound text task call before result answered
    | none =>
      cases call with
      | select connId =>
        simp only [Option.map_eq_some_iff] at answered
        obtain ⟨message, isFirst, isResult⟩ := answered
        cases isResult
        exact ⟨_, List.eq_cons_of_mem_head? isFirst, rfl⟩
      | _ => exact (textScheduler deployment).answer_sound "" task _ before result answered
  event_sound := fun event => event.elim

/-- Clients subscribe under the id `1` to the field that they name. -/
def feedCrates : SubscriptionCrates where
  fromStr text :=
    if text = "init" then some (.connectionInit none)
    else if text = "complete" then some (.complete "1")
    else some (.subscribe "1" text none)
  toString message :=
    match message with
    | .next id _ => some id
    | _ => none
  parse query := ⟨[], [.operation ⟨some true, some [.field (some query) none]⟩]⟩

/-- A broadcast on the topic of the field `orders`. -/
def feed : Deployment where
  crates := feedCrates
  topicPrefix _ := "spectra"
  capacity _ := 8
  rounds _ := 9
  topic _ := "spectra.events.orders"
  payload _ := .object []

/-- The client subscribes to `orders`, and a broadcast sends it an event. -/
def subscribesFirst : List (Move Task Empty (Option String)) :=
  ([none, some "init", some "orders", none, none, none].map (.thread (.actor "a"))) ++
    ([none, none, none].map (.thread (.broadcast 0)))

/-- Before the event is written the client completes, and subscribes to `stock`. -/
def changesItsMind : List (Move Task Empty (Option String)) :=
  [some "complete", none, none, some "stock", none, none, none].map (.thread (.actor "a"))

theorem kept_of_no_removal {connId : ConnectionId} {id : SubId} {topic : String} {since : List HubLabel}
    (none : since.all (fun label => !removes connId id topic label) = true) :
    Kept connId id topic since := by
  intro earlier label later split removed
  have kept := List.all_eq_true.mp none label (by simp [split])
  simp [removed] at kept

theorem next_for_active_first : ∃ config data,
    feed.system.Reaches feed.hub config ∧ Writing "a" (.broadcast 0) (.next "1" data) config ∧
      ∃ sub ∈ (feed.ledger "a" config.moment.history).active,
        sub.subId = "1" ∧ sub.topic = "spectra.events.orders" := by
  have run : ∃ config data, feed.system.Reaches feed.hub config ∧
      Writing "a" (.broadcast 0) (.next "1" data) config ∧
      (sinceCopy 0 config.moment.history).all
        (fun label => !removes "a" "1" "spectra.events.orders" label) = true :=
    ⟨_, _, (feedScheduler feed).run_reaches (subscribesFirst ++ [.thread (.actor "a") none]) .initial rfl,
      ⟨rfl, _, _, rfl⟩, by decide⟩
  obtain ⟨config, data, reaches, writing, kept⟩ := run
  obtain ⟨index, isSender, -, active⟩ := next_for_active_iff feed "a" config _ "1" data reaches writing
  cases isSender
  exact ⟨config, data, reaches, writing, active.mpr (kept_of_no_removal kept)⟩

/-- An event of `orders` is written under an id that is subscribed to `stock`. -/
theorem late_next_crosses : ∃ config data,
    feed.system.Reaches feed.hub config ∧ Writing "a" (.broadcast 0) (.next "1" data) config ∧
      feed.topic 0 = "spectra.events.orders" ∧
      (feed.ledger "a" config.moment.history).active =
        [⟨"a", "1", "spectra.events.stock", "stock"⟩] :=
  ⟨_, _, (feedScheduler feed).run_reaches
    (subscribesFirst ++ changesItsMind ++ [.thread (.actor "a") none]) .initial rfl,
    ⟨rfl, _, _, rfl⟩, rfl, rfl⟩

end SpectraGQL.Subscriptions
