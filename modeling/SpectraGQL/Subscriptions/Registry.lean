import SpectraGQL.Interaction.Schedule
import SpectraGQL.Subscriptions.Ledger

/-! # What is registered for a connection

Whenever an actor waits for the next message, the hub holds exactly the active subscriptions of
its ledger.

The other connections do not matter, since a call changes the view of its own connection only.
A broadcast might: it deregisters whoever has a closed channel.  An actor closes its channel at
last, when the hub holds nothing of it, so that nothing is left to deregister.
-/

namespace SpectraGQL.Subscriptions

open Interaction SpectraGQL.Http SpectraGQL.Protocol SubscriptionHub

abbrev HubMoment := Moment hubSignature Task Empty SubscriptionHub (Option Nat)

abbrev HubLabel := Label hubSignature Task Empty (Option Nat)

abbrev HubConfig := Config hubSignature Task Empty SubscriptionHub (Option Nat)

namespace Deployment

variable (deployment : Deployment)

/-- What the actor of a connection has seen. -/
def ledger (connId : ConnectionId) (history : List HubLabel) : Ledger :=
  (Ledger.automaton deployment.crates (deployment.connection connId)).phaseOf {} (.actor connId) history

variable {deployment} {connId : ConnectionId} {history : List HubLabel} {label : HubLabel}

theorem ledger_own (event : Event hubSignature) :
    deployment.ledger connId (history ++ [.perform (.actor connId) event]) =
      (deployment.ledger connId history).afterCall deployment.crates (deployment.connection connId)
        event := by
  rw [ledger, Automaton.phaseOf_append, Automaton.follow, if_pos rfl]
  rfl

/-- Only the calls of the actor itself count. -/
theorem ledger_silent (quiet : ∀ event, label ≠ .perform (.actor connId) event) :
    deployment.ledger connId (history ++ [label]) = deployment.ledger connId history := by
  rw [ledger, Automaton.phaseOf_append]
  cases label with
  | perform thread event =>
    have different : thread ≠ .actor connId := fun same => quiet event (by rw [same])
    exact if_neg different
  | start _ | finish _ _ | environment _ => rfl

theorem ledger_fresh (fresh : Fresh (.actor connId) history) : deployment.ledger connId history = {} :=
  Automaton.phaseOf_fresh _ _ fresh

theorem ledger_proper : (deployment.ledger connId history).Proper connId := by
  apply Automaton.phaseOf_induction _ (Ledger.Proper connId)
  · intro ledger event proper
    have own : ledger.Proper (deployment.connection connId).connId := proper
    exact own.afterCall event
  · exact ⟨by simp, by simp⟩

end Deployment

/-! ## Rely and guarantee -/

/-- What an actor has reached when it issues a call. -/
def HubCall.Allowed (ledger : Ledger) (view : View) : HubCall → Prop
  | .select _ => view.Matches ledger.active ∧ ledger.ended = false
  | .closeChannel _ => view.isClosed = false ∧ view.IsEmpty
  | _ => view.isClosed = false ∧ (ledger.ended = true → view.Within ledger.active)

/-- Of a connection that is closed the hub holds nothing. -/
def View.Settled (view : View) : Prop := view.isClosed = true → view.IsEmpty

section Allowed

variable {ledger : Ledger} {view after : View} {call : HubCall} {answer : call.Answer}

theorem HubCall.Allowed.isOpen (allowed : call.Allowed ledger view) : view.isClosed = false := by
  cases call with
  | select _ => exact allowed.1.isOpen
  | _ => exact allowed.1

theorem HubCall.Allowed.within (allowed : call.Allowed ledger view) (ended : ledger.ended = true) :
    view.Within ledger.active := by
  cases call with
  | select _ => exact allowed.1.within
  | closeChannel _ => exact allowed.2.within
  | _ => exact allowed.2 ended

/-- The last call closes the channel of an actor that is not registered any more. -/
theorem HubCall.Allowed.settled (allowed : call.Allowed ledger view)
    (effect : viewMeaning call view answer after) : after.Settled := by
  intro closed
  have isOpen := allowed.isOpen
  cases call with
  | closeChannel _ =>
    obtain rfl := effect
    exact ⟨allowed.2.entries, allowed.2.registrations⟩
  | untrackSubscription _ subId =>
    have same : after.isClosed = view.isClosed := by
      rw [(Prod.mk.inj effect).2]
      exact View.isClosed_untrackSubscription
    rw [same, isOpen] at closed
    cases closed
  | removeAll _ subList =>
    rw [show after = _ from effect, View.isClosed_removeAll, isOpen] at closed
    cases closed
  | hasSubscription _ _ | forgetConnection _ =>
    rw [effect.2] at closed
    exact absurd closed (by simp [isOpen])
  | select _ | send _ _ | addToTopic _ | trackSubscription _ _ _ | removeFromTopic _ _ _
  | subscribers _ | trySend _ _ =>
    rw [show after = _ from effect] at closed
    exact absurd closed (by simp [View.addToTopic, View.trackSubscription, View.removeFromTopic, isOpen])

end Allowed

namespace Deployment

variable (deployment : Deployment)

/-- No step of an actor has an effect on another one, and no broadcast on any. -/
def Guarantee : Task → Event hubSignature → HubMoment → HubMoment → Prop
  | .actor connId, event, before, after =>
    event.call.Allowed (deployment.ledger connId before.history) (before.shared.view connId) ∧
      (after.shared.view connId).Settled ∧
      ∀ other ≠ connId, after.shared.view other = before.shared.view other
  | .broadcast _, _, before, after => ∀ connId, after.shared.view connId = before.shared.view connId

/-- An actor relies on its own view and its ledger, a broadcast on closed channels. -/
def Rely : Task → HubMoment → HubMoment → Prop
  | .actor connId, before, after =>
    after.shared.view connId = before.shared.view connId ∧
      deployment.ledger connId after.history = deployment.ledger connId before.history
  | .broadcast _, before, after =>
    ∀ connId, (before.shared.view connId).isClosed = true → (after.shared.view connId).isClosed = true

def Exited : Task → HubMoment → Prop
  | .actor connId, moment => (moment.shared.view connId).IsEmpty
  | .broadcast _, _ => True

structure Inv (moment : HubMoment) : Prop where
  settled : ∀ connId, (moment.shared.view connId).Settled
  blank : ∀ connId, Fresh (.actor connId) moment.history → moment.shared.view connId = View.blank

variable {deployment} {moment before after : HubMoment} {label : HubLabel}

/-- A step that leaves the hub as it is. -/
theorem Inv.silent (inv : Inv moment) : Inv (moment.push moment.shared label) where
  settled := inv.settled
  blank := fun connId fresh =>
    inv.blank connId fun step member => fresh step (List.mem_append_left _ member)

theorem Rely.silent {task : Task} (quiet : ∀ event, label ≠ .perform task event) :
    deployment.Rely task moment (moment.push moment.shared label) := by
  cases task with
  | actor connId => exact ⟨rfl, ledger_silent quiet⟩
  | broadcast _ => exact fun _ closed => closed

theorem Inv.perform {task : Task} {event : Event hubSignature} (inv : Inv before)
    (history : after.history = before.history ++ [.perform task event])
    (guarantee : deployment.Guarantee task event before after) : Inv after := by
  have earlier : ∀ connId, Fresh (.actor connId) after.history → Fresh (.actor connId) before.history :=
    fun connId fresh step member => fresh step (history ▸ List.mem_append_left _ member)
  cases task with
  | broadcast _ =>
    constructor
    · intro connId
      rw [guarantee connId]
      exact inv.settled connId
    · intro connId fresh
      rw [guarantee connId]
      exact inv.blank connId (earlier connId fresh)
  | actor mine =>
    obtain ⟨-, settled, others⟩ := guarantee
    constructor
    · intro connId
      by_cases own : connId = mine
      · exact own ▸ settled
      · rw [others connId own]
        exact inv.settled connId
    · intro connId fresh
      by_cases own : connId = mine
      · -- the actor has just made a step
        subst own
        exact absurd rfl (fresh (.perform (.actor connId) event) (by simp [history]))
      · rw [others connId own]
        exact inv.blank connId (earlier connId fresh)

theorem Rely.perform {task other : Task} {event : Event hubSignature}
    (history : after.history = before.history ++ [.perform task event])
    (guarantee : deployment.Guarantee task event before after) (different : other ≠ task) :
    deployment.Rely other before after := by
  have sameView : ∀ connId, .actor connId ≠ task →
      after.shared.view connId = before.shared.view connId := by
    intro connId notMine
    cases task with
    | broadcast _ => exact guarantee connId
    | actor mine => exact guarantee.2.2 connId fun same => notMine (congrArg Task.actor same)
  cases other with
  | actor connId =>
    refine ⟨sameView connId different, ?_⟩
    rw [history]
    exact ledger_silent fun event same => by cases same; exact different rfl
  | broadcast _ =>
    intro connId closed
    by_cases own : .actor connId = task
    · -- an actor that issues a call has not closed its channel yet
      subst own
      rw [guarantee.1.isOpen] at closed
      cases closed
    · rw [sameView connId own]
      exact closed

/-- Actors and broadcasts run side by side. -/
def discipline (deployment : Deployment) : Discipline deployment.system where
  assume := fun _ => True
  inv := Inv
  rely := deployment.Rely
  guar := fun task event before after =>
    after.history = before.history ++ [.perform task event] ∧ deployment.Guarantee task event before after
  post := fun task _ moment => Exited task moment
  assume_init := fun _ => trivial
  rely_refl := by
    intro task moment
    cases task with
    | actor _ => exact ⟨rfl, rfl⟩
    | broadcast _ => exact fun _ closed => closed
  -- nothing of a connection changes while others act, and no channel opens again
  rely_trans := by
    intro task first second third early late
    cases task with
    | actor _ => exact ⟨late.1.trans early.1, late.2.trans early.2⟩
    | broadcast _ => exact fun connId closed => late connId (early connId closed)
  inv_perform := fun inv guarantee => inv.perform guarantee.1 guarantee.2
  rely_perform := fun _ guarantee different => Rely.perform guarantee.1 guarantee.2 different
  inv_start := fun inv _ => inv.silent
  rely_start := fun _ => Rely.silent fun _ same => by cases same
  inv_finish := fun inv _ => inv.silent
  rely_finish := fun _ _ => Rely.silent fun _ same => by cases same
  inv_environment := by
    intro event
    cases event
  rely_environment := by
    intro event
    cases event
  post_stable := by
    intro task value before after exited later _
    cases task with
    | broadcast _ => trivial
    | actor connId =>
      have same : after.shared.view connId = before.shared.view connId := later.1
      show (after.shared.view connId).IsEmpty
      rw [same]
      exact exited

/-! ## The program of an actor -/

/-- From a moment on the actor keeps the discipline, and returns with `post` of its own view and
    ledger. -/
abbrev Meets (deployment : Deployment) (connId : ConnectionId) {β : Type}
    (post : β → View → Ledger → Prop) (program : HubProg β) (moment : HubMoment) : Prop :=
  (discipline deployment).Safe (.actor connId)
    (fun value now => post value (now.shared.view connId) (deployment.ledger connId now.history))
    program moment

section Rules

variable {connId : ConnectionId} {β γ : Type} {post : β → View → Ledger → Prop}

theorem meets_ret {value : β}
    (holds : post value (moment.shared.view connId) (deployment.ledger connId moment.history)) :
    deployment.Meets connId post (.ret value) moment := by
  apply Discipline.Safe.ret
  rintro after ⟨sameView, sameLedger⟩ _
  rw [sameView, sameLedger]
  exact holds

theorem meets_bind {final : γ → View → Ledger → Prop} {program : HubProg β} {next : β → HubProg γ}
    (first : deployment.Meets connId post program moment)
    (second : ∀ value now,
      post value (now.shared.view connId) (deployment.ledger connId now.history) →
      deployment.Meets connId final (next value) now) :
    deployment.Meets connId final (program >>= next) moment :=
  Discipline.Safe.bind first fun value now _ holds => second value now holds

/-- A call of the connection acts on its view, and on its ledger when it is a `select`. -/
theorem meets_perform (call : HubCall) {post : call.Answer → View → Ledger → Prop}
    (own : call.owner = some connId)
    (allowed : call.Allowed (deployment.ledger connId moment.history) (moment.shared.view connId))
    (step : ∀ answer after, viewMeaning call (moment.shared.view connId) answer after →
      post answer after ((deployment.ledger connId moment.history).afterCall deployment.crates
        (deployment.connection connId) ⟨call, answer⟩)) :
    deployment.Meets connId post (perform call) moment := by
  apply Discipline.Safe.perform
  · rintro answer before after holds ⟨sameView, sameLedger⟩
    rw [sameView, sameLedger]
    exact holds
  · rintro now ⟨sameView, sameLedger⟩ _ answer shared effect _
    have onView := viewMeaning_of_owner effect own
    rw [sameView] at onView
    refine ⟨⟨rfl, ?_, allowed.settled onView, ?_⟩, ?_⟩
    · rw [sameView, sameLedger]
      exact allowed
    · intro other different
      exact view_of_owner_ne effect fun same => different (Option.some.inj (own.symm.trans same)).symm
    · rw [Moment.push_history, ledger_own, sameLedger]
      exact step answer _ onView

end Rules

section Programs

variable {connId : ConnectionId} {initialized : Bool} {ledger : Ledger}

/-- What holds between messages. -/
structure Ready (initialized : Bool) (view : View) (ledger : Ledger) : Prop where
  fits : view.Matches ledger.active
  running : ledger.ended = false
  isInitialized : ledger.initialized = initialized

/-- What holds after a round of the loop. -/
def Handled : Flow → View → Ledger → Prop
  | .goOn initialized, view, ledger => Ready initialized view ledger
  | .stop, view, ledger => view.Matches ledger.active

theorem meets_sendFrame {post : View → Ledger → Prop} (frame : WsMessage)
    (fits : (moment.shared.view connId).Matches (deployment.ledger connId moment.history).active)
    (holds : post (moment.shared.view connId) (deployment.ledger connId moment.history)) :
    deployment.Meets connId (fun _ => post) ((deployment.connection connId).sendFrame frame) moment := by
  apply meets_perform (.send connId frame) rfl
  · exact ⟨fits.isOpen, fun _ => fits.within⟩
  · rintro answer after rfl
    exact holds

theorem meets_reply {post : View → Ledger → Prop} (message : ServerMessage)
    (fits : (moment.shared.view connId).Matches (deployment.ledger connId moment.history).active)
    (holds : post (moment.shared.view connId) (deployment.ledger connId moment.history)) :
    deployment.Meets connId (fun _ => post)
      ((deployment.connection connId).reply deployment.crates message) moment := by
  unfold ConnectionActor.reply
  cases deployment.crates.toString message with
  | none => exact meets_ret holds
  | some json =>
    apply meets_bind (meets_sendFrame (.text json) fits holds)
    exact fun _ _ still => meets_ret still

theorem meets_closeWith (code : Nat) (reason : String)
    (fits : (moment.shared.view connId).Matches (deployment.ledger connId moment.history).active) :
    deployment.Meets connId Handled ((deployment.connection connId).closeWith code reason) moment := by
  have sent : deployment.Meets connId (fun _ view ledger => view.Matches ledger.active)
      ((deployment.connection connId).sendFrame (.close code reason)) moment :=
    meets_sendFrame (.close code reason) fits fits
  exact meets_bind sent fun _ _ still => meets_ret still

theorem meets_push (message : ServerMessage)
    (ready : Ready initialized (moment.shared.view connId) (deployment.ledger connId moment.history)) :
    deployment.Meets connId Handled
      ((deployment.connection connId).push deployment.crates initialized message) moment := by
  unfold ConnectionActor.push
  cases deployment.crates.toString message with
  | none => exact meets_ret ready
  | some json =>
    apply meets_bind (meets_sendFrame (.text json) ready.fits ready)
    intro sent now still
    cases sent with
    | true => exact meets_ret still
    | false => exact meets_ret still.fits

/-- The ledger lists the subscription before the hub does. -/
theorem meets_register {active : List SubscriptionRegistration} {id topic rootField : String}
    (fits : (moment.shared.view connId).Matches active) (inactive : ∀ sub ∈ active, sub.subId ≠ id)
    (accepted : (deployment.ledger connId moment.history).active =
      active ++ [⟨connId, id, topic, rootField⟩])
    (running : (deployment.ledger connId moment.history).ended = false)
    (isInitialized : (deployment.ledger connId moment.history).initialized = initialized) :
    deployment.Meets connId (fun _ => Ready initialized) (register connId id topic rootField)
      moment := by
  -- between the two calls the topic has it and the connection has not
  have added : deployment.Meets connId
      (fun _ view ledger => view = (moment.shared.view connId).addToTopic ⟨connId, id, topic, rootField⟩ ∧
        ledger = deployment.ledger connId moment.history)
      (perform (.addToTopic ⟨connId, id, topic, rootField⟩)) moment := by
    apply meets_perform (.addToTopic ⟨connId, id, topic, rootField⟩) rfl
    · exact ⟨fits.isOpen, fun ended => absurd ended (by simp [running])⟩
    · rintro answer after rfl
      exact ⟨rfl, rfl⟩
  apply meets_bind added
  rintro _ now ⟨sameView, sameLedger⟩
  apply meets_perform (.trackSubscription connId id topic) rfl
  · refine ⟨?_, fun ended => absurd ended (by simp [sameLedger, running])⟩
    rw [sameView]
    exact fits.isOpen
  · rintro answer after rfl
    rw [sameView, sameLedger]
    refine ⟨?_, running, isInitialized⟩
    show View.Matches _ (deployment.ledger connId moment.history).active
    rw [accepted]
    exact fits.register ⟨connId, id, topic, rootField⟩ inactive

theorem meets_deregister {active : List SubscriptionRegistration} {id : SubId}
    (fits : (moment.shared.view connId).Matches active)
    (nodup : (active.map SubscriptionRegistration.subId).Nodup)
    (completed : (deployment.ledger connId moment.history).active =
      active.filter fun sub => sub.subId ≠ id)
    (running : (deployment.ledger connId moment.history).ended = false)
    (isInitialized : (deployment.ledger connId moment.history).initialized = initialized) :
    deployment.Meets connId (fun _ => Ready initialized) (deregister connId id) moment := by
  have untracked : deployment.Meets connId
      (fun answer view ledger =>
        (answer, view) = (moment.shared.view connId).untrackSubscription id ∧
          ledger = deployment.ledger connId moment.history)
      (perform (.untrackSubscription connId id)) moment := by
    apply meets_perform (.untrackSubscription connId id) rfl
    · exact ⟨fits.isOpen, fun ended => absurd ended (by simp [running])⟩
    · exact fun answer after effect => ⟨effect, rfl⟩
  apply meets_bind untracked
  rintro answer now ⟨effect, sameLedger⟩
  -- an id that was not tracked is in no topic
  cases answer with
  | none =>
    apply meets_ret
    rw [sameLedger]
    exact ⟨completed ▸ fits.untrack_none effect, running, isInitialized⟩
  | some topic =>
    have kept := fits.untrack_some nodup effect
    apply meets_perform (.removeFromTopic connId id topic) rfl
    · exact ⟨kept.isOpen, fun ended => absurd ended (by simp [sameLedger, running])⟩
    · rintro answer after rfl
      rw [sameLedger]
      exact ⟨completed ▸ kept, running, isInitialized⟩

/-- The hub knows which ids are active. -/
theorem meets_hasSubscription {before : Ledger} (id : SubId)
    (fits : (moment.shared.view connId).Matches before.active)
    (within : (deployment.ledger connId moment.history).ended = true →
      (moment.shared.view connId).Within (deployment.ledger connId moment.history).active) :
    deployment.Meets connId
      (fun answer view ledger => answer = before.isActive id ∧
        view = moment.shared.view connId ∧ ledger = deployment.ledger connId moment.history)
      (perform (.hasSubscription connId id)) moment := by
  apply meets_perform (.hasSubscription connId id) rfl
  · exact ⟨fits.isOpen, within⟩
  · rintro answer after ⟨isAnswer, rfl⟩
    exact ⟨isAnswer.trans fits.any_entries, rfl, rfl⟩

theorem meets_subscribe {before : Ledger} {id query : String} {vars : Option Json}
    (ready : Ready initialized (moment.shared.view connId) before)
    (seen : deployment.ledger connId moment.history =
      before.subscribe deployment.crates (deployment.connection connId) id query vars) :
    deployment.Meets connId Handled
      ((deployment.connection connId).subscribe deployment.crates initialized id query vars)
      moment := by
  obtain ⟨fits, running, isInitialized⟩ := ready
  unfold ConnectionActor.subscribe
  unfold Ledger.subscribe at seen
  subst isInitialized
  cases isInitialized : before.initialized with
  | false =>
    rw [if_pos (.inl isInitialized)] at seen
    exact meets_closeWith _ _ (seen ▸ fits)
  | true =>
    cases found : before.isActive id with
    | true =>
      rw [if_pos (.inr found)] at seen
      apply meets_bind (meets_hasSubscription id fits fun _ => seen ▸ fits.within)
      rintro answer now ⟨rfl, sameView, sameLedger⟩
      rw [found]
      apply meets_closeWith
      rw [sameView, sameLedger, seen]
      exact fits
    | false =>
      rw [if_neg (by simp [isInitialized, found])] at seen
      -- a query without a topic is answered with an error, and nothing is registered
      cases derived : deriveSubscriptionTopic deployment.crates.parse
          (deployment.connection connId).topicPrefix query vars with
      | error message =>
        rw [derived] at seen
        apply meets_bind (meets_hasSubscription id fits fun _ => seen ▸ fits.within)
        rintro answer now ⟨rfl, sameView, sameLedger⟩
        have still : Ready true (now.shared.view connId) (deployment.ledger connId now.history) := by
          rw [sameView, sameLedger, seen]
          exact ⟨fits, running, isInitialized⟩
        rw [found]
        exact meets_bind (meets_reply _ still.fits still) fun _ _ holds => meets_ret holds
      | ok result =>
        obtain ⟨topic, rootField⟩ := result
        rw [derived] at seen
        have notEnded : (deployment.ledger connId moment.history).ended = false := by
          rw [seen]
          exact running
        apply meets_bind (meets_hasSubscription id fits fun ended =>
          absurd ended (by simp [notEnded]))
        rintro answer now ⟨rfl, sameView, sameLedger⟩
        rw [found]
        rw [← sameView] at fits
        rw [← sameLedger] at seen notEnded
        have registered : deployment.Meets connId (fun _ => Ready true)
            (register connId id topic rootField) now :=
          meets_register fits (Ledger.not_isActive found) (by rw [seen]; rfl) notEnded
            (by rw [seen]; exact isInitialized)
        exact meets_bind registered fun _ _ holds => meets_ret holds

theorem meets_handleClientMessage {before : Ledger} {message : ClientMessage}
    (ready : Ready initialized (moment.shared.view connId) before) (proper : before.Proper connId)
    (seen : deployment.ledger connId moment.history =
      before.receive deployment.crates (deployment.connection connId) message) :
    deployment.Meets connId Handled
      ((deployment.connection connId).handleClientMessage deployment.crates initialized message)
      moment := by
  obtain ⟨fits, running, isInitialized⟩ := ready
  cases message with
  | connectionInit payload =>
    have still : Ready true (moment.shared.view connId) (deployment.ledger connId moment.history) := by
      rw [seen]
      exact ⟨fits, running, rfl⟩
    exact meets_bind (meets_reply _ still.fits still) fun _ _ holds => meets_ret holds
  | ping payload =>
    have still : Ready initialized (moment.shared.view connId)
        (deployment.ledger connId moment.history) := by
      rw [seen]
      exact ⟨fits, running, isInitialized⟩
    exact meets_bind (meets_reply _ still.fits still) fun _ _ holds => meets_ret holds
  | pong payload =>
    apply meets_ret
    rw [seen]
    exact ⟨fits, running, isInitialized⟩
  -- the two messages that change what is registered
  | subscribe id query vars => exact meets_subscribe ⟨fits, running, isInitialized⟩ seen
  | complete id =>
    have deregistered : deployment.Meets connId (fun _ => Ready initialized) (deregister connId id)
        moment :=
      meets_deregister fits proper.nodup (by rw [seen]; rfl) (by rw [seen]; exact running)
        (by rw [seen]; exact isInitialized)
    exact meets_bind deregistered fun _ _ holds => meets_ret holds

theorem meets_handleText {before : Ledger} {frame : WsMessage}
    (ready : Ready initialized (moment.shared.view connId) before) (proper : before.Proper connId)
    (seen : deployment.ledger connId moment.history =
      before.receiveText deployment.crates (deployment.connection connId) frame) :
    deployment.Meets connId Handled
      ((deployment.connection connId).handleText deployment.crates initialized frame) moment := by
  unfold Ledger.receiveText at seen
  unfold ConnectionActor.handleText
  cases isText : frame.toText with
  | none =>
    rw [isText] at seen
    apply meets_ret
    rw [seen]
    exact ready
  | some text =>
    simp only [isText] at seen
    simp only
    cases isMessage : deployment.crates.fromStr text with
    | none =>
      simp only [isMessage] at seen
      exact meets_closeWith _ _ (seen ▸ ready.fits)
    | some message =>
      simp only [isMessage] at seen
      exact meets_handleClientMessage ready proper seen

/-- One round of the loop, after it has selected `event`. -/
theorem meets_handleEvent {before : Ledger} {event : LoopEvent}
    (ready : Ready initialized (moment.shared.view connId) before) (proper : before.Proper connId)
    (seen : deployment.ledger connId moment.history =
      before.see deployment.crates (deployment.connection connId) event) :
    deployment.Meets connId Handled
      ((deployment.connection connId).handleEvent deployment.crates initialized event) moment := by
  cases event with
  | outgoing message => exact meets_push message (seen ▸ ready)
  | pingTick => exact meets_push (.ping none) (seen ▸ ready)
  | readError | streamEnded =>
    apply meets_ret
    rw [seen]
    exact ready.fits
  | incoming frame =>
    cases frame with
    | close code reason =>
      apply meets_ret
      rw [seen]
      exact ready.fits
    | ping data =>
      have still : Ready initialized (moment.shared.view connId)
          (deployment.ledger connId moment.history) := seen ▸ ready
      exact meets_bind (meets_sendFrame (.pong data) still.fits still) fun _ _ holds => meets_ret holds
    | text _ | binary _ | pong _ =>
      simp only [Ledger.see, Ledger.receiveFrame] at seen
      exact meets_handleText ready proper seen

/-- The loop, by induction on the rounds. -/
theorem meets_serve (rounds : Nat)
    (ready : Ready initialized (moment.shared.view connId) (deployment.ledger connId moment.history)) :
    deployment.Meets connId (fun _ view ledger => view.Matches ledger.active)
      ((deployment.connection connId).serve deployment.crates initialized rounds) moment := by
  induction rounds generalizing initialized moment with
  | zero => exact meets_ret ready.fits
  | succ rounds inductionHypothesis =>
    have selected : deployment.Meets connId
        (fun event view ledger => view = moment.shared.view connId ∧
          ledger = (deployment.ledger connId moment.history).see deployment.crates
            (deployment.connection connId) event)
        (perform (.select connId)) moment := by
      apply meets_perform (.select connId) rfl
      · exact ⟨ready.fits, ready.running⟩
      · exact fun event after same => ⟨same, rfl⟩
    apply meets_bind selected
    rintro event now ⟨sameView, seen⟩
    rw [← sameView] at ready
    apply meets_bind (meets_handleEvent ready ledger_proper seen)
    intro flow later handled
    cases flow with
    | goOn initialized => exact inductionHypothesis handled
    | stop => exact meets_ret handled

/-- What is tracked of a connection is all that is registered. -/
theorem meets_deregisterConnection
    (fits : (moment.shared.view connId).Matches (deployment.ledger connId moment.history).active) :
    deployment.Meets connId (fun _ view _ => view.isClosed = false ∧ view.IsEmpty)
      (deregisterConnection connId) moment := by
  have forgotten : deployment.Meets connId
      (fun answer view ledger => answer = (moment.shared.view connId).entries ∧
        view = { moment.shared.view connId with entries := none } ∧
          ledger = deployment.ledger connId moment.history)
      (perform (.forgetConnection connId)) moment := by
    apply meets_perform (.forgetConnection connId) rfl
    · exact ⟨fits.isOpen, fun _ => fits.within⟩
    · rintro answer after ⟨isAnswer, rfl⟩
      exact ⟨isAnswer, rfl, rfl⟩
  apply meets_bind forgotten
  rintro answer now ⟨isAnswer, sameView, sameLedger⟩
  have registrations := fits.registrations
  cases answer with
  | none =>
    apply meets_ret
    rw [sameView]
    have nothing : (deployment.ledger connId moment.history).active = [] := by
      simpa [← isAnswer] using fits.entries
    exact ⟨fits.isOpen, rfl, fun topic => by rw [registrations, nothing]; rfl⟩
  | some subList =>
    -- what is tracked is all there is, so nothing is left once it is removed
    have tracked : subList =
        (deployment.ledger connId moment.history).active.map fun sub => (sub.subId, sub.topic) := by
      simpa [← isAnswer] using fits.entries
    apply meets_perform (.removeAll connId subList) rfl
    · rw [sameView, sameLedger]
      refine ⟨fits.isOpen, fun _ => ⟨by simp, fits.within.registrations⟩⟩
    · rintro answer after rfl
      rw [sameView]
      refine ⟨(View.isClosed_removeAll _ _).trans fits.isOpen, View.entries_removeAll _ _,
        fun topic => ?_⟩
      rw [View.registrations_removeAll, registrations, List.filter_filter, List.filter_eq_nil_iff,
        tracked]
      intro sub isActive
      simp only [Bool.and_eq_true, decide_eq_true_eq, not_and]
      rintro gone rfl
      exact gone (List.mem_map_of_mem isActive)

theorem meets_run (rounds : Nat)
    (ready : Ready false (moment.shared.view connId) (deployment.ledger connId moment.history)) :
    deployment.Meets connId (fun _ view _ => view.IsEmpty)
      ((deployment.connection connId).run deployment.crates rounds) moment := by
  apply meets_bind (meets_serve rounds ready)
  intro _ served fits
  apply meets_bind (meets_deregisterConnection fits)
  rintro _ now ⟨isOpen, empty⟩
  apply meets_perform (.closeChannel connId) rfl
  · exact ⟨isOpen, empty⟩
  · rintro answer after rfl
    exact ⟨empty.entries, empty.registrations⟩

end Programs

/-! ## The program of a broadcast -/

/-- The actors of all these subscribers are gone. -/
def AllClosed (dead : List (ConnectionId × SubId)) (moment : HubMoment) : Prop :=
  ∀ sub ∈ dead, (moment.shared.view sub.1).isClosed = true

section Broadcast

variable {index : Nat} {dead : List (ConnectionId × SubId)}

theorem AllClosed.later (closed : AllClosed dead before)
    (rely : ∀ connId, (before.shared.view connId).isClosed = true →
      (after.shared.view connId).isClosed = true) : AllClosed dead after :=
  fun sub member => rely sub.1 (closed sub member)

/-- A call that belongs to no connection changes no view. -/
theorem broadcasts_perform (call : HubCall) (index : Nat) {post : call.Answer → HubMoment → Prop}
    (unowned : call.owner = none)
    (stable : ∀ answer before after, post answer before →
      deployment.Rely (.broadcast index) before after → post answer after)
    (step : ∀ now, deployment.Rely (.broadcast index) moment now → ∀ answer shared,
      hubMeaning call now.shared answer shared →
      (∀ connId, shared.view connId = now.shared.view connId) →
      post answer (now.push shared (.perform (.broadcast index) ⟨call, answer⟩))) :
    (discipline deployment).Safe (.broadcast index) post (perform call) moment := by
  apply Discipline.Safe.perform stable
  intro now later _ answer shared effect _
  have same : ∀ connId, shared.view connId = now.shared.view connId := fun connId =>
    view_of_owner_ne effect (by simp [unowned])
  exact ⟨⟨rfl, same⟩, step now later answer shared effect same⟩

theorem broadcasts_sendToAll (payload : Json) (sentCount : Nat)
    (subscribers : List SubscriptionRegistration) (closed : AllClosed dead moment) :
    (discipline deployment).Safe (.broadcast index) (fun result now => AllClosed result.2 now)
      (sendToAll payload sentCount dead subscribers) moment := by
  induction subscribers generalizing sentCount dead moment with
  | nil => exact Discipline.Safe.ret fun after rely _ => closed.later rely
  | cons sub rest inductionHypothesis =>
    let message := ServerMessage.next sub.subId (formatData sub.rootField payload)
    have tried : (discipline deployment).Safe (.broadcast index)
        (fun answer now => AllClosed dead now ∧
          (answer = .closed → (now.shared.view sub.connId).isClosed = true))
        (perform (.trySend sub.connId message)) moment := by
      apply broadcasts_perform (.trySend sub.connId message) index rfl
      · exact fun answer before after known rely =>
          ⟨known.1.later rely, fun isClosed => rely _ (known.2 isClosed)⟩
      · intro now later answer shared effect same
        constructor
        · intro other member
          rw [Moment.push_shared, same]
          exact closed.later later other member
        · rintro rfl
          rw [Moment.push_shared, same]
          exact isClosed_of_trySend (Prod.mk.inj effect).1.symm
    apply Discipline.Safe.bind tried
    rintro answer now _ ⟨stillClosed, isClosed⟩
    -- only a closed channel makes the subscriber one to be removed
    cases answer with
    | ok => exact inductionHypothesis (sentCount + 1) stillClosed
    | full => exact inductionHypothesis sentCount stillClosed
    | closed =>
      apply inductionHypothesis sentCount
      intro other member
      cases List.mem_append.mp member with
      | inl earlier => exact stillClosed other earlier
      | inr last =>
        rw [List.mem_singleton.mp last]
        exact isClosed rfl

/-- Of an actor that is gone there is nothing left to deregister. -/
theorem broadcasts_deregister {connId : ConnectionId} (subId : SubId)
    (isClosed : (moment.shared.view connId).isClosed = true) (closed : AllClosed dead moment) :
    (discipline deployment).Safe (.broadcast index) (fun _ now => AllClosed dead now)
      (deregister connId subId) moment := by
  have untracked : (discipline deployment).Safe (.broadcast index)
      (fun answer now => answer = none ∧ AllClosed dead now)
      (perform (.untrackSubscription connId subId)) moment := by
    apply Discipline.Safe.perform
    · exact fun answer before after known rely => ⟨known.1, known.2.later rely⟩
    · intro now later inv answer shared effect _
      have empty := inv.settled connId (later connId isClosed)
      have noEntries : (now.shared.view connId).entries.getD [] = [] := by simp [empty.entries]
      have nothing := untrackSubscription_of_entries subId noEntries
      obtain ⟨rfl, rfl⟩ := Prod.mk.inj (Eq.trans effect nothing)
      exact ⟨⟨rfl, fun _ => rfl⟩, rfl, closed.later later⟩
  apply Discipline.Safe.bind untracked
  rintro answer now _ ⟨rfl, stillClosed⟩
  exact Discipline.Safe.ret fun after rely _ => stillClosed.later rely

theorem broadcasts_deregisterAll (closed : AllClosed dead moment) :
    (discipline deployment).Safe (.broadcast index) (fun _ _ => True) (deregisterAll dead) moment := by
  induction dead generalizing moment with
  | nil => exact Discipline.Safe.ret fun _ _ _ => trivial
  | cons sub rest inductionHypothesis =>
    have others : AllClosed rest moment := fun other member =>
      closed other (List.mem_cons_of_mem _ member)
    apply Discipline.Safe.bind (broadcasts_deregister sub.2 (closed sub List.mem_cons_self) others)
    exact fun _ now _ stillClosed => inductionHypothesis stillClosed

theorem broadcasts_broadcast (topic : String) (payload : Json) :
    (discipline deployment).Safe (.broadcast index) (fun _ _ => True) (broadcast topic payload)
      moment := by
  have copied : (discipline deployment).Safe (.broadcast index) (fun _ _ => True)
      (perform (.subscribers topic)) moment :=
    broadcasts_perform (.subscribers topic) index rfl (fun _ _ _ _ _ => trivial)
      fun _ _ _ _ _ _ => trivial
  apply Discipline.Safe.bind copied
  intro subscribers now _ _
  cases subscribers with
  | none => exact Discipline.Safe.ret fun _ _ _ => trivial
  | some subscribers =>
    have nobody : AllClosed [] now := fun sub member => absurd member List.not_mem_nil
    apply Discipline.Safe.bind (broadcasts_sendToAll payload 0 subscribers nobody)
    intro result later _ closed
    apply Discipline.Safe.bind (broadcasts_deregisterAll closed)
    exact fun _ _ _ _ => Discipline.Safe.ret fun _ _ _ => trivial

end Broadcast

/-- Every program keeps the discipline from its start. -/
theorem meets_program (task : Task) (inv : Inv moment) (fresh : Fresh task moment.history) :
    (discipline deployment).Safe task ((discipline deployment).post task)
      (deployment.program task) (moment.push moment.shared (.start task)) := by
  cases task with
  | broadcast index =>
    apply Discipline.Safe.bind (broadcasts_broadcast (deployment.topic index) (deployment.payload index))
    exact fun _ _ _ _ => Discipline.Safe.ret fun _ _ _ => trivial
  | actor connId =>
    have unseen : deployment.ledger connId (moment.push moment.shared (.start (.actor connId))).history
        = {} := by
      rw [Moment.push_history, ledger_silent (fun event same => by cases same), ledger_fresh fresh]
    have ready : Ready false ((moment.push moment.shared (.start (.actor connId))).shared.view connId)
        (deployment.ledger connId (moment.push moment.shared (.start (.actor connId))).history) := by
      rw [unseen, Moment.push_shared, inv.blank connId fresh]
      exact ⟨View.matches_blank, rfl, rfl⟩
    apply Discipline.Safe.bind (meets_run (deployment.rounds connId) ready)
    exact fun _ now _ empty => Discipline.Safe.ret fun after rely _ => by
      show (after.shared.view connId).IsEmpty
      rw [rely.1]
      exact empty

/-! ## Every run -/

theorem inv_hub : Inv ⟨deployment.hub, []⟩ where
  settled := fun _ closed => absurd closed (by simp [hub, View.blank])
  blank := fun _ _ => rfl

section Runs

variable {config : HubConfig} {connId : ConnectionId}

/-- A call that an actor is about to issue is allowed. -/
theorem allowed_of_running (reaches : deployment.system.Reaches deployment.hub config) {call : HubCall}
    {next : call.Answer → HubProg (Option Nat)}
    (running : config.threads (.actor connId) = .running (.call call next)) :
    call.Allowed (deployment.ledger connId config.moment.history)
      (config.moment.shared.view connId) := by
  obtain ⟨inv, threads⟩ := (discipline deployment).sound inv_hub
    (fun task _ inv fresh => meets_program task inv fresh) reaches trivial
  have obligation := threads (.actor connId)
  rw [running] at obligation
  obtain ⟨answer, shared, effect⟩ := exists_answer call config.moment.shared
  exact (obligation config.moment ((discipline deployment).rely_refl _ _) inv answer shared effect
    trivial).1.2.1

/-- An actor that returns has nothing left in the hub. -/
theorem isEmpty_of_returned (reaches : deployment.system.Reaches deployment.hub config)
    {value : Option Nat} (returned : config.threads (.actor connId) = .running (.ret value) ∨
      config.threads (.actor connId) = .finished value) :
    (config.moment.shared.view connId).IsEmpty := by
  obtain ⟨inv, threads⟩ := (discipline deployment).sound inv_hub
    (fun task _ inv fresh => meets_program task inv fresh) reaches trivial
  have obligation := threads (.actor connId)
  cases returned with
  | inl running =>
    rw [running] at obligation
    exact obligation config.moment ((discipline deployment).rely_refl _ _) inv
  | inr finished =>
    rw [finished] at obligation
    exact obligation

theorem within_of_ended (reaches : deployment.system.Reaches deployment.hub config)
    (ended : (deployment.ledger connId config.moment.history).ended = true) :
    (config.moment.shared.view connId).Within
      (deployment.ledger connId config.moment.history).active := by
  cases state : config.threads (.actor connId) with
  | idle =>
    rw [ledger_fresh (reaches.fresh_of_idle state)] at ended
    cases ended
  | finished value => exact (isEmpty_of_returned reaches (.inr state)).within
  | running program =>
    cases program with
    | ret value => exact (isEmpty_of_returned reaches (.inl state)).within
    | call call next => exact (allowed_of_running reaches state).within ended

end Runs

/-- What the hub holds of a connection, wherever its actor is. -/
structure RegistryCorrect (deployment : Deployment) (connId : ConnectionId) (config : HubConfig) :
    Prop where
  /-- Between messages both maps have the active subscriptions, once each. -/
  betweenMessages : ∀ next, config.threads (.actor connId) = .running (.call (.select connId) next) →
    (config.moment.shared.view connId).Matches
        (deployment.ledger connId config.moment.history).active ∧
      (deployment.ledger connId config.moment.history).Proper connId
  /-- After it has refused a subscription the actor waits for no message, and has registered
      nothing. -/
  afterEnd : (deployment.ledger connId config.moment.history).ended = true →
    (∀ other next, config.threads (.actor connId) ≠ .running (.call (.select other) next)) ∧
      (config.moment.shared.view connId).Within
        (deployment.ledger connId config.moment.history).active
  /-- After its exit neither map has an entry of the connection. -/
  afterExit : ∀ value, config.threads (.actor connId) = .finished value →
    (config.moment.shared.view connId).IsEmpty

end Deployment

/-- However many connections and broadcasts there are, and however they interleave. -/
theorem registry_correct (deployment : Deployment) (connId : ConnectionId) (config : HubConfig)
    (reaches : deployment.system.Reaches deployment.hub config) :
    deployment.RegistryCorrect connId config where
  betweenMessages := fun _ waiting =>
    ⟨(Deployment.allowed_of_running reaches waiting).1, Deployment.ledger_proper⟩
  afterEnd := by
    intro ended
    refine ⟨fun other next waiting => ?_, Deployment.within_of_ended reaches ended⟩
    have running := (Deployment.allowed_of_running reaches waiting).2
    rw [ended] at running
    cases running
  afterExit := fun _ finished => Deployment.isEmpty_of_returned reaches (.inr finished)

/-! ## Two subscribers and a broadcast -/

/-- Clients send texts and nothing gets lost. -/
def textScheduler (deployment : Deployment) : Scheduler deployment.system String where
  answer := fun text _ call hub =>
    match call with
    | .select _ => some (.incoming (.text text), hub)
    | .send _ _ => some (true, hub)
    | .addToTopic registration => some ((), hub.addToTopic registration)
    | .trackSubscription connId subId topic => some ((), hub.trackSubscription connId subId topic)
    | .untrackSubscription connId subId => some (hub.untrackSubscription connId subId)
    | .removeFromTopic connId subId topic => some ((), hub.removeFromTopic connId subId topic)
    | .hasSubscription connId subId => some (hub.hasSubscription connId subId, hub)
    | .forgetConnection connId => some (hub.forgetConnection connId)
    | .removeAll connId subList => some ((), hub.removeAll connId subList)
    | .closeChannel connId =>
      some ((), hub.setChannel connId { hub.channels connId with isClosed := true })
    | .subscribers topic => some (hub.topics topic, hub)
    | .trySend connId message => some (hub.trySend connId message)
  event := fun event => nomatch event
  answer_sound := by
    intro text task call before result answered
    cases call with
    | hasSubscription _ _ | subscribers _ =>
      cases answered
      exact ⟨rfl, rfl⟩
    | _ =>
      cases answered
      rfl
  event_sound := fun event => nomatch event

/-- Clients say `init` and `subscribe`, and every query is for the field `orderUpdates`. -/
def orderCrates : SubscriptionCrates where
  fromStr text :=
    if text = "init" then some (.connectionInit none)
    else if text = "subscribe" then some (.subscribe "1" "" none)
    else none
  toString _ := none
  parse _ := ⟨[], [.operation ⟨some true, some [.field (some "orderUpdates") none]⟩]⟩

def orderFeed : Deployment where
  crates := orderCrates
  topicPrefix _ := "spectra"
  capacity _ := 8
  rounds _ := 9
  topic _ := "spectra.events.orderupdates"
  payload _ := .object []

/-- Both subscribe, a broadcast copies the subscribers, `b` leaves, and the broadcast goes on. -/
def leavesMeanwhile : List (Move Task Empty String) :=
  (["", "init", "subscribe", "", "", ""].map (.thread (.actor "a"))) ++
    (["", "init", "subscribe", "", "", ""].map (.thread (.actor "b"))) ++
    (["", ""].map (.thread (.broadcast 0))) ++
    (["leave", "", "", "", "", ""].map (.thread (.actor "b"))) ++
    (["", "", "", ""].map (.thread (.broadcast 0)))

theorem registry_correct_after_leave : ∃ config,
    orderFeed.system.Reaches orderFeed.hub config ∧
      (∃ next, config.threads (.actor "a") = .running (.call (.select "a") next)) ∧
      (orderFeed.ledger "a" config.moment.history).active =
        [⟨"a", "1", "spectra.events.orderupdates", "orderUpdates"⟩] ∧
      config.threads (.actor "b") = .finished none ∧
      orderFeed.RegistryCorrect "a" config ∧ orderFeed.RegistryCorrect "b" config := by
  have run : ∃ config, orderFeed.system.Reaches orderFeed.hub config ∧
      (∃ next, config.threads (.actor "a") = .running (.call (.select "a") next)) ∧
      (orderFeed.ledger "a" config.moment.history).active =
        [⟨"a", "1", "spectra.events.orderupdates", "orderUpdates"⟩] ∧
      config.threads (.actor "b") = .finished none :=
    ⟨_, (textScheduler orderFeed).run_reaches leavesMeanwhile .initial rfl, ⟨_, rfl⟩, rfl, rfl⟩
  obtain ⟨config, reaches, waits, active, left⟩ := run
  exact ⟨config, reaches, waits, active, left, registry_correct orderFeed "a" config reaches,
    registry_correct orderFeed "b" config reaches⟩

end SpectraGQL.Subscriptions
