import SpectraGQL.Interaction.Schedule
import SpectraGQL.Subscriptions.Outbox
import SpectraGQL.Subscriptions.Session

/-! # What a session leaves behind

An actor that ends by itself deregisters its connection.  One that is cancelled leaves in the
hub what is there at the time.  `Holds` says what this is, for each stage of the actor; a
broadcast may take it out later, when it finds the channel closed.
-/

namespace SpectraGQL.Subscriptions

open Interaction SpectraGQL.Http SpectraGQL.Protocol SpectraGQL.Gateway SubscriptionHub

abbrev SessionMoment := Moment sessionSignature SessionTask SessionEvent SessionState Outcome

abbrev SessionLabel := Label sessionSignature SessionTask SessionEvent Outcome

abbrev SessionConfig := Config sessionSignature SessionTask SessionEvent SessionState Outcome

/-! ## What has happened -/

section Labels

variable (connId : ConnectionId)

/-- The actor registers a subscription. -/
def subscribes : SessionLabel → Bool
  | .perform (.actor other) ⟨.hub (.addToTopic _), _⟩ => other = connId
  | _ => false

/-- `deregister_connection` has taken the subscriptions out of their topics, or has found none. -/
def clears : SessionLabel → Bool
  | .perform (.actor other) ⟨.hub (.removeAll _ _), _⟩ => other = connId
  | .perform (.actor other) ⟨.hub (.forgetConnection _), subList⟩ =>
    other = connId ∧ (subList.getD []).isEmpty
  | _ => false

/-- A broadcast deregisters a subscription of the connection. -/
def sweeps : SessionLabel → Bool
  | .perform (.broadcast _) ⟨.hub (.untrackSubscription other _), _⟩ => other = connId
  | .perform (.broadcast _) ⟨.hub (.removeFromTopic other _ _), _⟩ => other = connId
  | _ => false

/-- Nothing was ever registered, or `deregister_connection` was carried out. -/
def Cleared (history : List SessionLabel) : Prop :=
  history.any (subscribes connId) = false ∨ history.any (clears connId) = true

end Labels

/-! ## Stages in a session -/

namespace Stage

/-- The actor does nothing before its task begins. -/
def inSession (connId : ConnectionId) : Automaton sessionSignature (Option Stage) where
  allowed
    | none, call => call = .begins connId
    | some stage, .hub call => stage.Allows connId call
    | some _, _ => False
  possible := fun _ => True
  next
    | none, _ => some (.idle none)
    | some stage, ⟨.hub call, answer⟩ => some (stage.next ⟨call, answer⟩)
    | some stage, _ => some stage

end Stage

def Tour.inSession (topic : String) (payload : Json) : Automaton sessionSignature Tour where
  allowed
    | tour, .hub call => tour.Allows topic payload call
    | _, _ => False
  possible := fun _ => True
  next
    | tour, ⟨.hub call, answer⟩ => tour.next ⟨call, answer⟩
    | tour, _ => tour

namespace Sessions

/-- A program of the hub obeys in a session what it obeys there. -/
theorem onHub_obeys {τ υ α : Type} {upper : Automaton hubSignature τ} {lower : Automaton sessionSignature υ}
    {embed : τ → υ} (possible : ∀ event, upper.possible event)
    (calls : ∀ phase call, upper.allowed phase call → lower.allowed (embed phase) (.hub call))
    (moves : ∀ phase call answer, embed (upper.next phase ⟨call, answer⟩) =
      lower.next (embed phase) ⟨.hub call, answer⟩)
    {post : α → τ → Prop} {program : HubProg α} {phase : τ} (obeys : program.Obeys upper post phase) :
    (onHub program).Obeys lower (fun value after => ∃ phase, after = embed phase ∧ post value phase)
      (embed phase) := by
  apply Prog.Obeys.refine _ obeys
  intro phase call allowed
  refine ⟨calls phase call allowed, fun answer _ => ⟨possible _, ?_⟩⟩
  exact (moves phase call answer).symm

theorem actor_obeys (sessions : Sessions) (connId : ConnectionId) :
    (sessions.program (.actor connId)).Obeys (Stage.inSession connId)
      (fun _ after => after = some .gone) none := by
  have runs := ConnectionActor.run_obeys sessions.deployment.crates
    (sessions.deployment.connection connId) (sessions.deployment.rounds connId)
  have inSession : (onHub ((sessions.deployment.connection connId).run sessions.deployment.crates
      (sessions.deployment.rounds connId))).Obeys (Stage.inSession connId)
        (fun _ after => ∃ stage, after = some stage ∧ stage = .gone) (some (.idle none)) :=
    onHub_obeys (fun _ => trivial) (fun _ _ allowed => allowed) (fun _ _ _ => rfl) runs
  refine ⟨rfl, fun _ _ => ?_⟩
  apply inSession.bind
  rintro _ _ ⟨_, rfl, rfl⟩
  rfl

theorem broadcast_obeys (sessions : Sessions) (index : Nat) :
    (sessions.program (.broadcast index)).Obeys
      (Tour.inSession (sessions.deployment.topic index) (sessions.deployment.payload index))
      (fun _ _ => True) {} := by
  have runs := @Tour.broadcast_obeys (sessions.deployment.topic index) (sessions.deployment.payload index)
  have inSession : (onHub (broadcast (sessions.deployment.topic index)
      (sessions.deployment.payload index))).Obeys
        (Tour.inSession (sessions.deployment.topic index) (sessions.deployment.payload index))
        (fun _ after => ∃ tour : Tour, after = tour ∧ True) {} :=
    onHub_obeys (fun _ => trivial) (fun _ _ allowed => allowed) (fun _ _ _ => rfl) runs
  exact inSession.bind fun _ _ _ => trivial

end Sessions

/-! ## What the hub holds at each stage -/

section Views

variable {view after : View} {id : SubId} {topic : String}

/-- Both maps have the same subscriptions, up to one that is only in its topic. -/
structure View.Fits (view : View) (pending : Option (SubId × String)) : Prop where
  registered : ∀ id topic, view.Registered id topic ↔
    (id, topic) ∈ view.entries.getD [] ∨ pending = some (id, topic)
  nodup : ((view.entries.getD []).map Prod.fst).Nodup
  fresh : ∀ id topic, pending = some (id, topic) → id ∉ (view.entries.getD []).map Prod.fst

theorem View.isEmpty_iff : view.IsEmpty ↔
    view.entries = none ∧ ∀ id topic, ¬ view.Registered id topic := by
  constructor
  · rintro ⟨entries, registrations⟩
    refine ⟨entries, ?_⟩
    rintro id topic ⟨sub, member, -⟩
    rw [registrations] at member
    cases member
  · rintro ⟨entries, none⟩
    refine ⟨entries, fun topic => List.eq_nil_iff_forall_not_mem.mpr fun sub member => ?_⟩
    exact none sub.subId topic ⟨sub, member, rfl⟩

/-- A view with neither entries nor a pending subscription is empty. -/
theorem View.Fits.isEmpty (fits : view.Fits none) (noEntries : view.entries = none) : view.IsEmpty := by
  rw [View.isEmpty_iff]
  refine ⟨noEntries, fun id topic registered => ?_⟩
  simpa [noEntries] using (fits.registered id topic).mp registered

theorem View.Fits.add (fits : view.Fits none) (registration : SubscriptionRegistration)
    (unused : registration.subId ∉ (view.entries.getD []).map Prod.fst) :
    (view.addToTopic registration).Fits (some (registration.subId, registration.topic)) where
  registered := by
    intro id topic
    rw [View.registered_addToTopic, fits.registered, Option.some.injEq, Prod.mk.injEq]
    simp only [View.addToTopic, reduceCtorEq, or_false]
    exact Or.comm
  nodup := fits.nodup
  fresh := by
    rintro _ _ ⟨⟩
    exact unused

theorem View.Fits.track (fits : view.Fits (some (id, topic))) :
    (view.trackSubscription id topic).Fits none := by
  have unused := fits.fresh id topic rfl
  have kept : (view.entries.getD []).filter (fun sub => sub.1 ≠ id) = view.entries.getD [] := by
    rw [List.filter_eq_self]
    intro sub member
    have other : sub.1 ≠ id := fun same => unused (same ▸ List.mem_map_of_mem member)
    simpa using other
  constructor
  · intro id' topic'
    have same : (view.trackSubscription id topic).Registered id' topic' ↔ view.Registered id' topic' :=
      Iff.rfl
    rw [same, fits.registered, View.trackSubscription, Option.getD_some, kept]
    simp [eq_comm]
  · rw [View.trackSubscription, Option.getD_some, kept, List.map_append, List.nodup_append]
    refine ⟨fits.nodup, by simp, fun first member second last => ?_⟩
    obtain rfl : second = id := by simpa using last
    exact fun same => unused (same ▸ member)
  · rintro _ _ ⟨⟩

/-- The id that is untracked is in its topic still. -/
theorem View.Fits.untrack (fits : view.Fits none)
    (untracked : (some topic, after) = view.untrackSubscription id) :
    after.Fits (some (id, topic)) ∧ after.entries.isSome = true ∧ view.entries.isSome = true := by
  simp only [View.untrackSubscription] at untracked
  split at untracked
  · cases (Prod.mk.inj untracked).1
  · rename_i found
    obtain ⟨isTopic, rfl⟩ := Prod.mk.inj untracked
    cases isTopic
    obtain ⟨isId, before, rest, split, none⟩ := List.find?_eq_some_iff_append.mp found
    obtain rfl : id = _ := (of_decide_eq_true isId).symm
    have erased : (view.entries.getD []).eraseP (fun sub => sub.1 = id) = before ++ rest := by
      rw [split, List.eraseP_append_right, List.eraseP_cons_of_pos]
      · simp
      · exact fun other member => by simpa using none other member
    -- the id is listed once, so it is gone from what is left
    have nodup := fits.nodup
    rw [split, List.map_append, List.map_cons, List.nodup_append, List.nodup_cons] at nodup
    obtain ⟨nodupBefore, ⟨notAfter, nodupRest⟩, apart⟩ := nodup
    refine ⟨⟨fun id' topic' => ?_, ?_, ?_⟩, rfl, ?_⟩
    · have same : (view.Registered id' topic') ↔ _ := fits.registered id' topic'
      rw [erased]
      refine same.trans ?_
      rw [split]
      simp only [List.mem_append, List.mem_cons, Option.getD_some, Option.some.injEq, Prod.mk.injEq,
        reduceCtorEq, or_false]
      grind
    · rw [erased, Option.getD_some, List.map_append, List.nodup_append]
      exact ⟨nodupBefore, nodupRest, fun first member second last =>
        apart first member second (List.mem_cons_of_mem _ last)⟩
    · rintro _ _ ⟨⟩
      rw [erased, Option.getD_some, List.map_append, List.mem_append]
      rintro (inBefore | inRest)
      · exact apart id inBefore id List.mem_cons_self rfl
      · exact notAfter inRest
    · cases entries : view.entries with
      | none => simp [entries] at split
      | some _ => rfl

theorem View.Fits.remove (fits : view.Fits (some (id, topic))) :
    (view.removeFromTopic id topic).Fits none := by
  have unused := fits.fresh id topic rfl
  constructor
  · intro id' topic'
    rw [View.registered_removeFromTopic, fits.registered]
    simp only [View.removeFromTopic, Option.some.injEq, Prod.mk.injEq, reduceCtorEq, or_false]
    constructor
    · rintro ⟨entry | same, other⟩
      · exact entry
      · exact absurd same other
    · intro entry
      refine ⟨.inl entry, ?_⟩
      rintro ⟨rfl, rfl⟩
      exact unused (List.mem_map_of_mem entry)
  · exact fits.nodup
  · rintro _ _ ⟨⟩

/-- What the hub holds of the connection of an actor, which has or has not subscribed, and has or has
    not been cleared. -/
def Holds (subscribed cleared : Bool) (view : View) : Option Stage → Prop
  | none => view.IsEmpty ∧ subscribed = false ∧ cleared = false
  | some (.idle unused) => view.Fits none ∧
      (∀ id, unused = some id → id ∉ (view.entries.getD []).map Prod.fst) ∧
      view.entries.isSome = subscribed ∧ cleared = false
  | some (.adding id topic) => view.Fits (some (id, topic)) ∧ subscribed = true ∧ cleared = false
  | some (.removing id topic) => view.Fits (some (id, topic)) ∧ view.entries.isSome = true ∧
      subscribed = true ∧ cleared = false
  | some (.leaving subList) => view.entries = none ∧
      (∀ id topic, view.Registered id topic ↔ (id, topic) ∈ subList) ∧
      subscribed = true ∧ cleared = subList.isEmpty
  | some .left => view.IsEmpty ∧ cleared = true
  | some .gone => view.IsEmpty ∧ cleared = true

variable {subscribed cleared : Bool} {stage : Option Stage}

/-- An actor leaves nothing behind if it has not subscribed, or was cleared. -/
theorem Holds.isEmpty_iff (holds : Holds subscribed cleared view stage) :
    view.IsEmpty ↔ subscribed = false ∨ cleared = true := by
  cases stage with
  | none =>
    obtain ⟨isEmpty, isNot, -⟩ := holds
    exact ⟨fun _ => .inl isNot, fun _ => isEmpty⟩
  | some stage =>
  cases stage with
  | idle unused =>
    obtain ⟨fits, -, isSome, notCleared⟩ := holds
    subst isSome notCleared
    constructor
    · intro isEmpty
      simp [isEmpty.entries]
    · intro unsubscribed
      exact fits.isEmpty (by simpa using unsubscribed)
  | adding id topic =>
    obtain ⟨fits, isSubscribed, notCleared⟩ := holds
    subst isSubscribed notCleared
    constructor
    · intro isEmpty
      exact absurd ((fits.registered id topic).mpr (.inr rfl)) ((View.isEmpty_iff.mp isEmpty).2 id topic)
    · simp
  -- between the two calls the entry is gone, and the list of the others is still there
  | removing id topic =>
    obtain ⟨fits, isSome, isSubscribed, notCleared⟩ := holds
    subst isSubscribed notCleared
    constructor
    · intro isEmpty
      simp [isEmpty.entries] at isSome
    · simp
  | leaving subList =>
    obtain ⟨noEntries, registered, isSubscribed, isCleared⟩ := holds
    subst isSubscribed isCleared
    rw [View.isEmpty_iff]
    constructor
    · rintro ⟨-, none⟩
      right
      rw [List.isEmpty_iff, List.eq_nil_iff_forall_not_mem]
      exact fun sub member => none sub.1 sub.2 ((registered sub.1 sub.2).mpr member)
    · intro nothing
      have isNil : subList = [] := by simpa using nothing
      exact ⟨noEntries, fun id topic isRegistered => by simpa [isNil] using (registered id topic).mp isRegistered⟩
  | left | gone =>
    obtain ⟨isEmpty, isCleared⟩ := holds
    exact ⟨fun _ => .inr isCleared, fun _ => isEmpty⟩

/-- Whether the channel is closed does not matter. -/
theorem Holds.congr (holds : Holds subscribed cleared view stage) (entries : after.entries = view.entries)
    (registrations : after.registrations = view.registrations) :
    Holds subscribed cleared after stage := by
  have registered : ∀ id topic, after.Registered id topic ↔ view.Registered id topic := by
    intro id topic
    rw [View.Registered, registrations, View.Registered]
  have isEmpty : view.IsEmpty → after.IsEmpty := fun isEmpty =>
    ⟨entries.trans isEmpty.entries, fun topic => (congrFun registrations topic).trans (isEmpty.registrations topic)⟩
  have fits : ∀ pending, view.Fits pending → after.Fits pending := by
    intro pending fits
    exact ⟨fun id topic => by rw [registered, fits.registered, entries], by rw [entries]; exact fits.nodup,
      by rw [entries]; exact fits.fresh⟩
  cases stage with
  | none => exact ⟨isEmpty holds.1, holds.2⟩
  | some stage =>
  cases stage with
  | idle _ | removing _ _ => exact ⟨fits _ holds.1, by rw [entries]; exact holds.2⟩
  | adding _ _ => exact ⟨fits _ holds.1, holds.2⟩
  | leaving _ =>
    obtain ⟨noEntries, listed, rest⟩ := holds
    exact ⟨entries.trans noEntries, fun id topic => (registered id topic).trans (listed id topic), rest⟩
  | left | gone => exact ⟨isEmpty holds.1, holds.2⟩

/-- A call of the actor leads from stage to stage. -/
theorem Holds.perform {stage : Stage} {connId : ConnectionId} {call : HubCall} {answer : call.Answer}
    (holds : Holds subscribed cleared view (some stage)) (allows : stage.Allows connId call)
    (effect : viewMeaning call view answer after) :
    Holds (subscribed || subscribes connId (.perform (.actor connId) ⟨.hub call, answer⟩))
      (cleared || clears connId (.perform (.actor connId) ⟨.hub call, answer⟩)) after
      (some (stage.next ⟨call, answer⟩)) := by
  cases stage with
  | idle unused =>
    obtain ⟨fits, isUnused, isSome, rfl⟩ := holds
    cases call with
    | select _ | send _ _ =>
      obtain rfl : after = view := effect
      simp only [subscribes, clears, Bool.or_false]
      exact ⟨fits, fun _ none => (by cases none), isSome, rfl⟩
    | hasSubscription _ id =>
      obtain ⟨isAnswer, rfl⟩ := effect
      simp only [subscribes, clears, Bool.or_false]
      refine ⟨fits, fun free isFree => ?_, isSome, rfl⟩
      cases answer with
      | true => cases isFree
      | false =>
        -- an id that was not found is in no entry
        cases isFree
        intro member
        obtain ⟨entry, isEntry, same⟩ := List.mem_map.mp member
        have other := List.any_eq_false.mp isAnswer.symm entry isEntry
        simp [same] at other
    | addToTopic registration =>
      obtain ⟨own, isId⟩ := allows
      obtain rfl : after = _ := effect
      refine ⟨fits.add registration (isUnused _ isId), ?_, ?_⟩
      · simp [subscribes]
      · simp [clears]
    | untrackSubscription _ id =>
      cases answer with
      | none =>
        -- nothing was tracked under that id
        have same : after = view := by
          simp only [viewMeaning, View.untrackSubscription] at effect
          split at effect
          · exact (Prod.mk.inj effect).2
          · cases (Prod.mk.inj effect).1
        subst same
        simp only [subscribes, clears, Bool.or_false]
        exact ⟨fits, fun _ none => (by cases none), isSome, rfl⟩
      | some topic =>
        obtain ⟨untracked, stays, was⟩ := fits.untrack effect
        refine ⟨untracked, stays, ?_, ?_⟩
        · simp [← isSome, was]
        · simp [clears]
    | forgetConnection other =>
      obtain rfl : other = connId := allows
      obtain ⟨isAnswer, rfl⟩ := effect
      cases answer with
      | none =>
        have isEmpty := fits.isEmpty isAnswer.symm
        exact ⟨⟨rfl, isEmpty.registrations⟩, by simp [clears]⟩
      | some subList =>
        -- the copy lists what is still registered
        refine ⟨rfl, fun id topic => ?_, ?_, ?_⟩
        · have same := fits.registered id topic
          rw [← isAnswer] at same
          have listed : view.Registered id topic ↔ (id, topic) ∈ subList := by simpa using same
          exact listed
        · simp [← isSome, ← isAnswer]
        · cases subList <;> simp [clears]
    | _ => exact allows.elim
  | adding id topic =>
    obtain ⟨fits, rfl, rfl⟩ := holds
    obtain rfl : call = _ := allows
    obtain rfl : after = _ := effect
    exact ⟨fits.track, fun _ none => (by cases none), rfl, rfl⟩
  | removing id topic =>
    obtain ⟨fits, isSome, rfl, rfl⟩ := holds
    obtain rfl : call = _ := allows
    obtain rfl : after = _ := effect
    exact ⟨fits.remove, fun _ none => (by cases none), isSome, rfl⟩
  | leaving subList =>
    obtain ⟨noEntries, registered, rfl, rfl⟩ := holds
    obtain rfl : call = _ := allows
    obtain rfl : after = _ := effect
    refine ⟨View.isEmpty_iff.mpr ⟨?_, fun id topic left => ?_⟩, by simp [clears]⟩
    · rw [View.entries_removeAll, noEntries]
    · obtain ⟨was, kept⟩ := (View.registered_removeAll subList).mp left
      exact kept ((registered id topic).mp was)
  | left =>
    obtain ⟨isEmpty, rfl⟩ := holds
    obtain rfl : call = _ := allows
    obtain rfl : after = _ := effect
    exact ⟨⟨isEmpty.entries, isEmpty.registrations⟩, rfl⟩
  | gone => exact allows.elim

/-- A broadcast takes nothing out of an empty view. -/
theorem View.IsEmpty.untrack (isEmpty : view.IsEmpty) (id : SubId) :
    (view.untrackSubscription id).2.IsEmpty := by
  have nothing : view.untrackSubscription id = (none, view) := by
    simp [View.untrackSubscription, isEmpty.entries]
  rw [nothing]
  exact isEmpty

theorem View.IsEmpty.remove (isEmpty : view.IsEmpty) (id : SubId) (topic : String) :
    (view.removeFromTopic id topic).IsEmpty := by
  rw [View.isEmpty_iff]
  refine ⟨isEmpty.entries, fun id' topic' registered => ?_⟩
  exact (View.isEmpty_iff.mp isEmpty).2 id' topic' ((View.registered_removeFromTopic id topic).mp registered).1

/-! ### Closed channels -/

/-- Only the actor closes the channel, and nobody opens it again. -/
theorem isClosed_perform {call : HubCall} {before after : SubscriptionHub} {answer : call.Answer}
    {connId : ConnectionId} (effect : hubMeaning call before answer after)
    (notClose : call ≠ .closeChannel connId) :
    (after.view connId).isClosed = (before.view connId).isClosed := by
  by_cases own : call.owner = some connId
  · have onView := viewMeaning_of_owner effect own
    cases call with
    | closeChannel other =>
      cases own
      exact absurd rfl notClose
    | untrackSubscription other id =>
      rw [(Prod.mk.inj onView).2]
      exact View.isClosed_untrackSubscription
    | removeAll other subList => rw [show after.view connId = _ from onView, View.isClosed_removeAll]
    | hasSubscription _ _ | forgetConnection _ => rw [onView.2]
    | select _ | send _ _ | subscribers _ | trySend _ _ => rw [show after.view connId = _ from onView]
    | addToTopic _ | trackSubscription _ _ _ | removeFromTopic _ _ _ =>
      rw [show after.view connId = _ from onView]
      rfl
  · rw [view_of_owner_ne effect own]

end Views

/-! ## Every run -/

namespace Sessions

variable {sessions : Sessions} {connId : ConnectionId} {history : List SessionLabel}
  {label : SessionLabel}

def stageOf (connId : ConnectionId) (history : List SessionLabel) : Option Stage :=
  (Stage.inSession connId).phaseOf none (.actor connId) history

def tour (sessions : Sessions) (index : Nat) (history : List SessionLabel) : Tour :=
  (Tour.inSession (sessions.deployment.topic index) (sessions.deployment.payload index)).phaseOf {}
    (.broadcast index) history

theorem stageOf_append : stageOf connId (history ++ [label]) =
    (Stage.inSession connId).follow (.actor connId) (stageOf connId history) label := by
  rw [stageOf, Automaton.phaseOf_append]
  rfl

theorem tour_append (index : Nat) : sessions.tour index (history ++ [label]) =
    (Tour.inSession (sessions.deployment.topic index) (sessions.deployment.payload index)).follow
      (.broadcast index) (sessions.tour index history) label := by
  rw [tour, Automaton.phaseOf_append]
  rfl

/-- What is known of a connection in the course of a run. -/
structure ConnOk (connId : ConnectionId) (moment : SessionMoment) : Prop where
  swept : moment.history.any (sweeps connId) = true → (moment.shared.hub.view connId).isClosed = true
  /-- An actor that is gone makes no further call. -/
  closed : (moment.shared.hub.view connId).isClosed = true →
    moment.shared.cancelled connId = true ∨ stageOf connId moment.history = some .gone
  unspawned : moment.shared.spawned connId = false → stageOf connId moment.history = none
  holds : moment.history.any (sweeps connId) = false →
    Holds (moment.history.any (subscribes connId)) (moment.history.any (clears connId))
      (moment.shared.hub.view connId) (stageOf connId moment.history)
  cleared : Cleared connId moment.history → (moment.shared.hub.view connId).IsEmpty
  exited : stageOf connId moment.history = some .gone → moment.history.any (clears connId) = true

section Steps

variable {moment : SessionMoment} {shared : SessionState}

/-- A step of another task says nothing about what the actor does. -/
theorem foreign_append (history : List SessionLabel) (notOwn : ∀ event, label ≠ .perform (.actor connId) event) :
    stageOf connId (history ++ [label]) = stageOf connId history ∧
      (history ++ [label]).any (subscribes connId) = history.any (subscribes connId) ∧
      (history ++ [label]).any (clears connId) = history.any (clears connId) := by
  have quiet : subscribes connId label = false ∧ clears connId label = false := by
    cases label with
    | start _ | finish _ _ | environment _ => exact ⟨rfl, rfl⟩
    | perform task event =>
      cases task with
      | pump _ | broadcast _ => exact ⟨rfl, rfl⟩
      | actor other =>
        have apart : other ≠ connId := fun same => notOwn event (by rw [same])
        obtain ⟨call, answer⟩ := event
        cases call with
        | hub call => cases call <;> simp [subscribes, clears, apart]
        | _ => exact ⟨rfl, rfl⟩
  have follows : (Stage.inSession connId).follow (.actor connId) (stageOf connId history) label =
      stageOf connId history := by
    cases label with
    | start _ | finish _ _ | environment _ => rfl
    | perform task event => exact if_neg fun same => notOwn event (by rw [same])
  refine ⟨stageOf_append.trans follows, ?_, ?_⟩
  · simp [quiet.1]
  · simp [quiet.2]

/-- A step that does not concern the connection. -/
theorem ConnOk.foreign (ok : ConnOk connId moment)
    (notOwn : ∀ event, label ≠ .perform (.actor connId) event) (notSwept : sweeps connId label = false)
    (sameView : shared.hub.view connId = moment.shared.hub.view connId)
    (sameCancelled : shared.cancelled connId = moment.shared.cancelled connId)
    (spawned : shared.spawned connId = false → moment.shared.spawned connId = false) :
    ConnOk connId (moment.push shared label) := by
  obtain ⟨sameStage, sameSubscribed, sameCleared⟩ := foreign_append moment.history notOwn
  have sameSwept : (moment.history ++ [label]).any (sweeps connId) = moment.history.any (sweeps connId) := by
    simp [notSwept]
  constructor
  · rw [Moment.push_history, Moment.push_shared, sameSwept, sameView]
    exact ok.swept
  · rw [Moment.push_history, Moment.push_shared, sameStage, sameView, sameCancelled]
    exact ok.closed
  · rw [Moment.push_history, Moment.push_shared, sameStage]
    exact fun unspawned => ok.unspawned (spawned unspawned)
  · rw [Moment.push_history, Moment.push_shared, sameSwept, sameSubscribed, sameCleared, sameView, sameStage]
    exact ok.holds
  · rw [Moment.push_history, Moment.push_shared, Cleared, sameSubscribed, sameCleared, sameView]
    exact ok.cleared
  · rw [Moment.push_history, sameStage, sameCleared]
    exact ok.exited

/-- The task of the actor begins, and its channel is open. -/
theorem ConnOk.begins (ok : ConnOk connId moment) (unbegun : stageOf connId moment.history = none)
    (spawned : moment.shared.spawned connId = true) (runs : moment.shared.cancelled connId = false) :
    ConnOk connId (moment.push moment.shared (.perform (.actor connId) ⟨.begins connId, ()⟩)) := by
  have isOpen : (moment.shared.hub.view connId).isClosed = false := by
    cases isClosed : (moment.shared.hub.view connId).isClosed with
    | false => rfl
    | true =>
      cases ok.closed isClosed with
      | inl cancelled => rw [runs] at cancelled; cases cancelled
      | inr gone => rw [unbegun] at gone; cases gone
  have untouched : moment.history.any (sweeps connId) = false := by
    cases swept : moment.history.any (sweeps connId) with
    | false => rfl
    | true => rw [ok.swept swept] at isOpen; cases isOpen
  have holds := ok.holds untouched
  rw [unbegun] at holds
  obtain ⟨isEmpty, unsubscribed, uncleared⟩ := holds
  have stage : stageOf connId (moment.history ++ [.perform (.actor connId) ⟨.begins connId, ()⟩]) =
      some (.idle none) := by
    rw [stageOf_append, unbegun]
    simp [Automaton.follow, Stage.inSession]
  constructor
  · simp [sweeps, untouched]
  · rw [Moment.push_shared, isOpen]
    rintro ⟨⟩
  · rw [Moment.push_shared, spawned]
    rintro ⟨⟩
  · intro _
    rw [Moment.push_history, stage, Moment.push_shared]
    have noEntries := isEmpty.entries
    refine ⟨⟨fun id topic => ?_, ?_, ?_⟩, fun _ none => (by cases none), ?_, ?_⟩
    · simpa [noEntries] using (View.isEmpty_iff.mp isEmpty).2 id topic
    · simp [noEntries]
    · rintro _ _ ⟨⟩
    · simp [noEntries, subscribes, unsubscribed]
    · simp [clears, uncleared]
  · exact fun _ => isEmpty
  · rw [Moment.push_history, stage]
    rintro ⟨⟩

/-- The channel of an actor that makes a call is open. -/
theorem ConnOk.isOpen (ok : ConnOk connId moment) {stage : Stage} {call : HubCall}
    (isStage : stageOf connId moment.history = some stage) (allows : stage.Allows connId call)
    (runs : moment.shared.cancelled connId = false) :
    (moment.shared.hub.view connId).isClosed = false ∧ moment.history.any (sweeps connId) = false := by
  have isOpen : (moment.shared.hub.view connId).isClosed = false := by
    cases isClosed : (moment.shared.hub.view connId).isClosed with
    | false => rfl
    | true =>
      cases ok.closed isClosed with
      | inl cancelled => rw [runs] at cancelled; cases cancelled
      | inr gone =>
        rw [isStage] at gone
        cases gone
        exact allows.elim
  refine ⟨isOpen, ?_⟩
  cases swept : moment.history.any (sweeps connId) with
  | false => rfl
  | true => rw [ok.swept swept] at isOpen; cases isOpen

/-- A call of the actor. -/
theorem ConnOk.perform (ok : ConnOk connId moment) {stage : Stage} {call : HubCall}
    {answer : call.Answer} {hub : SubscriptionHub}
    (isStage : stageOf connId moment.history = some stage) (allows : stage.Allows connId call)
    (runs : moment.shared.cancelled connId = false)
    (effect : hubMeaning call moment.shared.hub answer hub) :
    ConnOk connId (moment.push { moment.shared with hub := hub }
      (.perform (.actor connId) ⟨.hub call, answer⟩)) := by
  obtain ⟨isOpen, untouched⟩ := ok.isOpen isStage allows runs
  have before := ok.holds untouched
  rw [isStage] at before
  have after := before.perform allows (viewMeaning_of_owner effect allows.owner)
  let label : SessionLabel := .perform (.actor connId) ⟨.hub call, answer⟩
  have next : stageOf connId (moment.history ++ [label]) = some (stage.next ⟨call, answer⟩) := by
    rw [stageOf_append, isStage]
    simp [label, Automaton.follow, Stage.inSession]
  have holds : Holds
      ((moment.history ++ [label]).any (subscribes connId))
      ((moment.history ++ [label]).any (clears connId))
      (hub.view connId) (some (stage.next ⟨call, answer⟩)) := by
    simpa [label] using after
  constructor
  · intro swept
    rw [Moment.push_history, List.any_append, untouched] at swept
    simp [sweeps] at swept
  · intro isClosed
    right
    rw [Moment.push_history, next]
    by_cases closes : call = .closeChannel connId
    · -- only an actor that has left closes its channel
      subst closes
      cases stage with
      | left => rfl
      | idle _ | gone => exact allows.elim
      | adding _ _ | removing _ _ | leaving _ => cases allows
    · rw [Moment.push_shared, isClosed_perform effect closes, isOpen] at isClosed
      cases isClosed
  · intro unspawned
    have unbegun := ok.unspawned unspawned
    rw [isStage] at unbegun
    cases unbegun
  · intro _
    rw [Moment.push_history, next]
    exact holds
  · intro cleared
    apply holds.isEmpty_iff.mpr
    exact cleared
  · rw [Moment.push_history, next]
    intro gone
    rw [gone] at holds
    exact holds.2

/-- A broadcast has found the channel closed, and deregisters a subscription. -/
theorem ConnOk.sweep (ok : ConnOk connId moment) {index : Nat} {call : HubCall} {answer : call.Answer}
    {hub : SubscriptionHub} (isClosed : (moment.shared.hub.view connId).isClosed = true)
    (sweep : (∃ id, call = .untrackSubscription connId id) ∨
      ∃ id topic, call = .removeFromTopic connId id topic)
    (effect : hubMeaning call moment.shared.hub answer hub) :
    ConnOk connId (moment.push { moment.shared with hub := hub }
      (.perform (.broadcast index) ⟨.hub call, answer⟩)) := by
  have notOwn : ∀ event, (.perform (.broadcast index) ⟨.hub call, answer⟩ : SessionLabel) ≠
      .perform (.actor connId) event := fun _ same => by cases same
  obtain ⟨sameStage, sameSubscribed, sameCleared⟩ := foreign_append moment.history notOwn
  have notClose : call ≠ .closeChannel connId := by
    rintro rfl
    rcases sweep with ⟨_, same⟩ | ⟨_, _, same⟩ <;> cases same
  -- only the actor closes its channel, and nothing opens it again
  have stillClosed := (isClosed_perform effect notClose).trans isClosed
  have swept : sweeps connId (.perform (.broadcast index) ⟨.hub call, answer⟩) = true := by
    rcases sweep with ⟨id, rfl⟩ | ⟨id, topic, rfl⟩ <;> simp [sweeps]
  constructor
  · exact fun _ => stillClosed
  · rw [Moment.push_history, sameStage]
    exact fun _ => ok.closed isClosed
  · rw [Moment.push_history, sameStage]
    exact ok.unspawned
  · intro untouched
    simp [swept] at untouched
  · rw [Moment.push_history, Cleared, sameSubscribed, sameCleared]
    intro cleared
    have isEmpty := ok.cleared cleared
    rcases sweep with ⟨id, rfl⟩ | ⟨id, topic, rfl⟩
    · have onView := viewMeaning_of_owner effect (rfl : HubCall.owner (.untrackSubscription connId id) = _)
      show (hub.view connId).IsEmpty
      rw [(Prod.mk.inj onView).2]
      exact isEmpty.untrack id
    · have onView := viewMeaning_of_owner effect (rfl : HubCall.owner (.removeFromTopic connId id topic) = _)
      show (hub.view connId).IsEmpty
      rw [show hub.view connId = _ from onView]
      exact isEmpty.remove id topic
  · rw [Moment.push_history, sameStage, sameCleared]
    exact ok.exited

/-- A task that is cancelled drops its channel, and leaves the rest as it is. -/
theorem ConnOk.cancel (ok : ConnOk connId moment) :
    ConnOk connId (moment.push (moment.shared.cancel connId) (.environment (.cancel connId))) := by
  have notOwn : ∀ event, (.environment (.cancel connId) : SessionLabel) ≠ .perform (.actor connId) event :=
    fun _ same => by cases same
  obtain ⟨sameStage, sameSubscribed, sameCleared⟩ := foreign_append moment.history notOwn
  have sameSwept : (moment.history ++ [(.environment (.cancel connId) : SessionLabel)]).any (sweeps connId) =
      moment.history.any (sweeps connId) := by simp [sweeps]
  have isView : (moment.shared.cancel connId).hub.view connId =
      { moment.shared.hub.view connId with isClosed := true } := view_setChannel_self _
  constructor
  · rw [Moment.push_shared, isView]
    exact fun _ => rfl
  · rw [Moment.push_shared]
    exact fun _ => .inl (by simp [SessionState.cancel])
  · rw [Moment.push_history, sameStage]
    exact ok.unspawned
  · rw [Moment.push_history, Moment.push_shared, sameSwept, sameSubscribed, sameCleared, sameStage, isView]
    exact fun untouched => (ok.holds untouched).congr rfl rfl
  · rw [Moment.push_history, Moment.push_shared, Cleared, sameSubscribed, sameCleared, isView]
    exact fun cleared => ⟨(ok.cleared cleared).entries, (ok.cleared cleared).registrations⟩
  · rw [Moment.push_history, sameStage, sameCleared]
    exact ok.exited

end Steps

/-! ### The pump -/

/-- The handler leaves the hub to the actor. -/
def IsPumpCall (call : SessionCall) : Prop := ∀ hubCall, call ≠ .hub hubCall

theorem pump_only (connId : ConnectionId) (rounds : Nat) :
    (WebSocketHandler.pump connId rounds).Only IsPumpCall := by
  induction rounds with
  | zero => exact Prog.Only.ret ()
  | succ rounds inductionHypothesis =>
    refine ⟨fun _ same => (by cases same), fun event _ => ?_⟩
    -- each round reads one side and writes what it has read to the other
    cases event with
    | actorExited => exact Prog.Only.ret ()
    | downstream read =>
      cases read with
      | error error => exact Prog.Only.ret ()
      | ok bytes =>
        cases bytes with
        | none => exact Prog.Only.ret ()
        | some bytes =>
          by_cases isEnd : bytes = []
          · subst isEnd
            exact Prog.Only.ret ()
          · simp only [Prog.bind, isEnd, if_false]
            refine ⟨fun _ same => (by cases same), fun written _ => ?_⟩
            cases written with
            | true => exact inductionHypothesis
            | false => exact Prog.Only.ret ()
    | duplex read =>
      cases read with
      | error error => exact Prog.Only.ret ()
      | ok bytes =>
        by_cases isEnd : bytes = []
        · subst isEnd
          exact Prog.Only.ret ()
        · simp only [Prog.bind, isEnd, if_false]
          refine ⟨fun _ same => (by cases same), fun written _ => ?_⟩
          cases written with
          | ok _ => exact inductionHypothesis
          | error _ => exact Prog.Only.ret ()

theorem handle_only (sessions : Sessions) (connId : ConnectionId) :
    (sessions.program (.pump connId)).Only IsPumpCall := by
  have handles : (WebSocketHandler.handle sessions.acceptKey connId (sessions.headers connId)
      (sessions.pumpRounds connId)).Only IsPumpCall := by
    simp only [WebSocketHandler.handle]
    split
    · refine ⟨fun _ same => (by cases same), fun written _ => ?_⟩
      cases written with
      | error _ => exact Prog.Only.ret _
      | ok _ =>
        refine ⟨fun _ same => (by cases same), fun sent _ => ?_⟩
        cases sent with
        | error _ => exact Prog.Only.ret _
        | ok _ => exact Prog.Only.ret _
    · refine ⟨fun _ same => (by cases same), fun written _ => ?_⟩
      cases written with
      | error _ => exact Prog.Only.ret _
      | ok _ =>
        refine ⟨fun _ same => (by cases same), fun _ _ => ?_⟩
        refine (pump_only connId _).bind fun _ => ?_
        exact ⟨fun _ same => (by cases same), fun _ _ => Prog.Only.ret _⟩
  exact handles.bind fun _ => Prog.Only.ret _

/-- What is known of a gateway in the course of a run. -/
structure SessionOk (sessions : Sessions) (moment : SessionMoment) : Prop where
  /-- A broadcast gives up only connections that are gone. -/
  dead : ∀ index, ∀ connId ∈ (sessions.tour index moment.history).dead,
    (moment.shared.hub.view connId).isClosed = true
  conn : ∀ connId, ConnOk connId moment

section Run

variable {moment : SessionMoment} {shared : SessionState}

/-- A step of no broadcast, which opens no channel. -/
theorem dead_foreign (ok : sessions.SessionOk moment)
    (notBroadcast : ∀ index event, label ≠ .perform (.broadcast index) event)
    (closed : ∀ connId, (moment.shared.hub.view connId).isClosed = true →
      (shared.hub.view connId).isClosed = true) :
    ∀ index, ∀ connId ∈ (sessions.tour index (moment.history ++ [label])).dead,
      (shared.hub.view connId).isClosed = true := by
  intro index connId member
  rw [tour_append] at member
  apply closed
  apply ok.dead index connId
  cases label with
  | start _ | finish _ _ | environment _ => exact member
  | perform task event =>
    have different : task ≠ .broadcast index := fun same => notBroadcast index event (by rw [same])
    simpa [Automaton.follow, different] using member

/-- A step that leaves the hub and the tasks of the actors alone. -/
theorem SessionOk.quiet (ok : sessions.SessionOk moment)
    (notActor : ∀ connId event, label ≠ .perform (.actor connId) event)
    (notBroadcast : ∀ index event, label ≠ .perform (.broadcast index) event)
    (sameHub : shared.hub = moment.shared.hub) (sameCancelled : shared.cancelled = moment.shared.cancelled)
    (spawned : ∀ connId, shared.spawned connId = false → moment.shared.spawned connId = false) :
    sessions.SessionOk (moment.push shared label) where
  dead := by
    apply dead_foreign ok notBroadcast
    rw [Moment.push_shared, sameHub]
    exact fun _ closed => closed
  conn := by
    intro connId
    have notSwept : sweeps connId label = false := by
      cases label with
      | start _ | finish _ _ | environment _ => rfl
      | perform task event =>
        cases task with
        | pump _ | actor _ => rfl
        | broadcast index => exact absurd rfl (notBroadcast index event)
    apply (ok.conn connId).foreign (notActor connId) notSwept
    · rw [sameHub]
    · rw [sameCancelled]
    · exact spawned connId

theorem SessionOk.cancel (ok : sessions.SessionOk moment) (connId : ConnectionId) :
    sessions.SessionOk (moment.push (moment.shared.cancel connId) (.environment (.cancel connId))) where
  dead := by
    apply dead_foreign ok (fun _ _ same => by cases same)
    intro other closed
    by_cases own : other = connId
    · subst own
      rw [Moment.push_shared, SessionState.cancel, view_setChannel_self]
    · rw [Moment.push_shared, SessionState.cancel, view_setChannel_of_ne _ (Ne.symm own)]
      exact closed
  conn := by
    intro other
    by_cases own : other = connId
    · subst own
      exact (ok.conn other).cancel
    · apply (ok.conn other).foreign (fun _ same => by cases same) rfl
      · rw [SessionState.cancel, view_setChannel_of_ne _ (Ne.symm own)]
      · simp [SessionState.cancel, own]
      · exact id

/-- A call of an actor. -/
theorem SessionOk.actor (ok : sessions.SessionOk moment) {stage : Stage} {call : HubCall}
    {answer : call.Answer} {hub : SubscriptionHub}
    (isStage : stageOf connId moment.history = some stage) (allows : stage.Allows connId call)
    (runs : moment.shared.cancelled connId = false)
    (effect : hubMeaning call moment.shared.hub answer hub) :
    sessions.SessionOk (moment.push { moment.shared with hub := hub }
      (.perform (.actor connId) ⟨.hub call, answer⟩)) where
  dead := by
    apply dead_foreign ok (fun _ _ same => by cases same)
    intro other closed
    -- the actor runs, so its channel is open, and it closes no other
    have notClose : call ≠ .closeChannel other := by
      rintro rfl
      obtain rfl : other = connId := by simpa [HubCall.owner] using allows.owner
      have isOpen := ((ok.conn other).isOpen isStage allows runs).1
      rw [closed] at isOpen
      cases isOpen
    exact (isClosed_perform effect notClose).trans closed
  conn := by
    intro other
    by_cases own : other = connId
    · subst own
      exact (ok.conn other).perform isStage allows runs effect
    · apply (ok.conn other).foreign _ rfl
      · apply view_of_owner_ne effect
        rw [allows.owner]
        exact fun same => own (Option.some.inj same).symm
      · rfl
      · exact fun unspawned => unspawned
      · intro event same
        cases same
        exact own rfl

/-- A call of a broadcast. -/
theorem SessionOk.broadcast (ok : sessions.SessionOk moment) {index : Nat} {call : HubCall}
    {answer : call.Answer} {hub : SubscriptionHub}
    (allows : (sessions.tour index moment.history).Allows (sessions.deployment.topic index)
      (sessions.deployment.payload index) call)
    (effect : hubMeaning call moment.shared.hub answer hub) :
    sessions.SessionOk (moment.push { moment.shared with hub := hub }
      (.perform (.broadcast index) ⟨.hub call, answer⟩)) where
  dead := by
    have notClose : ∀ connId, call ≠ .closeChannel connId := by
      rintro connId rfl
      exact allows.elim
    intro other connId member
    rw [Moment.push_history, tour_append] at member
    show (hub.view connId).isClosed = true
    rw [isClosed_perform effect (notClose connId)]
    by_cases own : other = index
    · subst own
      simp only [Automaton.follow, if_true, Tour.inSession, Tour.next] at member
      cases call with
      | trySend receiver message =>
        simp only at member
        split at member
        · rename_i closed
          cases List.mem_append.mp member with
          | inl earlier => exact ok.dead other connId earlier
          | inr last =>
            obtain rfl : connId = receiver := by simpa using last
            have isAnswer : (moment.shared.hub.trySend connId message).1 = .closed :=
              (Prod.mk.inj (show (answer, hub) = _ from effect)).1.symm.trans closed
            exact isClosed_of_trySend isAnswer
        · exact ok.dead other connId member
      | _ => exact ok.dead other connId member
    · have different : (SessionTask.broadcast index) ≠ .broadcast other := by simpa using Ne.symm own
      simp only [Automaton.follow, different, if_false] at member
      exact ok.dead other connId member
  conn := by
    intro connId
    have notOwn : ∀ event, (.perform (.broadcast index) ⟨.hub call, answer⟩ : SessionLabel) ≠
        .perform (.actor connId) event := fun _ same => by cases same
    by_cases own : call.owner = some connId
    · -- the only calls for a connection are those that deregister one which is gone
      cases call with
      | untrackSubscription other id =>
        cases own
        exact (ok.conn connId).sweep (ok.dead index connId allows) (.inl ⟨id, rfl⟩) effect
      | removeFromTopic other id topic =>
        cases own
        exact (ok.conn connId).sweep (ok.dead index connId allows) (.inr ⟨id, topic, rfl⟩) effect
      | subscribers _ | trySend _ _ => cases own
      | _ => exact allows.elim
    · have notSwept : sweeps connId (.perform (.broadcast index) ⟨.hub call, answer⟩) = false := by
        cases call with
        | untrackSubscription other id | removeFromTopic other _ _ =>
          have different : other ≠ connId := fun same => own (congrArg some same)
          simp [sweeps, different]
        | _ => rfl
      exact (ok.conn connId).foreign notOwn notSwept (view_of_owner_ne effect own) rfl fun same => same

end Run

theorem sessionOk {config : SessionConfig} (reaches : sessions.system.Reaches sessions.start config) :
    sessions.SessionOk config.moment := by
  induction reaches with
  | initial =>
    refine ⟨fun index connId member => ?_, fun connId => ?_⟩
    · cases member
    · have isEmpty : (sessions.start.hub.view connId).IsEmpty := View.isEmpty_blank
      constructor
      · rintro ⟨⟩
      · rintro ⟨⟩
      · exact fun _ => rfl
      · exact fun _ => ⟨isEmpty, rfl, rfl⟩
      · exact fun _ => isEmpty
      · rintro ⟨⟩
  | @step config config' label earlier step inductionHypothesis =>
    cases step with
    | start _ | finish _ =>
      exact inductionHypothesis.quiet (fun _ _ same => by cases same) (fun _ _ same => by cases same)
        rfl rfl fun _ same => same
    | @environment event shared effect =>
      obtain ⟨connId⟩ := event
      obtain ⟨-, -, rfl⟩ := effect
      exact inductionHypothesis.cancel connId
    | @perform task call next answer shared running effect =>
      obtain ⟨runs, effect⟩ := effect
      cases task with
      | pump connId =>
        -- a pump touches neither the hub nor what is cancelled
        have pumps := (earlier.obeys (handle_only sessions connId) (fun _ => trivial) running).1
        have hub : shared.hub = config.moment.shared.hub ∧
            shared.cancelled = config.moment.shared.cancelled ∧
            ∀ other, shared.spawned other = false → config.moment.shared.spawned other = false := by
          cases call with
          | hub hubCall => exact absurd rfl (pumps hubCall)
          | begins _ | wait _ | writeAll _ _ =>
            rw [show shared = _ from effect.2]
            exact ⟨rfl, rfl, fun _ same => same⟩
          | writeResponseHeader _ _ | writeResponseBody _ _ _ | abort _ =>
            rw [show shared = _ from effect]
            exact ⟨rfl, rfl, fun _ same => same⟩
          | spawn own =>
            rw [show shared = _ from effect]
            refine ⟨rfl, rfl, fun other unspawned => ?_⟩
            by_cases same : other = own
            · simp [same] at unspawned
            · simpa [same] using unspawned
        exact inductionHypothesis.quiet (fun _ _ same => by cases same) (fun _ _ same => by cases same)
          hub.1 hub.2.1 hub.2.2
      | actor connId =>
        have allowed := (earlier.obeys (actor_obeys sessions connId) (fun _ => trivial) running).1
        have runs := runs connId rfl
        change (Stage.inSession connId).allowed (stageOf connId config.moment.history) call at allowed
        cases isStage : stageOf connId config.moment.history with
        | none =>
          -- the actor has not begun, and that is all it may do
          rw [isStage] at allowed
          obtain rfl : call = _ := allowed
          obtain ⟨spawned, rfl⟩ := effect
          refine ⟨?_, fun other => ?_⟩
          · exact dead_foreign inductionHypothesis (fun _ _ same => by cases same) fun _ closed => closed
          · by_cases own : other = connId
            · subst own
              exact (inductionHypothesis.conn other).begins isStage spawned runs
            · apply (inductionHypothesis.conn other).foreign _ rfl rfl rfl fun same => same
              intro event same
              cases same
              exact own rfl
        | some stage =>
          rw [isStage] at allowed
          cases call with
          | hub hubCall =>
            obtain ⟨hub, effect, rfl⟩ := effect
            exact inductionHypothesis.actor isStage allowed runs effect
          | _ => exact allowed.elim
      | broadcast index =>
        have allowed := (earlier.obeys (broadcast_obeys sessions index) (fun _ => trivial) running).1
        cases call with
        | hub hubCall =>
          obtain ⟨hub, effect, rfl⟩ := effect
          exact inductionHypothesis.broadcast allowed effect
        | _ => exact allowed.elim

/-- The handler has returned, and its actor, if it was spawned, has ended or was cancelled. -/
def Settled (connId : ConnectionId) (config : SessionConfig) : Prop :=
  (∃ outcome, config.threads (.pump connId) = .finished outcome) ∧
    (config.moment.shared.spawned connId = false ∨
      (∃ outcome, config.threads (.actor connId) = .finished outcome) ∨
      config.moment.shared.cancelled connId = true)

/-- An actor that ends by itself has deregistered its connection. -/
theorem cleared_of_not_cancelled {config : SessionConfig} (reaches : sessions.system.Reaches sessions.start config)
    (settled : Settled connId config) (ends : config.moment.shared.cancelled connId = false) :
    Cleared connId config.moment.history := by
  have ok := (sessionOk reaches).conn connId
  rcases settled.2 with unspawned | ⟨outcome, finished⟩ | cancelled
  · have unbegun := ok.unspawned unspawned
    cases swept : config.moment.history.any (sweeps connId) with
    | false =>
      have holds := ok.holds swept
      rw [unbegun] at holds
      exact .inl holds.2.1
    | true =>
      cases ok.closed (ok.swept swept) with
      | inl cancelled => rw [ends] at cancelled; cases cancelled
      | inr gone => rw [unbegun] at gone; cases gone
  · exact .inr (ok.exited (reaches.obeyed (actor_obeys sessions connId) (fun _ => trivial) finished))
  · rw [ends] at cancelled
    cases cancelled

end Sessions

/-- A session that is over leaves nothing in the hub, unless its actor was cancelled between its
    first registration and the end of its clean-up.  If it was, only a broadcast takes out what it has
    left. -/
theorem session_leaves_nothing_iff (sessions : Sessions) (connId : ConnectionId) (config : SessionConfig)
    (reaches : sessions.system.Reaches sessions.start config) (settled : Sessions.Settled connId config) :
    ((config.moment.shared.cancelled connId = true → Cleared connId config.moment.history) →
      (config.moment.shared.hub.view connId).IsEmpty) ∧
    (config.moment.history.any (sweeps connId) = false →
      ((config.moment.shared.hub.view connId).IsEmpty ↔
        (config.moment.shared.cancelled connId = true → Cleared connId config.moment.history))) := by
  have ok := (Sessions.sessionOk reaches).conn connId
  have enough : (config.moment.shared.cancelled connId = true → Cleared connId config.moment.history) →
      (config.moment.shared.hub.view connId).IsEmpty := by
    intro condition
    apply ok.cleared
    cases cancelled : config.moment.shared.cancelled connId with
    | true => exact condition cancelled
    | false => exact Sessions.cleared_of_not_cancelled reaches settled cancelled
  refine ⟨enough, fun untouched => ⟨fun isEmpty _ => ?_, enough⟩⟩
  exact (ok.holds untouched).isEmpty_iff.mp isEmpty

/-! ## A client that hangs up -/

/-- What the client does: it sends a text, or the pump wakes up. -/
inductive ClientMove where
  | text (content : String)
  | wakes (event : PumpEvent)

def ClientMove.content : ClientMove → String
  | .text content => content
  | .wakes _ => ""

/-- Nothing gets lost, and the pipe is not read. -/
def pumpAnswer (connId : ConnectionId) (state : SessionState) : ClientMove → Option PumpEvent
  | .wakes (.downstream read) => some (.downstream read)
  | .wakes .actorExited => if state.isGone connId then some .actorExited else none
  | _ => none

/-- Whether the task is to be scheduled. -/
def isRunning (task : SessionTask) (state : SessionState) : Bool :=
  match task with
  | .actor connId => !state.cancelled connId
  | _ => true

def sessionScheduler (sessions : Sessions) : Scheduler sessions.system ClientMove where
  answer := fun move task call state =>
    if isRunning task state then
      match call with
      | .hub call =>
        ((textScheduler sessions.deployment).answer move.content (.actor "") call state.hub).map
          fun result => (result.1, { state with hub := result.2 })
      | .begins connId => if state.spawned connId then some ((), state) else none
      | .writeResponseHeader _ _ => some (.ok (), state)
      | .writeResponseBody _ _ _ => some (.ok (), state)
      | .spawn connId => some ((), { state with spawned := Function.update state.spawned connId true })
      | .wait connId => (pumpAnswer connId state move).map fun event => (event, state)
      | .writeAll _ _ => some (true, state)
      | .abort connId => some ((), { state with aborted := Function.update state.aborted connId true })
    else none
  event := fun
    | .cancel connId, state =>
      if state.aborted connId && !state.isGone connId then some (state.cancel connId) else none
  answer_sound := by
    intro move task call before result answered
    split at answered
    · rename_i running
      refine ⟨fun connId isActor => ?_, ?_⟩
      · subst isActor
        simpa [isRunning] using running
      cases call with
      | hub call =>
        obtain ⟨inner, innerAnswered, rfl⟩ := Option.map_eq_some_iff.mp answered
        exact ⟨inner.2, (textScheduler sessions.deployment).answer_sound _ (.actor "") call _ inner
          innerAnswered, rfl⟩
      | begins connId =>
        simp only at answered
        split at answered
        · rename_i spawned
          cases answered
          exact ⟨spawned, rfl⟩
        · cases answered
      | wait connId =>
        obtain ⟨event, woken, rfl⟩ := Option.map_eq_some_iff.mp answered
        refine ⟨?_, rfl⟩
        cases event with
        | downstream read => trivial
        | duplex read =>
          simp only [pumpAnswer] at woken
          split at woken
          · cases woken
          · split at woken <;> cases woken
          · cases woken
        | actorExited =>
          -- a pump hears of the end of an actor that is gone only
          simp only [pumpAnswer] at woken
          split at woken
          · cases woken
          · split at woken
            · rename_i gone
              exact gone
            · cases woken
          · cases woken
      | writeAll _ _ =>
        cases answered
        exact ⟨fun failed => (by cases failed), rfl⟩
      | writeResponseHeader _ _ | writeResponseBody _ _ _ | spawn _ | abort _ =>
        cases answered
        rfl
    · cases answered
  event_sound := by
    rintro ⟨connId⟩ before after happened
    simp only at happened
    split at happened
    · rename_i allowed
      cases happened
      rw [Bool.and_eq_true, Bool.not_eq_true'] at allowed
      exact ⟨allowed.1, allowed.2, rfl⟩
    · cases happened

/-- One client, with the key `k`. -/
def oneSession : Sessions where
  deployment := orderFeed
  acceptKey _ := "k"
  headers _ := [("sec-websocket-key", [107])]
  pumpRounds _ := 3

/-- The session starts, and the client subscribes. -/
def opensAndSubscribes : List (Move SessionTask SessionEvent ClientMove) :=
  ([.text "", .text "", .text ""].map (.thread (.pump "a"))) ++
    (["", "", "init", "subscribe", "", "", ""].map fun text => .thread (.actor "a") (.text text))

/-- The client closes its stream, so the pump stops and its actor is cancelled. -/
def hangsUp : List (Move SessionTask SessionEvent ClientMove) :=
  [.thread (.pump "a") (.wakes (.downstream (.ok none))), .thread (.pump "a") (.text ""),
    .thread (.pump "a") (.text ""), .environment (.cancel "a")]

/-- The client sends something else than a message, so the actor stops by itself. -/
def saysGoodbye : List (Move SessionTask SessionEvent ClientMove) :=
  (["leave", "", "", "", "", ""].map fun text => .thread (.actor "a") (.text text)) ++
    [.thread (.pump "a") (.wakes .actorExited), .thread (.pump "a") (.text ""),
      .thread (.pump "a") (.text "")]

theorem session_leaves_nothing_goodbye : ∃ config,
    oneSession.system.Reaches oneSession.start config ∧ Sessions.Settled "a" config ∧
      config.moment.history.any (subscribes "a") = true ∧
      (config.moment.shared.hub.view "a").IsEmpty := by
  have run : ∃ config, oneSession.system.Reaches oneSession.start config ∧ Sessions.Settled "a" config ∧
      config.moment.history.any (subscribes "a") = true ∧
      config.moment.shared.cancelled "a" = false :=
    ⟨_, (sessionScheduler oneSession).run_reaches (opensAndSubscribes ++ saysGoodbye) .initial rfl,
      ⟨⟨_, rfl⟩, .inr (.inl ⟨_, rfl⟩)⟩, rfl, rfl⟩
  obtain ⟨config, reaches, settled, subscribed, ends⟩ := run
  refine ⟨config, reaches, settled, subscribed, ?_⟩
  apply (session_leaves_nothing_iff oneSession "a" config reaches settled).1
  rw [ends]
  rintro ⟨⟩

/-- A client that closes its stream stays subscribed. -/
theorem hang_up_leaves_subscription : ∃ config,
    oneSession.system.Reaches oneSession.start config ∧ Sessions.Settled "a" config ∧
      (config.moment.shared.hub.view "a").entries = some [("1", "spectra.events.orderupdates")] ∧
      (config.moment.shared.hub.view "a").registrations "spectra.events.orderupdates" =
        [⟨"a", "1", "spectra.events.orderupdates", "orderUpdates"⟩] :=
  ⟨_, (sessionScheduler oneSession).run_reaches (opensAndSubscribes ++ hangsUp) .initial rfl,
    ⟨⟨_, rfl⟩, .inr (.inr rfl)⟩, rfl, rfl⟩

end SpectraGQL.Subscriptions
