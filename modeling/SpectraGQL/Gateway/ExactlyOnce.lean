import SpectraGQL.Gateway.CommandProtocol
import SpectraGQL.Gateway.Ownership

/-! # Commands are published once

Any number of commands with one key are served at once, interleaved call by call, and the
broker takes or refuses each as it likes.  As long as the engine keeps its records, the key is
in one of three situations: free, held by one command, or completed with the receipt of the
one command that was published.  `publishes_once` reads off what this means for the clients.
-/

namespace SpectraGQL.Gateway

open Interaction SpectraGQL.Core SpectraGQL.Http SpectraGQL.Protocol SpectraGQL.Interceptors
open SpectraGQL.Telemetry SpectraGQL.Idempotency

/-- The request is rejected by the pipeline or matches an enabled Mode B route. -/
def Visit.EndsAtEdge (proxy : CompositeServiceProxy) (visit : Visit) : Prop :=
  Gateway.EndsAtEdge proxy visit.dynamic (visit.exchange proxy)

/-- The receipt that the request gets if its command is published. -/
def Visit.receipt (proxy : CompositeServiceProxy) (visit : Visit) : Option String :=
  receiptOf proxy visit.dynamic (visit.exchange proxy)

section Commands

variable {ι : Type}

/-- The request whose command the broker has taken, if it carries the key. -/
def published (proxy : CompositeServiceProxy) (visits : ι → Visit) (key : String) :
    GatewayLabel ι String → Option ι
  | .perform thread ⟨.dispatchRequestInfo _, taken⟩ =>
    match (taken : Bool) with
    | true => if (visits thread).key proxy = some key then some thread else none
    | false => none
  | _ => none

/-- The requests with a key whose command was published, one for each success. -/
def publishers (proxy : CompositeServiceProxy) (visits : ι → Visit) (key : String)
    (history : List (GatewayLabel ι String)) : List ι :=
  history.filterMap (published proxy visits key)

@[simp] theorem publishers_append (proxy : CompositeServiceProxy) (visits : ι → Visit) (key : String)
    (history : List (GatewayLabel ι String)) (label : GatewayLabel ι String) :
    publishers proxy visits key (history ++ [label]) =
      publishers proxy visits key history ++ (published proxy visits key label).toList := by
  cases found : published proxy visits key label <;> simp [publishers, found]

variable [DecidableEq ι]

/-- How far a command has come. -/
def commandPhase (thread : ι) (history : List (GatewayLabel ι String)) : CommandPhase :=
  (commandProtocol "" ⟨0, 0⟩ none).phaseOf .unclaimed thread history

@[simp] theorem commandPhase_append (thread : ι) (history : List (GatewayLabel ι String))
    (label : GatewayLabel ι String) :
    commandPhase thread (history ++ [label]) =
      (commandProtocol "" ⟨0, 0⟩ none).follow thread (commandPhase thread history) label :=
  Automaton.phaseOf_append ..

variable (backend : IdempotencyBackend) (proxy : CompositeServiceProxy) (visits : ι → Visit)

/-- No record expires, none is evicted, and the operations of the engine do their work. -/
structure Durable (config : Config gatewaySignature ι String backend.State Unit)
    (label : GatewayLabel ι String)
    (config' : Config gatewaySignature ι String backend.State Unit) : Prop where
  /-- Only a remove deletes a record. -/
  kept : ∀ key record, backend.stored config.moment.shared key = some record →
    backend.stored config'.moment.shared key = none →
    ∃ thread, label = .perform thread ⟨.remove key, ()⟩
  /-- A key is given away only when it has no record. -/
  fresh : ∀ thread key hlc, GivesKey thread key hlc label →
    backend.stored config.moment.shared key = none
  inserts : ∀ thread key hlc, GivesKey thread key hlc label →
    backend.stored config'.moment.shared key ≠ none
  completes : ∀ thread key hlc statusCode headers body,
    label = .perform thread ⟨.complete key hlc statusCode headers body, ()⟩ →
    ∃ nowSecs, backend.stored config'.moment.shared key =
      some (.completed hlc statusCode (headerPairs headers) body nowSecs)
  removes : ∀ thread key, label = .perform thread ⟨.remove key, ()⟩ →
    backend.stored config'.moment.shared key = none

/-- The situations of a key. -/
inductive Situation (key : String)
    (config : Config gatewaySignature ι String backend.State Unit) : Prop where
  | free (absent : backend.stored config.moment.shared key = none)
      (idle : ∀ thread, (visits thread).key proxy = some key →
        (commandPhase thread config.moment.history).inFlight = false)
      (unpublished : publishers proxy visits key config.moment.history = [])
  | held (thread : ι) (hlc : HlcTimestamp) (nowSecs : Nat)
      (locked : backend.stored config.moment.shared key = some (.inProgress hlc nowSecs))
      (carries : (visits thread).key proxy = some key)
      (inFlight : (commandPhase thread config.moment.history).inFlight = true)
      (only : ∀ other, (visits other).key proxy = some key →
        (commandPhase other config.moment.history).inFlight = true → other = thread)
      (perhaps : publishers proxy visits key config.moment.history =
        if commandPhase thread config.moment.history = .published then [thread] else [])
  | done (thread : ι) (hlc : HlcTimestamp) (headers : List (String × String)) (body : String)
      (nowSecs : Nat)
      (completed : backend.stored config.moment.shared key =
        some (.completed hlc 200 headers body nowSecs))
      (idle : ∀ thread, (visits thread).key proxy = some key →
        (commandPhase thread config.moment.history).inFlight = false)
      (once : publishers proxy visits key config.moment.history = [thread])
      (isReceipt : (visits thread).receipt proxy = some body)

variable {backend proxy visits} {config config' : Config gatewaySignature ι String backend.State Unit}
  {label : GatewayLabel ι String} {key : String}

/-- Commands keep to their protocol in every run. -/
theorem command_allowed (reaches : (engineSystem backend proxy visits).Reaches backend.initial config)
    {thread : ι} (carries : (visits thread).key proxy = some key)
    (endsAtEdge : (visits thread).EndsAtEdge proxy) {call : GatewayCall} {answer : call.Answer}
    (step : (engineSystem backend proxy visits).Step config (.perform thread ⟨call, answer⟩) config') :
    (commandPhase thread config.moment.history).allows key (visits thread).arrival.hlc
      ((visits thread).receipt proxy) call := by
  cases step with
  | perform running effect =>
    have verdicts : ∀ {call before answer after},
        (engineSystem backend proxy visits).meaning thread call before answer after →
        (commandProtocol key (visits thread).arrival.hlc
          ((visits thread).receipt proxy)).possible ⟨call, answer⟩ :=
      fun effect => And.left effect
    have obeys := reaches.obeys (obeys_serve_command carries endsAtEdge) verdicts running
    exact obeys.1

/-- A situation stays as it is when the record and the publications do, and no command takes
    up or lays down the key. -/
theorem Situation.same (situation : Situation backend proxy visits key config)
    (stored : backend.stored config'.moment.shared key = backend.stored config.moment.shared key)
    (phases : ∀ thread, (visits thread).key proxy = some key →
      commandPhase thread config'.moment.history = commandPhase thread config.moment.history ∨
        (commandPhase thread config'.moment.history).inFlight = false ∧
          (commandPhase thread config.moment.history).inFlight = false)
    (publications : publishers proxy visits key config'.moment.history =
      publishers proxy visits key config.moment.history) :
    Situation backend proxy visits key config' := by
  -- a phase that changes does so outside the time the key is held
  have still : ∀ thread, (visits thread).key proxy = some key →
      (commandPhase thread config'.moment.history).inFlight =
        (commandPhase thread config.moment.history).inFlight := by
    intro thread carries
    rcases phases thread carries with same | ⟨now, before⟩
    · rw [same]
    · rw [now, before]
  cases situation with
  | free absent idle unpublished =>
    exact .free (stored.trans absent) (fun thread carries => (still thread carries).trans (idle thread carries))
      (publications.trans unpublished)
  | held thread hlc nowSecs locked carries inFlight only perhaps =>
    refine .held thread hlc nowSecs (stored.trans locked) carries
      ((still thread carries).trans inFlight) ?_ ?_
    · intro other alsoCarries alsoInFlight
      exact only other alsoCarries ((still other alsoCarries).symm.trans alsoInFlight)
    · rw [publications]
      rcases phases thread carries with same | ⟨-, before⟩
      · rw [same]
        exact perhaps
      · rw [inFlight] at before
        cases before
  | done thread hlc headers body nowSecs completed idle once isReceipt =>
    exact .done thread hlc headers body nowSecs (stored.trans completed)
      (fun other carries => (still other carries).trans (idle other carries))
      (publications.trans once) isReceipt

/-- What a step does to a command: nothing, unless it is the command's own and not incidental. -/
theorem commandPhase_step (step : (engineSystem backend proxy visits).Step config label config')
    (thread : ι) (incidental : ∀ call answer, label = .perform thread ⟨call, answer⟩ → Incidental call) :
    commandPhase thread config'.moment.history = commandPhase thread config.moment.history := by
  rw [step.history_eq, commandPhase_append]
  cases label with
  | start _ | finish _ _ | environment _ => rfl
  | perform other event =>
    obtain ⟨call, answer⟩ := event
    by_cases mine : other = thread
    · subst mine
      simp only [Automaton.follow, if_true]
      exact CommandPhase.next_of_incidental (incidental call answer rfl) answer _
    · simp [Automaton.follow, mine]

theorem commandPhase_own {thread : ι} {call : GatewayCall} {answer : call.Answer}
    (step : (engineSystem backend proxy visits).Step config (.perform thread ⟨call, answer⟩) config') :
    commandPhase thread config'.moment.history =
      (commandPhase thread config.moment.history).next ⟨call, answer⟩ := by
  rw [step.history_eq, commandPhase_append]
  exact if_pos rfl

theorem publishers_step (step : (engineSystem backend proxy visits).Step config label config')
    (silent : published proxy visits key label = none) :
    publishers proxy visits key config'.moment.history =
      publishers proxy visits key config.moment.history := by
  rw [step.history_eq, publishers_append, silent]
  exact List.append_nil _

/-- A command in flight is the holder of its key. -/
theorem Situation.holder (situation : Situation backend proxy visits key config) {thread : ι}
    (carries : (visits thread).key proxy = some key)
    (inFlight : (commandPhase thread config.moment.history).inFlight = true) :
    (∃ hlc nowSecs, backend.stored config.moment.shared key = some (.inProgress hlc nowSecs)) ∧
      (∀ other, (visits other).key proxy = some key →
        (commandPhase other config.moment.history).inFlight = true → other = thread) ∧
      publishers proxy visits key config.moment.history =
        if commandPhase thread config.moment.history = .published then [thread] else [] := by
  cases situation with
  | free _ idle _ =>
    rw [idle thread carries] at inFlight
    cases inFlight
  | held holder hlc nowSecs locked _ _ only perhaps =>
    obtain rfl := only thread carries inFlight
    exact ⟨⟨hlc, nowSecs, locked⟩, only, perhaps⟩
  | done _ _ _ _ _ _ idle _ _ =>
    rw [idle thread carries] at inFlight
    cases inFlight

theorem Situation.once (situation : Situation backend proxy visits key config) :
    (publishers proxy visits key config.moment.history).length ≤ 1 := by
  cases situation with
  | free _ _ unpublished => simp [unpublished]
  | held thread _ _ _ _ _ _ perhaps =>
    rw [perhaps]
    split <;> simp
  | done thread _ _ _ _ _ _ once _ => simp [once]

/-- The others with the key are idle while one command is in flight, and stay so. -/
theorem idle_of_settled (step : (engineSystem backend proxy visits).Step config label config')
    {thread : ι} (mine : label.thread? = some thread)
    (only : ∀ other, (visits other).key proxy = some key →
      (commandPhase other config.moment.history).inFlight = true → other = thread)
    (settled : (commandPhase thread config'.moment.history).inFlight = false) :
    ∀ other, (visits other).key proxy = some key →
      (commandPhase other config'.moment.history).inFlight = false := by
  intro other carries
  by_cases same : other = thread
  · rw [same]
    exact settled
  · rw [commandPhase_step step other]
    · exact Bool.eq_false_iff.mpr fun inFlight => same (only other carries inFlight)
    · rintro call answer rfl
      exact absurd (Option.some.inj mine) same

/-! ## Steps of a command -/

section Steps

variable {thread : ι} {hlc : HlcTimestamp} (carries : (visits thread).key proxy = some key)
  (situation : Situation backend proxy visits key config)

include carries situation

/-- A command that finds the key taken leaves the situation as it is. -/
theorem situation_refused {outcome : IdempotencyOutcome} (notNew : outcome ≠ .new)
    (step : (engineSystem backend proxy visits).Step config
      (.perform thread ⟨.checkOrInsert key hlc, outcome⟩) config')
    (unclaimed : commandPhase thread config.moment.history = .unclaimed)
    (stored : backend.stored config'.moment.shared key = backend.stored config.moment.shared key) :
    Situation backend proxy visits key config' := by
  refine situation.same stored (fun other _ => ?_) (publishers_step step rfl)
  by_cases same : other = thread
  · subst same
    right
    have phase := commandPhase_own step
    rw [unclaimed] at phase ⊢
    refine ⟨?_, rfl⟩
    rw [phase]
    cases outcome with
    | new => exact absurd rfl notNew
    | conflict _ | replay _ _ _ _ => rfl
  · left
    refine commandPhase_step step other ?_
    rintro call answer ⟨⟩
    exact absurd rfl same

/-- A command that is given the key holds it. -/
theorem situation_given
    (step : (engineSystem backend proxy visits).Step config
      (.perform thread ⟨.checkOrInsert key hlc, IdempotencyOutcome.new⟩) config')
    (absent : backend.stored config.moment.shared key = none) {nowSecs : Nat}
    (locked : backend.stored config'.moment.shared key = some (.inProgress hlc nowSecs)) :
    Situation backend proxy visits key config' := by
  have phase := commandPhase_own step
  have holding : commandPhase thread config'.moment.history = .holding := phase
  cases situation with
  | held _ _ _ taken _ _ _ _ => cases absent.symm.trans taken
  | done _ _ _ _ _ taken _ _ _ => cases absent.symm.trans taken
  | free _ idle unpublished =>
    refine .held thread hlc nowSecs locked carries ?_ ?_ ?_
    · rw [holding]
      rfl
    · intro other alsoCarries inFlight
      by_contra different
      rw [commandPhase_step step other, idle other alsoCarries] at inFlight
      · cases inFlight
      · rintro call answer ⟨⟩
        exact absurd rfl different
    · rw [publishers_step step rfl, unpublished, holding]
      rfl

/-- A published command completes its key with the receipt. -/
theorem situation_completed {statusCode : UInt16} {headers : HeaderMap} {body : String} {nowSecs : Nat}
    (step : (engineSystem backend proxy visits).Step config
      (.perform thread ⟨.complete key hlc statusCode headers body, ()⟩) config')
    (allowed : (commandPhase thread config.moment.history).allows key (visits thread).arrival.hlc
      ((visits thread).receipt proxy) (.complete key hlc statusCode headers body))
    (completed : backend.stored config'.moment.shared key =
      some (.completed hlc statusCode (headerPairs headers) body nowSecs)) :
    Situation backend proxy visits key config' := by
  have isPublished : commandPhase thread config.moment.history = .published ∧ statusCode = 200 ∧
      (visits thread).receipt proxy = some body := by
    cases phase : commandPhase thread config.moment.history with
    | published =>
      rw [phase] at allowed
      exact ⟨rfl, allowed.2⟩
    | unclaimed | holding | unpublished | settled =>
      rw [phase] at allowed
      exact allowed.elim
    | replaying _ _ =>
      rw [phase] at allowed
      exact allowed.elim
  obtain ⟨phase, rfl, isReceipt⟩ := isPublished
  obtain ⟨-, only, perhaps⟩ := situation.holder carries (by rw [phase]; rfl)
  rw [phase, if_pos rfl] at perhaps
  refine .done thread hlc _ body nowSecs completed ?_ ((publishers_step step rfl).trans perhaps) isReceipt
  exact idle_of_settled step rfl only (congrArg CommandPhase.inFlight (commandPhase_own step))

/-- A command that was rejected or not published gives the key back. -/
theorem situation_removed
    (step : (engineSystem backend proxy visits).Step config (.perform thread ⟨.remove key, ()⟩) config')
    (allowed : (commandPhase thread config.moment.history).allows key (visits thread).arrival.hlc
      ((visits thread).receipt proxy) (.remove key))
    (removed : backend.stored config'.moment.shared key = none) :
    Situation backend proxy visits key config' := by
  have isUnpublished : (commandPhase thread config.moment.history).inFlight = true ∧
      commandPhase thread config.moment.history ≠ .published := by
    cases phase : commandPhase thread config.moment.history with
    | holding | unpublished => exact ⟨rfl, nofun⟩
    | unclaimed | published | settled =>
      rw [phase] at allowed
      exact allowed.elim
    | replaying _ _ =>
      rw [phase] at allowed
      exact allowed.elim
  obtain ⟨inFlight, unpublished⟩ := isUnpublished
  obtain ⟨-, only, perhaps⟩ := situation.holder carries inFlight
  rw [if_neg unpublished] at perhaps
  refine .free removed ?_ ((publishers_step step rfl).trans perhaps)
  exact idle_of_settled step rfl only (congrArg CommandPhase.inFlight (commandPhase_own step))

/-- The broker takes a command or refuses it while the command holds the key. -/
theorem situation_dispatched {info : RequestInfo} {taken : Bool}
    (step : (engineSystem backend proxy visits).Step config
      (.perform thread ⟨.dispatchRequestInfo info, taken⟩) config')
    (allowed : (commandPhase thread config.moment.history).allows key (visits thread).arrival.hlc
      ((visits thread).receipt proxy) (.dispatchRequestInfo info))
    (stored : backend.stored config'.moment.shared key = backend.stored config.moment.shared key) :
    Situation backend proxy visits key config' := by
  -- only who holds the key may send
  have holding : commandPhase thread config.moment.history = .holding := by
    cases phase : commandPhase thread config.moment.history with
    | holding => rfl
    | unclaimed | published | unpublished | settled =>
      rw [phase] at allowed
      exact allowed.elim
    | replaying _ _ =>
      rw [phase] at allowed
      exact allowed.elim
  obtain ⟨⟨hlc, nowSecs, locked⟩, only, perhaps⟩ := situation.holder carries (by rw [holding]; rfl)
  rw [holding] at perhaps
  have phase : commandPhase thread config'.moment.history =
      if taken then .published else .unpublished := by
    rw [commandPhase_own step, holding]
    rfl
  refine .held thread hlc nowSecs (stored.trans locked) carries ?_ ?_ ?_
  · rw [phase]
    cases taken <;> rfl
  · intro other alsoCarries inFlight
    by_contra different
    rw [commandPhase_step step other] at inFlight
    · exact different (only other alsoCarries inFlight)
    · rintro call answer ⟨⟩
      exact absurd rfl different
  · rw [phase, step.history_eq, publishers_append, perhaps]
    cases taken with
    | true => simp [published, carries]
    | false => simp [published]

end Steps

/-! ## Runs -/

omit [DecidableEq ι] in
/-- A record that is not removed stays. -/
theorem Durable.stored_of_step (durable : Durable backend config label config')
    (stays : backend.stored config'.moment.shared key = backend.stored config.moment.shared key ∨
      backend.stored config'.moment.shared key = none)
    (notRemoved : ∀ thread, label ≠ .perform thread ⟨.remove key, ()⟩) :
    backend.stored config'.moment.shared key = backend.stored config.moment.shared key := by
  rcases stays with same | lost
  · exact same
  · cases found : backend.stored config.moment.shared key with
    | none => exact lost
    | some record =>
      obtain ⟨thread, removed⟩ := durable.kept key record found lost
      exact absurd removed (notRemoved thread)

/-- The operation of a command on its key. -/
theorem situation_operation (roundTrips : backend.RoundTrips)
    (reaches : (engineSystem backend proxy visits).Reaches backend.initial config) {thread : ι}
    {call : GatewayCall} {answer : call.Answer} {operation : Operation}
    (step : (engineSystem backend proxy visits).Step config (.perform thread ⟨call, answer⟩) config')
    (durable : Durable backend config (.perform thread ⟨call, answer⟩) config')
    (isOperation : call.operation? = some operation) (onKey : operation.key = key)
    (endsAtEdge : (visits thread).EndsAtEdge proxy)
    (effect : backend.Step operation config.moment.shared (replyOf call answer) config'.moment.shared)
    (situation : Situation backend proxy visits key config) :
    Situation backend proxy visits key config' := by
  subst onKey
  have carries := key_of_operation reaches step isOperation
  have allowed := command_allowed reaches carries endsAtEdge step
  have acts := effect.acts roundTrips
  cases call with
  | checkOrInsert claimed claimer =>
    cases isOperation
    -- who claims has not claimed before
    have unclaimed : commandPhase thread config.moment.history = .unclaimed := by
      cases phase : commandPhase thread config.moment.history with
      | unclaimed => rfl
      | holding | published | unpublished | settled =>
        rw [phase] at allowed
        exact allowed.elim
      | replaying _ _ =>
        rw [phase] at allowed
        exact allowed.elim
    have onKey : KeyEffect (.checkOrInsert claimed claimer) _ (.outcome answer) _ := acts.onKey
    rcases onKey.of_claim with ⟨rfl, granted⟩ | ⟨record, before, after, told⟩
    · have absent := durable.fresh thread claimed claimer rfl
      rcases granted with ⟨nowSecs, locked⟩ | openly
      · exact situation_given carries situation step absent locked
      · exact absurd (openly.trans absent) (durable.inserts thread claimed claimer rfl)
    · have notNew : (answer : IdempotencyOutcome) ≠ .new := told ▸ record.outcome_ne_new
      exact situation_refused carries situation notNew step unclaimed (after.trans before.symm)
  | complete completed hlc statusCode headers body =>
    cases isOperation
    obtain ⟨nowSecs, stored⟩ := durable.completes thread completed hlc statusCode headers body rfl
    exact situation_completed carries situation step allowed stored
  | remove removed =>
    cases isOperation
    exact situation_removed carries situation step allowed (durable.removes thread removed rfl)
  | _ => cases isOperation

/-- A step that is no operation on the key and publishes nothing under it changes nothing. -/
theorem situation_elsewhere (durable : Durable backend config label config')
    (step : (engineSystem backend proxy visits).Step config label config')
    (stays : backend.stored config'.moment.shared key = backend.stored config.moment.shared key ∨
      backend.stored config'.moment.shared key = none)
    (notRemoved : ∀ thread, label ≠ .perform thread ⟨.remove key, ()⟩)
    (incidental : ∀ thread call answer, label = .perform thread ⟨call, answer⟩ →
      (visits thread).key proxy = some key → Incidental call)
    (situation : Situation backend proxy visits key config) :
    Situation backend proxy visits key config' := by
  refine situation.same (durable.stored_of_step stays notRemoved) (fun thread carries => .inl ?_) ?_
  · exact commandPhase_step step thread fun call answer mine => incidental thread call answer mine carries
  · apply publishers_step step
    cases label with
    | start _ | finish _ _ | environment _ => rfl
    | perform thread event =>
      obtain ⟨call, answer⟩ := event
      cases call with
      | dispatchRequestInfo info =>
        have other : (visits thread).key proxy ≠ some key := fun carries =>
          incidental thread _ answer rfl carries
        cases answer with
        | true => exact if_neg other
        | false => rfl
      | _ => rfl

theorem Situation.step (roundTrips : backend.RoundTrips)
    (commands : ∀ thread, (visits thread).key proxy = some key → (visits thread).EndsAtEdge proxy)
    (reaches : (engineSystem backend proxy visits).Reaches backend.initial config)
    (step : (engineSystem backend proxy visits).Step config label config')
    (durable : Durable backend config label config')
    (situation : Situation backend proxy visits key config) :
    Situation backend proxy visits key config' := by
  rcases engine_of_step step with
    ⟨thread, call, answer, operation, rfl, isOperation, effect⟩ | ⟨redisKey, rfl, expires⟩ | ⟨aside, same⟩
  · have carries := key_of_operation reaches step isOperation
    by_cases onKey : operation.key = key
    · exact situation_operation roundTrips reaches step durable isOperation onKey
        (commands thread (onKey ▸ carries)) effect situation
    · refine situation_elsewhere durable step
        ((effect.acts roundTrips).elsewhere key (Ne.symm onKey)) ?_ ?_ situation
      · rintro _ ⟨⟩
        cases isOperation
        exact onKey rfl
      · rintro _ _ _ ⟨⟩ alsoCarries
        exact absurd (Option.some.inj (carries.symm.trans alsoCarries)) onKey
  · refine situation_elsewhere durable step (expires.onlyLoses key) ?_ ?_ situation
    · intro _ impossible
      cases impossible
    · intro _ _ _ impossible
      cases impossible
  · have stored : backend.stored config'.moment.shared key = backend.stored config.moment.shared key := by
      rw [same]
    -- of the calls that are not for the engine, only the publication of a command matters
    by_cases publication : ∃ thread info taken,
        label = .perform thread ⟨.dispatchRequestInfo info, taken⟩ ∧ (visits thread).key proxy = some key
    · obtain ⟨thread, info, taken, rfl, carries⟩ := publication
      have allowed := command_allowed reaches carries (commands thread carries) step
      exact situation_dispatched carries situation step allowed stored
    · refine situation_elsewhere durable step (.inl stored) ?_ ?_ situation
      · rintro thread rfl
        cases aside thread (.remove key) () rfl
      · rintro thread call answer rfl carries
        have isAside := aside thread call answer rfl
        cases call with
        | dispatchRequestInfo info => exact publication ⟨thread, info, answer, rfl, carries⟩
        | checkOrInsert _ _ | complete _ _ _ _ _ | remove _ => cases isAside
        | _ => trivial

theorem situation_of_reaches (roundTrips : backend.RoundTrips)
    (commands : ∀ thread, (visits thread).key proxy = some key → (visits thread).EndsAtEdge proxy)
    (reaches : (engineSystem backend proxy visits).ReachesBy (Durable backend) backend.initial config) :
    Situation backend proxy visits key config := by
  induction reaches with
  | initial => exact .free (backend.stored_initial key) (fun _ _ => rfl) rfl
  | step earlier step durable inductionHypothesis =>
    exact inductionHypothesis.step roundTrips commands earlier.reaches step durable

/-! ## Replays -/

/-- A command that was told to replay a record is doing so. -/
theorem replaying_of_mem
    (commands : ∀ thread, (visits thread).key proxy = some key → (visits thread).EndsAtEdge proxy)
    (reaches : (engineSystem backend proxy visits).Reaches backend.initial config) {thread : ι}
    {hlc holder : HlcTimestamp} {statusCode : UInt16} {headers : List (String × String)} {body : String}
    (told : .perform thread ⟨.checkOrInsert key hlc,
      IdempotencyOutcome.replay holder statusCode headers body⟩ ∈ config.moment.history) :
    (visits thread).key proxy = some key ∧
      commandPhase thread config.moment.history = .replaying statusCode body := by
  induction reaches with
  | initial => cases told
  | @step config config' label earlier step inductionHypothesis =>
    rw [step.history_eq, List.mem_append, List.mem_singleton] at told
    rcases told with before | rfl
    · obtain ⟨carries, replaying⟩ := inductionHypothesis before
      refine ⟨carries, ?_⟩
      by_cases mine : ∃ call answer, label = .perform thread ⟨call, answer⟩
      · obtain ⟨call, answer, rfl⟩ := mine
        -- a command that replays makes no call that would end the phase
        have allowed := command_allowed earlier carries (commands thread carries) step
        rw [commandPhase_own step]
        rw [replaying] at allowed ⊢
        cases call <;> first | rfl | cases allowed
      · rw [commandPhase_step step thread fun call answer isMine => absurd ⟨call, answer, isMine⟩ mine]
        exact replaying
    · exact ⟨key_of_operation earlier step rfl, commandPhase_own step⟩

/-- The replays of a key are answered with the receipt of its one publication. -/
theorem receipt_of_replay (roundTrips : backend.RoundTrips)
    (commands : ∀ thread, (visits thread).key proxy = some key → (visits thread).EndsAtEdge proxy)
    (reaches : (engineSystem backend proxy visits).ReachesBy (Durable backend) backend.initial config)
    {thread : ι} {hlc holder : HlcTimestamp} {statusCode : UInt16} {headers : List (String × String)}
    {body : String}
    (told : .perform thread ⟨.checkOrInsert key hlc,
      IdempotencyOutcome.replay holder statusCode headers body⟩ ∈ config.moment.history) :
    statusCode = 200 ∧ ∃ winner, publishers proxy visits key config.moment.history = [winner] ∧
      (visits winner).receipt proxy = some body := by
  induction reaches with
  | initial => cases told
  | @step config config' label earlier step durable inductionHypothesis =>
    have situation := situation_of_reaches roundTrips commands earlier
    have after := situation.step roundTrips commands earlier.reaches step durable
    rw [step.history_eq, List.mem_append, List.mem_singleton] at told
    -- the one publication stays the only one
    have later : ∀ winner, publishers proxy visits key config.moment.history = [winner] →
        publishers proxy visits key config'.moment.history = [winner] := by
      intro winner once
      have grown := publishers_append proxy visits key config.moment.history label
      rw [← step.history_eq, once] at grown
      have atMostOne := after.once
      cases found : published proxy visits key label with
      | none =>
        rw [found] at grown
        exact grown
      | some other =>
        rw [grown, found] at atMostOne
        simp at atMostOne
    rcases told with before | rfl
    · obtain ⟨isOk, winner, once, isReceipt⟩ := inductionHypothesis before
      exact ⟨isOk, winner, later winner once, isReceipt⟩
    · have stored : ∃ completedAtSecs, backend.stored config.moment.shared key =
          some (.completed holder statusCode headers body completedAtSecs) := by
        cases step with
        | perform running effect =>
          have acts := IdempotencyBackend.Step.acts roundTrips (And.right effect)
          exact stored_of_replay acts.onKey
      obtain ⟨completedAtSecs, found⟩ := stored
      cases situation with
      | free absent _ _ => cases absent.symm.trans found
      | held _ _ _ locked _ _ _ _ => cases locked.symm.trans found
      | done winner _ _ _ _ completed _ once isReceipt =>
        cases completed.symm.trans found
        exact ⟨rfl, winner, later winner once, isReceipt⟩

/-! ## The result -/

/-- What clients and consumers may rely on for the commands of one key. -/
structure PublishesOnce (backend : IdempotencyBackend) (proxy : CompositeServiceProxy)
    (visits : ι → Visit) (key : String)
    (config : Config gatewaySignature ι String backend.State Unit) : Prop where
  once : (publishers proxy visits key config.moment.history).length ≤ 1
  /-- A replay has status 200 and the receipt of the publication, and is answered so. -/
  replays : ∀ past future thread hlc holder statusCode headers body,
    config.moment.history = past ++ .perform thread ⟨.checkOrInsert key hlc,
      IdempotencyOutcome.replay holder statusCode headers body⟩ :: future →
    statusCode = 200 ∧
    (∃ winner, publishers proxy visits key config.moment.history = [winner] ∧
      (visits winner).receipt proxy = some body) ∧
    (∀ header taken, .perform thread ⟨.writeResponseHeader header, taken⟩ ∈ future →
      header.status = .ok) ∧
    (∀ bytes taken, .perform thread ⟨.writeResponseBody bytes, taken⟩ ∈ future → bytes = asBytes body)
  /-- With no command in flight the key is free, or completed with the receipt. -/
  settled : (∀ thread, (visits thread).key proxy = some key →
      (commandPhase thread config.moment.history).inFlight = false) →
    (publishers proxy visits key config.moment.history = [] →
      backend.stored config.moment.shared key = none) ∧
    (∀ winner, publishers proxy visits key config.moment.history = [winner] →
      ∃ hlc headers body completedAtSecs, (visits winner).receipt proxy = some body ∧
        backend.stored config.moment.shared key = some (.completed hlc 200 headers body completedAtSecs))

theorem Situation.settled (situation : Situation backend proxy visits key config)
    (idle : ∀ thread, (visits thread).key proxy = some key →
      (commandPhase thread config.moment.history).inFlight = false) :
    (publishers proxy visits key config.moment.history = [] →
      backend.stored config.moment.shared key = none) ∧
    (∀ winner, publishers proxy visits key config.moment.history = [winner] →
      ∃ hlc headers body completedAtSecs, (visits winner).receipt proxy = some body ∧
        backend.stored config.moment.shared key =
          some (.completed hlc 200 headers body completedAtSecs)) := by
  cases situation with
  | free absent _ unpublished =>
    refine ⟨fun _ => absent, fun winner once => ?_⟩
    rw [unpublished] at once
    cases once
  | held thread _ _ _ carries inFlight _ _ =>
    rw [idle thread carries] at inFlight
    cases inFlight
  | done thread hlc headers body nowSecs completed _ once isReceipt =>
    constructor
    · intro unpublished
      rw [once] at unpublished
      cases unpublished
    · intro winner alsoOnce
      cases once.symm.trans alsoOnce
      exact ⟨hlc, headers, body, nowSecs, isReceipt, completed⟩

/-- Whatever a command that replays writes is the record. -/
theorem allowed_of_replay
    (commands : ∀ thread, (visits thread).key proxy = some key → (visits thread).EndsAtEdge proxy)
    (reaches : (engineSystem backend proxy visits).Reaches backend.initial config)
    {past future : List (GatewayLabel ι String)} {thread : ι} {hlc holder : HlcTimestamp}
    {statusCode : UInt16} {headers : List (String × String)} {body : String}
    (split : config.moment.history = past ++ .perform thread ⟨.checkOrInsert key hlc,
      IdempotencyOutcome.replay holder statusCode headers body⟩ :: future)
    {call : GatewayCall} {answer : call.Answer} (member : .perform thread ⟨call, answer⟩ ∈ future) :
    (CommandPhase.replaying statusCode body).allows key (visits thread).arrival.hlc
      ((visits thread).receipt proxy) call := by
  obtain ⟨between, rest, rfl⟩ := List.append_of_mem member
  have whole : config.moment.history = (past ++ .perform thread ⟨.checkOrInsert key hlc,
      IdempotencyOutcome.replay holder statusCode headers body⟩ :: between) ++
      .perform thread ⟨call, answer⟩ :: rest := by
    rw [split, List.append_assoc, List.cons_append]
  obtain ⟨before, after, reached, history, step⟩ := reaches.step_at whole
  have told : .perform thread ⟨.checkOrInsert key hlc,
      IdempotencyOutcome.replay holder statusCode headers body⟩ ∈ before.moment.history := by
    rw [history]
    exact List.mem_append_right _ List.mem_cons_self
  obtain ⟨carries, replaying⟩ := replaying_of_mem commands reached told
  have allowed := command_allowed reached carries (commands thread carries) step
  rwa [replaying] at allowed

/-- However the requests with a key are interleaved, when each of them is rejected by the
    pipeline or matches an enabled Mode B route and the engine keeps its records, at most one
    command is published, and every replay is its receipt. -/
theorem publishes_once (backend : IdempotencyBackend) (roundTrips : backend.RoundTrips)
    (proxy : CompositeServiceProxy) (visits : ι → Visit) (key : String)
    (commands : ∀ thread, (visits thread).key proxy = some key → (visits thread).EndsAtEdge proxy)
    (config : Config gatewaySignature ι String backend.State Unit)
    (reaches : (engineSystem backend proxy visits).ReachesBy (Durable backend) backend.initial config) :
    PublishesOnce backend proxy visits key config where
  once := (situation_of_reaches roundTrips commands reaches).once
  settled := (situation_of_reaches roundTrips commands reaches).settled
  replays := by
    intro past future thread hlc holder statusCode headers body split
    have told : .perform thread ⟨.checkOrInsert key hlc,
        IdempotencyOutcome.replay holder statusCode headers body⟩ ∈ config.moment.history := by
      rw [split]
      exact List.mem_append_right _ List.mem_cons_self
    obtain ⟨rfl, receipt⟩ := receipt_of_replay roundTrips commands reaches told
    refine ⟨rfl, receipt, fun header taken member => ?_, fun bytes taken member => ?_⟩
    · have isOk := allowed_of_replay commands reaches.reaches split member
      exact StatusCode.ext isOk
    · exact allowed_of_replay commands reaches.reaches split member

/-! ## Requests with one key on the memory backend -/

/-- Where all requests have one key there are no records of others. -/
theorem stored_of_one_key (roundTrips : backend.RoundTrips)
    (oneKey : ∀ thread other, (visits thread).key proxy = some other → other = key)
    (reaches : (engineSystem backend proxy visits).Reaches backend.initial config) {other : String}
    (different : other ≠ key) : backend.stored config.moment.shared other = none := by
  induction reaches with
  | initial => exact backend.stored_initial other
  | @step config config' label earlier step inductionHypothesis =>
    have stays : backend.stored config'.moment.shared other = backend.stored config.moment.shared other ∨
        backend.stored config'.moment.shared other = none := by
      rcases engine_of_step step with
        ⟨thread, call, answer, operation, rfl, isOperation, effect⟩ | ⟨redisKey, -, expires⟩ | ⟨-, same⟩
      · have onKey := oneKey thread _ (key_of_operation earlier step isOperation)
        exact (effect.acts roundTrips).elsewhere other (onKey ▸ different)
      · exact expires.onlyLoses other
      · exact .inl (by rw [same])
    rcases stays with same | lost
    · exact same.trans inductionHypothesis
    · exact lost

end Commands

/-- On the memory backend records can only expire, when all requests have one key. -/
theorem durable_of_one_key {ι : Type} [DecidableEq ι] {memory : MemoryBackend}
    {proxy : CompositeServiceProxy} {visits : ι → Visit} {key : String}
    {config config' : Config gatewaySignature ι String (IdempotencyBackend.memory memory).State Unit}
    {label : GatewayLabel ι String}
    (oneKey : ∀ thread other, (visits thread).key proxy = some other → other = key)
    (reaches : (engineSystem (.memory memory) proxy visits).Reaches
      (IdempotencyBackend.memory memory).initial config)
    (step : (engineSystem (.memory memory) proxy visits).Step config label config')
    (fresh : ∀ thread hlc, GivesKey thread key hlc label →
      (IdempotencyBackend.memory memory).stored config.moment.shared key = none) :
    Durable (.memory memory) config label config' where
  fresh := by
    intro thread claimed hlc given
    subst given
    obtain rfl := oneKey thread claimed (key_of_operation reaches step rfl)
    exact fresh thread hlc rfl
  inserts := by
    rintro thread claimed hlc rfl
    cases step with
    | perform running effect =>
      obtain ⟨nowSecs, inserted⟩ := IdempotencyBackend.Step.stored_of_new (And.right effect)
      exact inserted ▸ nofun
  completes := by
    rintro thread completed hlc statusCode headers body rfl
    cases step with
    | perform running effect => exact IdempotencyBackend.Step.stored_of_complete (And.right effect)
  removes := by
    rintro thread removed rfl
    cases step with
    | perform running effect => exact IdempotencyBackend.Step.stored_of_remove (And.right effect)
  kept := by
    intro other record found lost
    by_cases mine : other = key
    · subst mine
      rcases engine_of_step step with
        ⟨thread, call, answer, operation, rfl, isOperation, effect⟩ | ⟨_, _, never⟩ | ⟨-, same⟩
      · obtain rfl := oneKey thread _ (key_of_operation reaches step isOperation)
        have onKey := (IdempotencyBackend.Step.acts (IdempotencyBackend.roundTrips_memory memory) effect).onKey
        rw [found, lost] at onKey
        rw [onKey.of_lost] at isOperation
        cases call with
        | remove removed =>
          cases isOperation
          exact ⟨thread, rfl⟩
        | _ => cases isOperation
      · exact never.elim
      · rw [same, found] at lost
        cases lost
    · rw [stored_of_one_key (IdempotencyBackend.roundTrips_memory memory) oneKey reaches mine] at found
      cases found

def payRoute : SpectraRouteConfig := ⟨"pay", .asyncCommandReceipt, true, none, "ACCEPTED", none⟩

/-- A payment as a command. -/
def commandVisit (requestId : RequestId) : Visit :=
  ⟨smallDynamic [] [payRoute], { smallArrival .post [keyHeader] payBody with requestId := requestId }⟩

/-- Two attempts at one payment. -/
def twoAttempts : Bool → Visit
  | false => commandVisit "0190163d-8694-739b-aea5-966c26f8ad91"
  | true => commandVisit "0190163d-8694-739b-aea5-966c26f8ad92"

/-- Who is given the key finds no record. -/
def givenFresh (before after : Config gatewaySignature Bool String
    (IdempotencyBackend.memory plainBackend).State Unit) : Bool :=
  !(after.moment.history.getLast?.any fun label =>
      givesKey false "order-7" label || givesKey true "order-7" label) ||
    ((IdempotencyBackend.memory plainBackend).stored before.moment.shared "order-7").isNone

theorem key_twoAttempts (attempt : Bool) : (twoAttempts attempt).key smallProxy = some "order-7" := by
  cases attempt <;> rfl

theorem endsAtEdge_twoAttempts (attempt : Bool) : (twoAttempts attempt).EndsAtEdge smallProxy := by
  cases attempt <;> exact ⟨payBody, _, rfl, .inr ⟨payRoute, rfl, rfl, rfl⟩⟩

theorem durable_of_givenFresh {config config' : Config gatewaySignature Bool String
    (IdempotencyBackend.memory plainBackend).State Unit} {label : GatewayLabel Bool String}
    (reaches : (engineSystem (.memory plainBackend) smallProxy twoAttempts).Reaches
      (IdempotencyBackend.memory plainBackend).initial config)
    (step : (engineSystem (.memory plainBackend) smallProxy twoAttempts).Step config label config')
    (checked : givenFresh config config' = true) :
    Durable (.memory plainBackend) config label config' := by
  have oneKey : ∀ attempt other, (twoAttempts attempt).key smallProxy = some other → other = "order-7" :=
    fun attempt other isKey => Option.some.inj (isKey.symm.trans (key_twoAttempts attempt))
  refine durable_of_one_key oneKey reaches step ?_
  rintro attempt hlc rfl
  unfold givenFresh at checked
  rw [step.history_eq] at checked
  cases attempt <;> simpa [givesKey] using checked

/-- The second attempt is told the receipt of the first. -/
theorem publishes_once_two_attempts : ∃ config,
    (engineSystem (.memory plainBackend) smallProxy twoAttempts).Reaches
      (IdempotencyBackend.memory plainBackend).initial config ∧
    publishers smallProxy twoAttempts "order-7" config.moment.history = [false] ∧
    config.moment.history.getLast?.any (isReplayTo true) = true ∧
    PublishesOnce (.memory plainBackend) smallProxy twoAttempts "order-7" config := by
  have replayed : ((requestScheduler plainBackend smallProxy twoAttempts).runWhile givenFresh
      (List.replicate 8 (.thread false 0) ++ List.replicate 2 (.thread true 0))
      (System.initial (IdempotencyBackend.memory plainBackend).initial)).any
      (fun config => publishers smallProxy twoAttempts "order-7" config.moment.history == [false] &&
        config.moment.history.getLast?.any (isReplayTo true)) = true := by decide +kernel
  obtain ⟨config, runs, checked⟩ := (Option.any_eq_true _ _).mp replayed
  obtain ⟨once, isReplay⟩ := Bool.and_eq_true_iff.mp checked
  have reaches := (requestScheduler ..).runWhile_reachesBy durable_of_givenFresh _ .initial runs
  exact ⟨config, reaches.reaches, eq_of_beq once, isReplay,
    publishes_once (.memory plainBackend) (IdempotencyBackend.roundTrips_memory plainBackend) smallProxy
      twoAttempts "order-7" (fun attempt _ => endsAtEdge_twoAttempts attempt) config reaches⟩

end SpectraGQL.Gateway
