import SpectraGQL.Gateway.Isolation

/-! # Whose record a request settles

The engine finds records by their key alone.  A record does not say whose it is, and
`complete` and `remove` take what they find.  So the lock of a key is one with a lease: a
request that outlives its record settles that of its successor.  `settles_own_record` says
that nothing else goes wrong: a request settles its own record in every run in which no key
is given to a second request while the first is still in flight.
-/

namespace SpectraGQL.Gateway

open Interaction SpectraGQL.Core SpectraGQL.Http SpectraGQL.Protocol SpectraGQL.Interceptors
open SpectraGQL.Telemetry SpectraGQL.Idempotency

section Ownership

variable {ι : Type} [DecidableEq ι] (backend : IdempotencyBackend) (proxy : CompositeServiceProxy)
  (visits : ι → Visit)

/-- A request has been given a key. -/
def GivesKey (thread : ι) (key : String) (hlc : HlcTimestamp) (label : GatewayLabel ι String) : Prop :=
  label = .perform thread ⟨.checkOrInsert key hlc, IdempotencyOutcome.new⟩

/-- A request is between being given a key and settling it. -/
def InFlight (config : Config gatewaySignature ι String backend.State Unit) (thread : ι)
    (key : String) : Prop :=
  (∃ program, config.threads thread = .running program) ∧
    keyPhase thread config.moment.history = .holding key

/-- The record under a key is the one that a request has inserted: its own `check_or_insert`
    has stored the record, and no step since then has put another one in its place. -/
inductive Inserted (thread : ι) (key : String) :
    Config gatewaySignature ι String backend.State Unit → Prop where
  | now {config config' : Config gatewaySignature ι String backend.State Unit}
      {label : GatewayLabel ι String} {hlc : HlcTimestamp} {nowSecs : Nat}
      (reaches : (engineSystem backend proxy visits).Reaches backend.initial config)
      (step : (engineSystem backend proxy visits).Step config label config')
      (given : GivesKey thread key hlc label)
      (stores : backend.stored config'.moment.shared key = some (.inProgress hlc nowSecs)) :
      Inserted thread key config'
  | earlier {config config' : Config gatewaySignature ι String backend.State Unit}
      {label : GatewayLabel ι String} (before : Inserted thread key config)
      (step : (engineSystem backend proxy visits).Step config label config')
      (notGiven : ∀ other hlc, ¬ GivesKey other key hlc label)
      (kept : backend.stored config'.moment.shared key = backend.stored config.moment.shared key) :
      Inserted thread key config'

/-- The operation of a request changes a record only if the request has inserted it. -/
def ChangesOwnRecord (config config' : Config gatewaySignature ι String backend.State Unit)
    (thread : ι) (operation : Operation) : Prop :=
  ∀ record, backend.stored config.moment.shared operation.key = some record →
    backend.stored config'.moment.shared operation.key ≠ some record →
    Inserted backend proxy visits thread operation.key config

/-- Whoever is given a key is its only user, and finds no record of others left there. -/
def GivenToOne (config : Config gatewaySignature ι String backend.State Unit)
    (label : GatewayLabel ι String)
    (config' : Config gatewaySignature ι String backend.State Unit) : Prop :=
  ∀ thread key hlc, GivesKey thread key hlc label →
    (∀ other, ¬ InFlight backend config other key) ∧
      ∀ record, backend.stored config'.moment.shared key = some record →
        ∃ nowSecs, record = .inProgress hlc nowSecs

variable {backend proxy visits} {config config' : Config gatewaySignature ι String backend.State Unit}
  {label : GatewayLabel ι String}

/-- A request that holds a key held it before the step, which is no operation of it, or has
    just been given the key. -/
theorem inFlight_of_step (reaches : (engineSystem backend proxy visits).Reaches backend.initial config)
    (step : (engineSystem backend proxy visits).Step config label config') {thread : ι} {key : String}
    (inFlight : InFlight backend config' thread key) :
    InFlight backend config thread key ∧
        (∀ call answer, label = .perform thread ⟨call, answer⟩ → Aside call) ∨
      GivesKey thread key (visits thread).arrival.hlc label := by
  obtain ⟨⟨program, running⟩, holding⟩ := inFlight
  rw [step.history_eq, keyPhase_append] at holding
  by_cases mine : label.thread? = some thread
  · cases step with
    | environment _ => cases mine
    | start idle =>
      simp only [Label.thread?, Option.some.injEq] at mine
      subst mine
      have fresh := reaches.fresh_of_idle idle
      simp [Automaton.follow, keyPhase, Automaton.phaseOf_fresh _ _ fresh] at holding
    | finish was =>
      simp only [Label.thread?, Option.some.injEq] at mine
      subst mine
      simp at running
    | @perform other call next answer shared was effect =>
      simp only [Label.thread?, Option.some.injEq] at mine
      subst mine
      simp only [Automaton.follow, if_true] at holding
      have allowed := allowed_of_step reaches (.perform was effect)
      rcases KeyPhase.holding_of_next allowed holding with ⟨held, aside⟩ | ⟨rfl, -, isNew⟩
      · refine .inl ⟨⟨⟨_, was⟩, held⟩, ?_⟩
        rintro _ _ ⟨⟩
        exact aside
      · right
        cases isNew
        rfl
  · rw [Automaton.follow_other _ _ mine] at holding
    refine .inl ⟨⟨⟨program, (step.threads_eq mine).symm.trans running⟩, holding⟩, ?_⟩
    rintro _ _ rfl
    exact absurd rfl mine

/-- Who settles a key is in flight with it. -/
theorem inFlight_of_settles
    (reaches : (engineSystem backend proxy visits).Reaches backend.initial config) {thread : ι}
    {call : GatewayCall} {answer : call.Answer} {operation : Operation}
    (step : (engineSystem backend proxy visits).Step config (.perform thread ⟨call, answer⟩) config')
    (isOperation : call.operation? = some operation)
    (settles : ∀ key hlc, operation ≠ .checkOrInsert key hlc) :
    InFlight backend config thread operation.key := by
  have holding := KeyPhase.holding_of_settles (allowed_of_step reaches step) isOperation settles
  cases step with
  | perform running _ => exact ⟨⟨_, running⟩, holding⟩

/-- Nobody but the user of a key changes its record: others lose it at most. -/
theorem stored_of_step (roundTrips : backend.RoundTrips)
    (step : (engineSystem backend proxy visits).Step config label config') {key : String}
    (notGiven : ∀ other hlc, ¬ GivesKey other key hlc label)
    (notSettled : ∀ other call answer operation, label = .perform other ⟨call, answer⟩ →
      call.operation? = some operation → (∀ key hlc, operation ≠ .checkOrInsert key hlc) →
      operation.key ≠ key) :
    backend.stored config'.moment.shared key = backend.stored config.moment.shared key ∨
      backend.stored config'.moment.shared key = none := by
  rcases engine_of_step step with
    ⟨thread, call, answer, operation, rfl, isOperation, effect⟩ | ⟨redisKey, -, expires⟩ | ⟨-, same⟩
  · have acts := IdempotencyBackend.Step.acts roundTrips effect
    by_cases mine : key = operation.key
    · subst mine
      have onKey := acts.onKey
      cases call with
      | checkOrInsert claimed hlc =>
        cases isOperation
        rcases onKey.of_claim with ⟨rfl, -⟩ | ⟨record, before, after, -⟩
        · exact absurd rfl (notGiven thread hlc)
        · exact .inl (after.trans before.symm)
      | complete completed hlc statusCode headers body =>
        cases isOperation
        exact absurd rfl (notSettled thread _ answer _ rfl rfl nofun)
      | remove removed =>
        cases isOperation
        exact absurd rfl (notSettled thread _ answer _ rfl rfl nofun)
      | _ => cases isOperation
    · exact acts.elsewhere key mine
  · exact expires.onlyLoses key
  · exact .inl (by rw [same])

/-- Every key has one user, and what is stored under the key has been inserted by the user. -/
structure OwnRecords (proxy : CompositeServiceProxy) (visits : ι → Visit)
    (config : Config gatewaySignature ι String backend.State Unit) : Prop where
  one : ∀ {thread other key}, InFlight backend config thread key → InFlight backend config other key →
    thread = other
  own : ∀ {thread key}, InFlight backend config thread key →
    backend.stored config.moment.shared key = none ∨ Inserted backend proxy visits thread key config

/-- A key that is in use stays with its user. -/
theorem OwnRecords.kept (roundTrips : backend.RoundTrips)
    (reaches : (engineSystem backend proxy visits).Reaches backend.initial config)
    (step : (engineSystem backend proxy visits).Step config label config')
    (givenToOne : GivenToOne backend config label config') (records : OwnRecords proxy visits config)
    {thread : ι} {key : String} (inFlight : InFlight backend config thread key)
    (aside : ∀ call answer, label = .perform thread ⟨call, answer⟩ → Aside call) :
    backend.stored config'.moment.shared key = none ∨
      Inserted backend proxy visits thread key config' := by
  have notGiven : ∀ other hlc, ¬ GivesKey other key hlc label := fun other hlc given =>
    (givenToOne other key hlc given).1 thread inFlight
  have notSettled : ∀ other call answer operation, label = .perform other ⟨call, answer⟩ →
      call.operation? = some operation → (∀ key hlc, operation ≠ .checkOrInsert key hlc) →
      operation.key ≠ key := by
    rintro other call answer operation rfl isOperation settles rfl
    -- only the user of the key could settle it, and it does not
    obtain rfl := records.one inFlight (inFlight_of_settles reaches step isOperation settles)
    have isAside : call.operation? = none := aside call answer rfl
    rw [isAside] at isOperation
    cases isOperation
  rcases stored_of_step roundTrips step notGiven notSettled with same | lost
  · rcases records.own inFlight with absent | inserted
    · exact .inl (same.trans absent)
    · exact .inr (.earlier inserted step notGiven same)
  · exact .inl lost

theorem OwnRecords.step (roundTrips : backend.RoundTrips)
    (reaches : (engineSystem backend proxy visits).Reaches backend.initial config)
    (step : (engineSystem backend proxy visits).Step config label config')
    (givenToOne : GivenToOne backend config label config') (records : OwnRecords proxy visits config) :
    OwnRecords proxy visits config' where
  one := by
    intro thread other key mine theirs
    rcases inFlight_of_step reaches step mine with ⟨was, -⟩ | given
    · rcases inFlight_of_step reaches step theirs with ⟨alsoWas, -⟩ | alsoGiven
      · exact records.one was alsoWas
      · exact absurd was ((givenToOne other key _ alsoGiven).1 thread)
    · rcases inFlight_of_step reaches step theirs with ⟨alsoWas, -⟩ | alsoGiven
      · exact absurd alsoWas ((givenToOne thread key _ given).1 other)
      · cases given.symm.trans alsoGiven
        rfl
  own := by
    intro thread key inFlight
    rcases inFlight_of_step reaches step inFlight with ⟨was, aside⟩ | given
    · exact records.kept roundTrips reaches step givenToOne was aside
    · cases stored : backend.stored config'.moment.shared key with
      | none => exact .inl rfl
      | some record =>
        obtain ⟨nowSecs, rfl⟩ := (givenToOne thread key _ given).2 record stored
        exact .inr (.now reaches step given stored)

theorem ownRecords_of_reaches (roundTrips : backend.RoundTrips)
    (reaches : (engineSystem backend proxy visits).ReachesBy (GivenToOne backend) backend.initial config) :
    OwnRecords proxy visits config := by
  induction reaches with
  | initial =>
    constructor
    · rintro _ _ _ ⟨⟨_, running⟩, _⟩
      cases running
    · rintro _ _ ⟨⟨_, running⟩, _⟩
      cases running
  | step earlier step givenToOne inductionHypothesis =>
    exact inductionHypothesis.step roundTrips earlier.reaches step givenToOne

/-- In every run in which a key is given to one request at a time, a request completes or
    removes the record that it has inserted, and none else. -/
theorem settles_own_record (backend : IdempotencyBackend) (roundTrips : backend.RoundTrips)
    (proxy : CompositeServiceProxy) (visits : ι → Visit)
    (config config' : Config gatewaySignature ι String backend.State Unit)
    (reaches : (engineSystem backend proxy visits).ReachesBy (GivenToOne backend) backend.initial config)
    (thread : ι) (call : GatewayCall) (answer : call.Answer) (operation : Operation)
    (step : (engineSystem backend proxy visits).Step config (.perform thread ⟨call, answer⟩) config')
    (isOperation : call.operation? = some operation)
    (settles : ∀ key hlc, operation ≠ .checkOrInsert key hlc) :
    ChangesOwnRecord backend proxy visits config config' thread operation := by
  intro record found _
  have inFlight := inFlight_of_settles reaches.reaches step isOperation settles
  rcases (ownRecords_of_reaches roundTrips reaches).own inFlight with absent | inserted
  · rw [absent] at found
    cases found
  · exact inserted

end Ownership

/-! ## One request, and two -/

section Payments

variable {ι : Type} [DecidableEq ι] {memory : MemoryBackend} {proxy : CompositeServiceProxy}
  {visits : ι → Visit} {config : Config gatewaySignature ι String (IdempotencyBackend.memory memory).State Unit}

/-- A single request shares its key with nobody. -/
theorem reachesBy_of_single [Subsingleton ι]
    (reaches : (engineSystem (.memory memory) proxy visits).Reaches
      (IdempotencyBackend.memory memory).initial config) :
    (engineSystem (.memory memory) proxy visits).ReachesBy (GivenToOne (.memory memory))
      (IdempotencyBackend.memory memory).initial config := by
  induction reaches with
  | initial => exact .initial
  | @step config config' label earlier step inductionHypothesis =>
    refine .step inductionHypothesis step ?_
    rintro thread key hlc rfl
    constructor
    · rintro other ⟨-, holding⟩
      cases Subsingleton.elim other thread
      have unclaimed := (KeyPhase.resolved_of_claims (allowed_of_step earlier step)).1
      rw [unclaimed] at holding
      cases holding
    · intro record stored
      cases step with
      | @perform _ _ _ _ shared running effect =>
        obtain ⟨nowSecs, inserted⟩ := IdempotencyBackend.Step.stored_of_new (And.right effect)
        exact ⟨nowSecs, Option.some.inj (stored.symm.trans inserted)⟩

/-- A request whose next call completes a key. -/
def completes (key : String) : Thread gatewaySignature Unit → Bool
  | .running (.call (.complete completed _ _ _ _) _) => completed = key
  | _ => false

/-- A request that is about to complete a key can do so, and leaves its response there. -/
theorem step_of_completes {thread : ι} {key : String}
    (isNext : completes key (config.threads thread) = true) (nowSecs : Nat) :
    ∃ hlc statusCode headers body config',
      (engineSystem (.memory memory) proxy visits).Step config
        (.perform thread ⟨.complete key hlc statusCode headers body, ()⟩) config' ∧
      (IdempotencyBackend.memory memory).stored config'.moment.shared key =
        some (.completed hlc statusCode (headerPairs headers) body nowSecs) := by
  unfold completes at isNext
  split at isNext
  · rename_i completed hlc statusCode headers body next running
    obtain rfl := of_decide_eq_true isNext
    have runs : MemoryState.step memory nowSecs (.complete completed hlc statusCode headers body)
        config.moment.shared.val = _ :=
      MemoryState.step_complete config.moment.shared.property completed hlc statusCode headers body
    have effect : callMeaning (IdempotencyBackend.memory memory).Step
        (.complete completed hlc statusCode headers body) config.moment.shared ()
        (memoryReply memory nowSecs (.complete completed hlc statusCode headers body)
          config.moment.shared).2 := by
      refine ⟨trivial, nowSecs, Prod.ext ?_ rfl⟩
      rw [runs]
      rfl
    refine ⟨hlc, statusCode, headers, body, _, .perform running effect, ?_⟩
    have stored := congrArg (fun after => MemoryState.stored memory after.2 completed) runs
    exact stored.trans (MemoryState.stored_putKey_self _)
  · cases isNext

/-- The step gives a key to a request. -/
def givesKey (thread : ι) (key : String) : GatewayLabel ι String → Bool
  | .perform other ⟨.checkOrInsert claimed _, outcome⟩ =>
    other = thread && claimed = key && match (outcome : IdempotencyOutcome) with
      | .new => true
      | .conflict _ | .replay _ _ _ _ => false
  | _ => false

theorem exists_givesKey {thread : ι} {key : String} {label : GatewayLabel ι String}
    (gives : givesKey thread key label = true) : ∃ hlc, GivesKey thread key hlc label := by
  unfold givesKey at gives
  split at gives
  · rename_i other claimed hlc outcome
    obtain ⟨same, isNew⟩ := Bool.and_eq_true_iff.mp gives
    obtain ⟨sameThread, sameKey⟩ := Bool.and_eq_true_iff.mp same
    obtain rfl := of_decide_eq_true sameThread
    obtain rfl := of_decide_eq_true sameKey
    cases outcome with
    | new => exact ⟨hlc, rfl⟩
    | conflict _ | replay _ _ _ _ => cases isNew
  · cases gives

/-- After a key has been given away its record is not that of another request. -/
theorem not_inserted_of_given {thread other : ι} {key : String}
    (isGiven : config.moment.history.getLast?.any (givesKey other key) = true) (different : thread ≠ other) :
    ¬ Inserted (.memory memory) proxy visits thread key config := by
  have last : ∀ {before : Config gatewaySignature ι String (IdempotencyBackend.memory memory).State Unit}
      {label : GatewayLabel ι String},
      (engineSystem (.memory memory) proxy visits).Step before label config →
      ∃ hlc, GivesKey other key hlc label := by
    intro before label step
    rw [step.history_eq] at isGiven
    exact exists_givesKey (by simpa using isGiven)
  intro inserted
  cases inserted with
  | now _ step given =>
    obtain ⟨hlc, alsoGiven⟩ := last step
    cases given.symm.trans alsoGiven
    exact different rfl
  | earlier _ step notGiven _ =>
    obtain ⟨hlc, alsoGiven⟩ := last step
    exact notGiven other hlc alsoGiven

end Payments

/-- A payment up to the call that completes its key. -/
def upToCompletion {ι : Type} (thread : ι) : List (Move ι String Nat) := List.replicate 5 (.thread thread 0)

/-- The record of a payment is its own when it completes the key. -/
theorem settles_own_record_one_payment : ∃ config,
    (IdempotencyBackend.memory plainBackend).stored config.moment.shared "order-7" =
        some (.inProgress ⟨1000, 0⟩ 0) ∧
      Inserted (.memory plainBackend) smallProxy (fun _ : Unit => payVisit "Bearer a") () "order-7"
        config := by
  have paid : ((requestScheduler plainBackend smallProxy fun _ : Unit => payVisit "Bearer a").run
      (upToCompletion ()) (System.initial (IdempotencyBackend.memory plainBackend).initial)).any
      (fun config => completes "order-7" (config.threads ()) &&
        (IdempotencyBackend.memory plainBackend).stored config.moment.shared "order-7" ==
          some (.inProgress ⟨1000, 0⟩ 0)) = true := by decide +kernel
  obtain ⟨config, runs, checked⟩ := (Option.any_eq_true _ _).mp paid
  obtain ⟨isNext, found⟩ := Bool.and_eq_true_iff.mp checked
  have found := eq_of_beq found
  have reaches := (requestScheduler ..).run_reaches _ .initial runs
  obtain ⟨hlc, statusCode, headers, body, config', step, stored⟩ := step_of_completes isNext 0
  refine ⟨config, found, ?_⟩
  have changes := settles_own_record (.memory plainBackend) trivial smallProxy _ config config'
    (reachesBy_of_single reaches) () (.complete "order-7" hlc statusCode headers body) ()
    (.complete "order-7" hlc statusCode headers body) step rfl nofun
  refine changes _ found fun unchanged => ?_
  cases stored.symm.trans unchanged

/-- The first payment is slow; the second one comes after the lease has ended. -/
def slowAndNext : Bool → Visit
  | false => payVisit "Bearer a"
  | true => { payVisit "Bearer a" with arrival := { (payVisit "Bearer a").arrival with hlc := ⟨400000, 0⟩ } }

/-- The slow payment completes the key of the next one. -/
theorem slow_request_overwrites : ∃ config config' hlc statusCode headers body,
    (engineSystem (.memory plainBackend) smallProxy slowAndNext).Reaches
      (IdempotencyBackend.memory plainBackend).initial config ∧
    (engineSystem (.memory plainBackend) smallProxy slowAndNext).Step config
      (.perform false ⟨.complete "order-7" hlc statusCode headers body, ()⟩) config' ∧
    ¬ ChangesOwnRecord (.memory plainBackend) smallProxy slowAndNext config config' false
      (.complete "order-7" hlc statusCode headers body) := by
  have overtaken : ((requestScheduler plainBackend smallProxy slowAndNext).run
      (upToCompletion false ++ List.replicate 2 (.thread true 400))
      (System.initial (IdempotencyBackend.memory plainBackend).initial)).any
      (fun config => completes "order-7" (config.threads false) &&
        ((IdempotencyBackend.memory plainBackend).stored config.moment.shared "order-7" ==
          some (.inProgress ⟨400000, 0⟩ 400) &&
        config.moment.history.getLast?.any (givesKey true "order-7"))) = true := by decide +kernel
  obtain ⟨config, runs, checked⟩ := (Option.any_eq_true _ _).mp overtaken
  obtain ⟨isNext, checked⟩ := Bool.and_eq_true_iff.mp checked
  obtain ⟨found, isGiven⟩ := Bool.and_eq_true_iff.mp checked
  have reaches := (requestScheduler ..).run_reaches _ .initial runs
  obtain ⟨hlc, statusCode, headers, body, config', step, stored⟩ := step_of_completes isNext 400
  refine ⟨config, config', hlc, statusCode, headers, body, reaches, step, fun changes => ?_⟩
  have inserted : Inserted (.memory plainBackend) smallProxy slowAndNext false "order-7" config := by
    refine changes _ (eq_of_beq found) fun unchanged => ?_
    cases stored.symm.trans unchanged
  exact not_inserted_of_given isGiven Bool.false_ne_true inserted

end SpectraGQL.Gateway
