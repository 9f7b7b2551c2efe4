import SpectraGQL.Gateway.Requests

/-! # Whose response a replay is

The keys of all requests are in one space.  An explicit key is taken as the client sends it,
and a fingerprint is taken of what the request says of its client, which is the same for all
requests without an `x-forwarded-for` header.  `replay_isolated` says under which condition
a replay nevertheless answers with a response to the same question of the same caller.
-/

namespace SpectraGQL.Gateway

open Interaction SpectraGQL.Core SpectraGQL.Http SpectraGQL.Protocol SpectraGQL.Interceptors
open SpectraGQL.Telemetry SpectraGQL.Idempotency

/-- Who asks what: the app, the credentials and the body of a request. -/
structure Asker where
  appId : String
  authorization : Option HeaderValue
  body : Bytes
  deriving DecidableEq

def Visit.exchange (proxy : CompositeServiceProxy) (visit : Visit) : Exchange :=
  admitted proxy visit.dynamic visit.arrival

def Visit.asker (proxy : CompositeServiceProxy) (visit : Visit) : Asker where
  appId := (visit.exchange proxy).ctx.appId
  authorization := (visit.exchange proxy).session.reqHeader.headers.get "authorization"
  body := (visit.exchange proxy).session.chunks.flatten

/-! ## Where a key comes from -/

inductive KeySource where
  | explicit (key : String)
  | fingerprint (text : String)

namespace KeySource

def key (crates : Crates) : KeySource → String
  | .explicit key => key
  | .fingerprint text => fingerprintKey crates text

/-- Sources that give one key: the same source, or an explicit key that is a fingerprint. -/
def Coincide (crates : Crates) : KeySource → KeySource → Prop
  | .explicit first, .explicit second => first = second
  | .fingerprint first, .fingerprint second => first = second
  | .explicit key, .fingerprint text => key = fingerprintKey crates text
  | .fingerprint text, .explicit key => fingerprintKey crates text = key

end KeySource

def Visit.keySource (proxy : CompositeServiceProxy) (visit : Visit) : Option KeySource :=
  (explicitKey (visit.exchange proxy).session).map KeySource.explicit <|>
    (fingerprinted proxy visit.dynamic (visit.exchange proxy)).map KeySource.fingerprint

theorem Visit.key_eq (proxy : CompositeServiceProxy) (visit : Visit) :
    visit.key proxy = (visit.keySource proxy).map (KeySource.key proxy.crates) := by
  unfold Visit.key Arrival.key resolvedKey Visit.keySource Visit.exchange
  cases explicitKey (admitted proxy visit.dynamic visit.arrival).session with
  | some key => rfl
  | none =>
    cases fingerprinted proxy visit.dynamic (admitted proxy visit.dynamic visit.arrival) <;> rfl

section Separation

variable {ι ε : Type} (proxy : CompositeServiceProxy) (visits : ι → Visit)
  (history : List (GatewayLabel ι ε))

/-- The texts that the requests of a run are known by have different hashes. -/
def CollisionFree : Prop :=
  ∀ first second text other, .start first ∈ history → .start second ∈ history →
    (visits first).keySource proxy = some (.fingerprint text) →
    (visits second).keySource proxy = some (.fingerprint other) →
    proxy.crates.sha256 (asBytes text) = proxy.crates.sha256 (asBytes other) → text = other

/-- Requests of a run whose keys have coinciding sources ask the same, for the same caller. -/
def KeysSeparate : Prop :=
  ∀ first second source other, .start first ∈ history → .start second ∈ history →
    (visits first).keySource proxy = some source → (visits second).keySource proxy = some other →
    source.Coincide proxy.crates other → (visits first).asker proxy = (visits second).asker proxy

variable {proxy visits history}

/-- Under one key there is one asker. -/
theorem asker_eq_of_key (collisionFree : CollisionFree proxy visits history)
    (separate : KeysSeparate proxy visits history) {first second : ι} {key : String}
    (started : .start first ∈ history) (alsoStarted : .start second ∈ history)
    (firstKey : (visits first).key proxy = some key)
    (secondKey : (visits second).key proxy = some key) :
    (visits first).asker proxy = (visits second).asker proxy := by
  rw [Visit.key_eq] at firstKey secondKey
  obtain ⟨source, isSource, gives⟩ := Option.map_eq_some_iff.mp firstKey
  obtain ⟨other, isOther, alsoGives⟩ := Option.map_eq_some_iff.mp secondKey
  have same : source.key proxy.crates = other.key proxy.crates := gives.trans alsoGives.symm
  refine separate first second source other started alsoStarted isSource isOther ?_
  cases source with
  | explicit key =>
    cases other with
    | explicit other => exact same
    | fingerprint text => exact same
  | fingerprint text =>
    cases other with
    | explicit other => exact same
    | fingerprint other =>
      refine collisionFree first second text other started alsoStarted isSource isOther ?_
      exact String.append_right_inj _ |>.mp same

end Separation

/-! ## What is stored has been produced -/

section Provenance

variable {ι : Type} {backend : IdempotencyBackend} {proxy : CompositeServiceProxy}
  {visits : ι → Visit}

/-- A request has completed a key with the response of a record. -/
def Produced (history : List (GatewayLabel ι String)) (key : String) : IdempotencyRecord → Prop
  | .inProgress _ _ => True
  | .completed hlc statusCode headers body _ => ∃ thread sent,
      .perform thread ⟨.complete key hlc statusCode sent body, ()⟩ ∈ history ∧
      headers = headerPairs sent

theorem Produced.later {history : List (GatewayLabel ι String)} {key : String}
    {record : IdempotencyRecord} (produced : Produced history key record)
    (label : GatewayLabel ι String) : Produced (history ++ [label]) key record := by
  cases record with
  | inProgress _ _ => trivial
  | completed hlc statusCode headers body completedAtSecs =>
    obtain ⟨thread, sent, member, same⟩ := produced
    exact ⟨thread, sent, List.mem_append_left _ member, same⟩

/-- All completed records have been produced by a request. -/
theorem produced_of_stored [DecidableEq ι] (roundTrips : backend.RoundTrips)
    {config : Config gatewaySignature ι String backend.State Unit}
    (reaches : (engineSystem backend proxy visits).Reaches backend.initial config) {key : String}
    {record : IdempotencyRecord} (stored : backend.stored config.moment.shared key = some record) :
    Produced config.moment.history key record := by
  induction reaches generalizing record with
  | initial =>
    rw [System.initial, IdempotencyBackend.stored_initial] at stored
    cases stored
  | @step config config' label earlier step inductionHypothesis =>
    rw [step.history_eq]
    have kept : backend.stored config'.moment.shared key = backend.stored config.moment.shared key →
        Produced (config.moment.history ++ [label]) key record := fun same =>
      (inductionHypothesis (same.symm.trans stored)).later label
    have lost : backend.stored config'.moment.shared key ≠ none := by simp [stored]
    rcases engine_of_step step with
      ⟨thread, call, answer, operation, rfl, isOperation, effect⟩ | ⟨redisKey, -, expires⟩ | ⟨-, same⟩
    · have acts := effect.acts roundTrips
      by_cases mine : key = operation.key
      · subst mine
        have onKey := acts.onKey
        rw [stored] at onKey
        generalize found : backend.stored config.moment.shared operation.key = before at onKey
        generalize replyOf call answer = reply at onKey
        -- of all that leaves a record on the key, only a completion makes a completed one
        cases onKey with
        | granted key hlc nowSecs => trivial
        | completed key hlc statusCode headers body nowSecs =>
          obtain rfl := GatewayCall.eq_complete isOperation
          exact ⟨thread, headers, List.mem_append_right _ (List.mem_singleton.mpr rfl), rfl⟩
        | seen _ _ | grantedOpenly _ _ | notCompleted _ _ _ _ _ | notRemoved _ =>
          exact (inductionHypothesis found).later _
      · exact kept ((acts.elsewhere key mine).resolve_right lost)
    · exact kept ((expires.onlyLoses key).resolve_right lost)
    · exact kept (by rw [same])

/-- A replay answers with a completed record. -/
theorem stored_of_replay {key : String} {hlc : HlcTimestamp} {before after : Option IdempotencyRecord}
    {holder : HlcTimestamp} {statusCode : UInt16} {headers : List (String × String)} {body : String}
    (effect : KeyEffect (.checkOrInsert key hlc) before
      (.outcome (.replay holder statusCode headers body)) after) :
    ∃ completedAtSecs, before = some (.completed holder statusCode headers body completedAtSecs) := by
  rcases effect.of_claim with ⟨isNew, -⟩ | ⟨record, found, -, told⟩
  · cases isNew
  · cases record with
    | inProgress _ _ => cases told
    | completed _ _ _ _ completedAtSecs =>
      cases told
      exact ⟨completedAtSecs, found⟩

end Provenance

section Isolation

variable {ι : Type}

/-- Whenever a request is told to replay a response, an earlier request that asked the same
    for the same caller has produced that response. -/
def ReplaysIsolated (proxy : CompositeServiceProxy) (visits : ι → Visit)
    (history : List (GatewayLabel ι String)) : Prop :=
  ∀ past future thread key hlc holder statusCode headers body,
    history = past ++ .perform thread
      ⟨.checkOrInsert key hlc, IdempotencyOutcome.replay holder statusCode headers body⟩ :: future →
    ∃ other sent, .perform other ⟨.complete key holder statusCode sent body, ()⟩ ∈ past ∧
      headers = headerPairs sent ∧ (visits other).asker proxy = (visits thread).asker proxy

variable [DecidableEq ι]

/-- Replays are isolated in every run whose requests ask the same for the same caller
    wherever their keys have coinciding sources. -/
theorem replay_isolated (backend : IdempotencyBackend) (roundTrips : backend.RoundTrips)
    (proxy : CompositeServiceProxy) (visits : ι → Visit)
    (config : Config gatewaySignature ι String backend.State Unit)
    (reaches : (engineSystem backend proxy visits).Reaches backend.initial config)
    (collisionFree : CollisionFree proxy visits config.moment.history)
    (separate : KeysSeparate proxy visits config.moment.history) :
    ReplaysIsolated proxy visits config.moment.history := by
  intro past future thread key hlc holder statusCode headers body split
  obtain ⟨before, after, reached, rfl, step⟩ := reaches.step_at split
  -- the replay is that of a record which some request has produced
  have claimed : (visits thread).key proxy = some key :=
    (KeyPhase.resolved_of_claims (allowed_of_step reached step)).2.1
  have produced : ∃ other sent, .perform other ⟨.complete key holder statusCode sent body, ()⟩ ∈
      before.moment.history ∧ headers = headerPairs sent := by
    cases step with
    | perform running effect =>
      have acts := IdempotencyBackend.Step.acts roundTrips (And.right effect)
      obtain ⟨completedAtSecs, found⟩ := stored_of_replay acts.onKey
      exact produced_of_stored roundTrips reached found
  obtain ⟨other, sent, member, same⟩ := produced
  refine ⟨other, sent, member, same, ?_⟩
  -- that request has claimed the same key
  obtain ⟨front, back, earlier⟩ := List.append_of_mem member
  obtain ⟨start, finish, reachedStart, -, completes⟩ := reached.step_at earlier
  have alsoClaimed : (visits other).key proxy = some key :=
    key_of_operation reachedStart completes rfl
  have whole : before.moment.history ⊆ config.moment.history := by
    rw [split]
    exact List.subset_append_left _ _
  have now : .perform thread ⟨.checkOrInsert key hlc,
      IdempotencyOutcome.replay holder statusCode headers body⟩ ∈ config.moment.history := by
    rw [split]
    exact List.mem_append_right _ List.mem_cons_self
  exact asker_eq_of_key collisionFree separate (whole (reached.start_mem member rfl))
    (reaches.start_mem now rfl) alsoClaimed claimed

end Isolation

/-! ## Two payments under one key -/

/-- A payment with a key of the client's choice and a token. -/
def payVisit (token : String) : Visit :=
  ⟨smallDynamic [] [], smallArrival .post [keyHeader, ("authorization", .ofString token)] payBody⟩

/-- The calls of the first payment to its end, then the start and the claim of the second. -/
def oneAfterTheOther : List (Move Bool String Nat) :=
  List.replicate 8 (.thread false 0) ++ List.replicate 2 (.thread true 0)

/-- The configuration that these calls lead to. -/
def afterPayments (visits : Bool → Visit) :
    Option (Config gatewaySignature Bool String (IdempotencyBackend.memory plainBackend).State Unit) :=
  (requestScheduler plainBackend smallProxy visits).run oneAfterTheOther
    (System.initial (IdempotencyBackend.memory plainBackend).initial)

def isReplayTo (thread : Bool) : GatewayLabel Bool String → Bool
  | .perform other ⟨.checkOrInsert _ _, outcome⟩ =>
    other = thread && match (outcome : IdempotencyOutcome) with
      | .replay _ _ _ _ => true
      | .new | .conflict _ => false
  | _ => false

def completer? : GatewayLabel Bool String → Option Bool
  | .perform thread ⟨.complete _ _ _ _ _, _⟩ => some thread
  | _ => none

/-- The last step is a replay to a request, and nobody who asks as it does has completed a
    key before. -/
def isForeignReplay (visits : Bool → Visit) (thread : Bool) (history : List (GatewayLabel Bool String)) :
    Bool :=
  history.getLast?.any (isReplayTo thread) &&
    (history.dropLast.filterMap completer?).all fun other =>
      (visits other).asker smallProxy ≠ (visits thread).asker smallProxy

theorem not_isolated_of_foreign {visits : Bool → Visit} {thread : Bool}
    {history : List (GatewayLabel Bool String)} (isForeign : isForeignReplay visits thread history = true) :
    ¬ ReplaysIsolated smallProxy visits history := by
  obtain ⟨replays, foreign⟩ := Bool.and_eq_true_iff.mp isForeign
  intro isolated
  cases isLast : history.getLast? with
  | none => simp [isLast] at replays
  | some label =>
    rw [isLast] at replays
    have split : history = history.dropLast ++ [label] :=
      (List.dropLast_append_getLast? label isLast).symm
    unfold isReplayTo at replays
    simp only [Option.any_some] at replays
    split at replays
    · rename_i other key hlc outcome
      obtain ⟨mine, replays⟩ := Bool.and_eq_true_iff.mp replays
      cases outcome with
      | new | conflict _ => cases replays
      | replay holder statusCode headers body =>
        obtain ⟨producer, sent, member, -, same⟩ :=
          isolated history.dropLast [] other key hlc holder statusCode headers body split
        have completes : producer ∈ history.dropLast.filterMap completer? :=
          List.mem_filterMap.mpr ⟨_, member, rfl⟩
        have differs := List.all_eq_true.mp foreign producer completes
        simp [same, of_decide_eq_true mine] at differs
    · cases replays

/-- A caller pays again under the same key: the response is the one it has had. -/
theorem replay_isolated_one_caller : ∃ config,
    (engineSystem (.memory plainBackend) smallProxy fun _ => payVisit "Bearer a").Reaches
      (IdempotencyBackend.memory plainBackend).initial config ∧
    config.moment.history.getLast?.any (isReplayTo true) = true ∧
    ReplaysIsolated smallProxy (fun _ => payVisit "Bearer a") config.moment.history := by
  have replayed : (afterPayments fun _ => payVisit "Bearer a").any
      (fun config => config.moment.history.getLast?.any (isReplayTo true)) = true := by decide +kernel
  obtain ⟨config, runs, isReplay⟩ := (Option.any_eq_true _ _).mp replayed
  have reaches := (requestScheduler ..).run_reaches _ .initial runs
  have source : (payVisit "Bearer a").keySource smallProxy = some (.explicit "order-7") := by rfl
  refine ⟨config, reaches, isReplay,
    replay_isolated (.memory plainBackend) trivial smallProxy _ config reaches ?_ ?_⟩
  · intro _ _ text _ _ _ isText
    cases source.symm.trans isText
  · intro _ _ _ _ _ _ _ _ _
    rfl

/-- Two callers, who choose the same key. -/
def twoCallers : Bool → Visit
  | false => payVisit "Bearer a"
  | true => payVisit "Bearer b"

/-- The second caller gets the response to the first. -/
theorem replay_crosses_principals : ∃ config,
    (engineSystem (.memory plainBackend) smallProxy twoCallers).Reaches
      (IdempotencyBackend.memory plainBackend).initial config ∧
    ¬ ReplaysIsolated smallProxy twoCallers config.moment.history := by
  have foreign : (afterPayments twoCallers).any
      (fun config => isForeignReplay twoCallers true config.moment.history) = true := by decide +kernel
  obtain ⟨config, runs, isForeign⟩ := (Option.any_eq_true _ _).mp foreign
  exact ⟨config, (requestScheduler ..).run_reaches _ .initial runs, not_isolated_of_foreign isForeign⟩

end SpectraGQL.Gateway
