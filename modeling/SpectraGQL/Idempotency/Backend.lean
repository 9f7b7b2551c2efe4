import SpectraGQL.Idempotency.Eviction
import SpectraGQL.Idempotency.RecordJson

/-! # Both backends as one engine (`idempotency/mod.rs`)

What a run of the gateway can see of its engine: the records under the keys, and what an
operation does to them when it takes effect.  `Acts` is the common ground of the backends.
An operation acts on its own key as it should, or not at all where Redis fails; the records
of other keys may be lost, which is how expiry and eviction look from here.

An operation on the memory backend holds the lock of its key throughout.  One on Redis is
several commands, among those of others; `RedisBackend.acts_at_once` says that only one of
them touches the store, so that the operation takes effect there.
-/

namespace SpectraGQL.Idempotency

open SpectraGQL.Core SpectraGQL.Http
open Interaction Data

/-! ## What an operation may do -/

/-- What an operation does to the record of its own key. -/
inductive KeyEffect : Operation → Option IdempotencyRecord → Reply → Option IdempotencyRecord → Prop where
  | granted (key : String) (hlc : HlcTimestamp) (nowSecs : Nat) (before : Option IdempotencyRecord) :
      KeyEffect (.checkOrInsert key hlc) before (.outcome .new) (some (.inProgress hlc nowSecs))
  | seen (key : String) (hlc : HlcTimestamp) (record : IdempotencyRecord) :
      KeyEffect (.checkOrInsert key hlc) (some record) (.outcome record.outcome) (some record)
  /-- Redis failed, and the request goes on without a record. -/
  | grantedOpenly (key : String) (hlc : HlcTimestamp) (before : Option IdempotencyRecord) :
      KeyEffect (.checkOrInsert key hlc) before (.outcome .new) before
  | completed (key : String) (hlc : HlcTimestamp) (statusCode : UInt16) (headers : HeaderMap)
      (body : String) (nowSecs : Nat) (before : Option IdempotencyRecord) :
      KeyEffect (.complete key hlc statusCode headers body) before .done
        (some (.completed hlc statusCode (headerPairs headers) body nowSecs))
  | notCompleted (key : String) (hlc : HlcTimestamp) (statusCode : UInt16) (headers : HeaderMap)
      (body : String) (before : Option IdempotencyRecord) :
      KeyEffect (.complete key hlc statusCode headers body) before .done before
  | removed (key : String) (before : Option IdempotencyRecord) :
      KeyEffect (.remove key) before .done none
  | notRemoved (key : String) (before : Option IdempotencyRecord) :
      KeyEffect (.remove key) before .done before

/-- A claim is granted, with a record or openly, or the record under the key is told. -/
theorem KeyEffect.of_claim {key : String} {hlc : HlcTimestamp} {before after : Option IdempotencyRecord}
    {outcome : IdempotencyOutcome}
    (effect : KeyEffect (.checkOrInsert key hlc) before (.outcome outcome) after) :
    (outcome = .new ∧ ((∃ nowSecs, after = some (.inProgress hlc nowSecs)) ∨ after = before)) ∨
      ∃ record, before = some record ∧ after = some record ∧ outcome = record.outcome := by
  generalize isReply : Reply.outcome outcome = reply at effect
  cases effect with
  | granted _ _ nowSecs _ =>
    cases isReply
    exact .inl ⟨rfl, .inl ⟨nowSecs, rfl⟩⟩
  | grantedOpenly _ _ _ =>
    cases isReply
    exact .inl ⟨rfl, .inr rfl⟩
  | seen _ _ record =>
    cases isReply
    exact .inr ⟨record, rfl, rfl, rfl⟩

/-- Only a remove deletes the record of its key. -/
theorem KeyEffect.of_lost {operation : Operation} {record : IdempotencyRecord} {reply : Reply}
    (effect : KeyEffect operation (some record) reply none) : operation = .remove operation.key := by
  cases effect with
  | removed key _ => rfl

/-- Records may have gone, and nothing else has changed. -/
def OnlyLoses (before after : IdempotencyMap) : Prop := ∀ key, after key = before key ∨ after key = none

/-- What an operation does to the records of an engine. -/
structure Acts (operation : Operation) (before : IdempotencyMap) (reply : Reply)
    (after : IdempotencyMap) : Prop where
  onKey : KeyEffect operation (before operation.key) reply (after operation.key)
  elsewhere : ∀ key, key ≠ operation.key → after key = before key ∨ after key = none

/-! ## The memory backend -/

namespace MemoryState

variable (backend : MemoryBackend) {state : MemoryState Unit}

/-- Putting a record under a key may cost another key its record. -/
theorem onlyLoses_putKey (room : MemoryState Unit) (other : String) (record : IdempotencyRecord)
    {key : String} (different : key ≠ other) :
    stored backend (room.putKey (backend.shardOf other) other record) key = stored backend room key ∨
      stored backend (room.putKey (backend.shardOf other) other record) key = none := by
  by_cases sameShard : backend.shardOf other = backend.shardOf key
  · rw [stored, sameShard]
    simp only [putKey, setShard, Function.update_self, LruCache.peek_put, different, if_false]
    split
    · unfold LruCache.makeRoom
      split
      · exact .inl rfl
      · rw [LruCache.peek_dropOldest]
        split
        · exact .inr rfl
        · exact .inl rfl
    · exact .inl rfl
  · exact .inl (by simp [stored, putKey, Ne.symm sameShard])

theorem step_acts (unlocked : state.Unlocked) (nowSecs : Nat) (operation : Operation) :
    Acts operation (stored backend state) (step backend nowSecs operation state).1
      (stored backend (step backend nowSecs operation state).2) := by
  cases operation with
  | remove key =>
    rw [step_remove unlocked]
    constructor
    · simp only [Operation.key, stored_popKey, if_true]
      exact .removed key _
    · intro other different
      rw [stored_popKey]
      exact .inl (if_neg different)
  | complete key hlc statusCode headers body =>
    rw [step_complete unlocked]
    constructor
    · simp only [Operation.key, stored_putKey_self]
      exact .completed key hlc statusCode headers body nowSecs _
    · exact fun other different => onlyLoses_putKey backend state key _ different
  | checkOrInsert key hlc =>
    -- a live record is only used; any other makes room for the new one, at another's expense perhaps
    by_cases live : ∃ seen, stored backend state key = some seen ∧ seen.Live backend.ttlSecs nowSecs
    · obtain ⟨seen, found, isLive⟩ := live
      rw [step_checkOrInsert_live unlocked hlc found isLive]
      constructor
      · simp only [Operation.key, stored_useKey, found]
        exact .seen key hlc seen
      · exact fun other _ => .inl (stored_useKey _)
    · obtain ⟨room, runs, effect⟩ := step_checkOrInsert_new unlocked nowSecs hlc
        fun seen isSeen isLive => live ⟨seen, isSeen, isLive⟩
      rw [runs]
      constructor
      · simp only [Operation.key, stored_putKey_self]
        exact .granted key hlc nowSecs _
      · intro other different
        rcases onlyLoses_putKey backend room key (.inProgress hlc nowSecs) different with
          kept | lost
        · rcases effect with ⟨rfl, -⟩ | ⟨-, shard, victim, -, -, rfl⟩
          · exact .inl (kept.trans (stored_useKey _))
          · rw [stored_dropOldest] at kept
            split at kept
            · exact .inr kept
            · exact .inl (kept.trans (stored_useKey _))
        · exact .inr lost

/-- Who is given a key has its record stored. -/
theorem stored_of_new (unlocked : state.Unlocked) {nowSecs : Nat} {key : String} {hlc : HlcTimestamp}
    (isNew : (step backend nowSecs (.checkOrInsert key hlc) state).1 = .outcome .new) :
    stored backend (step backend nowSecs (.checkOrInsert key hlc) state).2 key =
      some (.inProgress hlc nowSecs) := by
  by_cases live : ∃ seen, stored backend state key = some seen ∧ seen.Live backend.ttlSecs nowSecs
  · obtain ⟨seen, found, isLive⟩ := live
    rw [step_checkOrInsert_live unlocked hlc found isLive] at isNew
    exact absurd (Reply.outcome.inj isNew) seen.outcome_ne_new
  · obtain ⟨room, runs, -⟩ := step_checkOrInsert_new unlocked nowSecs hlc
      fun seen isSeen isLive => live ⟨seen, isSeen, isLive⟩
    rw [runs]
    exact stored_putKey_self _

end MemoryState

/-! ## The Redis backend -/

/-- The answers that say a command has failed. -/
def RedisCall.Fails : (call : RedisCall) → call.Answer → Prop
  | .currentUnixSecs, _ => False
  | .getConnection, connected => connected = false
  | .setNxEx _ _ _, answer => answer = .error ()
  | .get _, answer => answer = .error ()
  | .setEx _ _ _, answer => answer = .error ()
  | .del _, answer => answer = .error ()

/-- A command succeeds, or it fails, having reached the server or not. -/
def RedisStore.mayAnswer : Semantics redisSignature RedisStore := fun call before answer after =>
  (∃ nowSecs, (answer, after) = RedisStore.apply nowSecs call before) ∨
    call.Fails answer ∧ (after = before ∨ ∃ nowSecs, after = (RedisStore.apply nowSecs call before).2)

namespace RedisBackend

variable (backend : RedisBackend)

/-- The record under a key. -/
def stored (store : RedisStore) (key : String) : Option IdempotencyRecord :=
  (store (backend.redisKey key)).bind fun entry => backend.codec.fromStr entry.value

/-- Among the commands of others the operation runs to its end with `reply`.  The last of its
    commands takes the store from `before` to `after`; those before it leave the store alone. -/
def TakesEffect (operation : Operation) (before : RedisStore) (reply : Reply) (after : RedisStore) :
    Prop :=
  ∃ front : List (RedisStore × RedisStore),
    Prog.RunsAmong RedisStore.mayAnswer (backend.program operation) (front ++ [(before, after)]) reply ∧
    ∀ step ∈ front, step.2 = step.1

end RedisBackend

/-! What each command can do. -/

namespace RedisStore

variable {before after : RedisStore} {key value : String} {ttlSecs : Nat}

theorem mayAnswer_currentUnixSecs {nowSecs : Nat}
    (effect : mayAnswer .currentUnixSecs before nowSecs after) : after = before := by
  rcases effect with ⟨_, same⟩ | ⟨fails, -⟩
  · exact (Prod.mk.inj same).2
  · exact fails.elim

theorem mayAnswer_getConnection {connected : Bool}
    (effect : mayAnswer .getConnection before connected after) : after = before := by
  rcases effect with ⟨_, same⟩ | ⟨-, same | ⟨_, same⟩⟩
  · exact (Prod.mk.inj same).2
  · exact same
  · exact same

theorem mayAnswer_setNxEx {answer : Except Unit Bool}
    (effect : mayAnswer (.setNxEx key value ttlSecs) before answer after) :
    (∃ expiresAt, answer ≠ .ok false ∧
      after = Function.update before key (some ⟨value, expiresAt⟩)) ∨
    answer ≠ .ok true ∧ after = before := by
  -- a call that fails may have been carried out all the same
  cases found : before key with
  | none =>
    have applied : ∀ nowSecs, apply nowSecs (.setNxEx key value ttlSecs) before =
        (.ok true, Function.update before key (some ⟨value, nowSecs + ttlSecs⟩)) := by
      intro nowSecs
      simp only [apply, found]
    rcases effect with ⟨nowSecs, same⟩ | ⟨fails, same | ⟨nowSecs, same⟩⟩
    · rw [applied nowSecs] at same
      obtain ⟨isTrue, written⟩ := Prod.mk.inj same
      exact .inl ⟨_, by simp [isTrue], written⟩
    · exact .inr ⟨by simp [show answer = _ from fails], same⟩
    · rw [applied nowSecs] at same
      exact .inl ⟨_, by simp [show answer = _ from fails], same⟩
  | some entry =>
    have applied : ∀ nowSecs, apply nowSecs (.setNxEx key value ttlSecs) before =
        (.ok false, before) := by
      intro nowSecs
      simp only [apply, found]
    right
    rcases effect with ⟨nowSecs, same⟩ | ⟨fails, same | ⟨nowSecs, same⟩⟩
    · rw [applied nowSecs] at same
      obtain ⟨isFalse, kept⟩ := Prod.mk.inj same
      exact ⟨by simp [isFalse], kept⟩
    · exact ⟨by simp [show answer = _ from fails], same⟩
    · rw [applied nowSecs] at same
      exact ⟨by simp [show answer = _ from fails], same⟩

theorem mayAnswer_get {answer : Except Unit (Option String)}
    (effect : mayAnswer (.get key) before answer after) :
    after = before ∧ ∀ text, answer = .ok (some text) →
      ∃ entry, before key = some entry ∧ entry.value = text := by
  rcases effect with ⟨_, same⟩ | ⟨fails, same⟩
  · obtain ⟨rfl, rfl⟩ := Prod.mk.inj same
    refine ⟨rfl, fun text found => ?_⟩
    simpa [apply] using found
  · refine ⟨?_, fun text found => ?_⟩
    · rcases same with same | ⟨_, same⟩
      · exact same
      · exact same
    · rw [show answer = _ from fails] at found
      cases found

theorem mayAnswer_setEx {answer : Except Unit Unit}
    (effect : mayAnswer (.setEx key value ttlSecs) before answer after) :
    (∃ expiresAt, after = Function.update before key (some ⟨value, expiresAt⟩)) ∨ after = before := by
  rcases effect with ⟨nowSecs, same⟩ | ⟨-, same | ⟨nowSecs, same⟩⟩
  · exact .inl ⟨_, (Prod.mk.inj same).2⟩
  · exact .inr same
  · exact .inl ⟨_, same⟩

theorem mayAnswer_del {answer : Except Unit Unit} (effect : mayAnswer (.del key) before answer after) :
    after = Function.update before key none ∨ after = before := by
  rcases effect with ⟨_, same⟩ | ⟨-, same | ⟨_, same⟩⟩
  · exact .inl (Prod.mk.inj same).2
  · exact .inr same
  · exact .inl same

end RedisStore

namespace RedisBackend

variable {backend : RedisBackend} {before after : RedisStore} {operation : Operation} {reply : Reply}

theorem stored_update_of_ne {key other : String} (different : key ≠ other) (entry : Option RedisEntry) :
    backend.stored (Function.update before (backend.redisKey other) entry) key =
      backend.stored before key := by
  have elsewhere : backend.redisKey key ≠ backend.redisKey other :=
    fun same => different (backend.redisKey_injective same)
  simp [stored, elsewhere]

theorem stored_update_self {key text : String} {record : IdempotencyRecord}
    (reads : backend.codec.fromStr text = some record) (expiresAt : Nat) :
    backend.stored (Function.update before (backend.redisKey key) (some ⟨text, expiresAt⟩)) key =
      some record := by
  simp [stored, reads]

theorem onlyLoses_expire (redisKey : String) :
    OnlyLoses (backend.stored before) (backend.stored (Function.update before redisKey none)) := by
  intro key
  by_cases same : backend.redisKey key = redisKey
  · exact .inr (by simp [stored, same])
  · exact .inl (by simp [stored, same])

/-- A command that leaves the store alone acts if its answer is one of a failure. -/
theorem acts_of_same (same : after = before)
    (onKey : KeyEffect operation (backend.stored before operation.key) reply
      (backend.stored before operation.key)) :
    Acts operation (backend.stored before) reply (backend.stored after) := by
  subst same
  exact ⟨onKey, fun key _ => .inl rfl⟩

theorem acts_of_update {entry : Option RedisEntry}
    (onKey : KeyEffect operation (backend.stored before operation.key) reply
      (backend.stored (Function.update before (backend.redisKey operation.key) entry) operation.key)) :
    Acts operation (backend.stored before) reply
      (backend.stored (Function.update before (backend.redisKey operation.key) entry)) :=
  ⟨onKey, fun _ different => .inl (stored_update_of_ne different entry)⟩

/-- All steps but the last leave the store alone, and the last one is that of the operation. -/
def ActsAtLast (backend : RedisBackend) (operation : Operation)
    (steps : List (RedisStore × RedisStore)) (reply : Reply) : Prop :=
  ∃ front before after, steps = front ++ [(before, after)] ∧ (∀ step ∈ front, step.2 = step.1) ∧
    Acts operation (backend.stored before) reply (backend.stored after)

theorem ActsAtLast.cons {steps : List (RedisStore × RedisStore)} (quiet : after = before)
    (acts : ActsAtLast backend operation steps reply) :
    ActsAtLast backend operation ((before, after) :: steps) reply := by
  obtain ⟨front, first, last, rfl, silent, effect⟩ := acts
  exact ⟨(before, after) :: front, first, last, rfl, List.forall_mem_cons.mpr ⟨quiet, silent⟩, effect⟩

theorem actsAtLast_singleton (acts : Acts operation (backend.stored before) reply (backend.stored after)) :
    ActsAtLast backend operation [(before, after)] reply :=
  ⟨[], before, after, rfl, by simp, acts⟩

theorem runsAmong_remove {key : String} {steps : List (RedisStore × RedisStore)}
    (ran : Prog.RunsAmong RedisStore.mayAnswer (backend.program (.remove key)) steps reply) :
    ActsAtLast backend (.remove key) steps reply := by
  cases ran with
  | @call _ _ _ _ connected _ _ step rest =>
    have quiet := RedisStore.mayAnswer_getConnection step
    cases connected with
    | false =>
      cases rest
      exact actsAtLast_singleton (acts_of_same quiet (.notRemoved key _))
    | true =>
      refine .cons quiet ?_
      cases rest with
      | call deletes rest =>
        cases rest
        apply actsAtLast_singleton
        rcases RedisStore.mayAnswer_del deletes with rfl | same
        · apply acts_of_update
          simp only [stored, Operation.key, Function.update_self, Option.bind_none]
          exact .removed key _
        · exact acts_of_same same (.notRemoved key _)

theorem runsAmong_complete (roundTrips : backend.codec.RoundTrips) {key : String} {hlc : HlcTimestamp}
    {statusCode : UInt16} {headers : HeaderMap} {body : String} {steps : List (RedisStore × RedisStore)}
    (ran : Prog.RunsAmong RedisStore.mayAnswer
      (backend.program (.complete key hlc statusCode headers body)) steps reply) :
    ActsAtLast backend (.complete key hlc statusCode headers body) steps reply := by
  -- the clock, the connection, then the write, which is the only step that acts
  cases ran with
  | @call _ _ _ _ nowSecs _ _ clock rest =>
    obtain ⟨text, writes, reads⟩ :=
      roundTrips (.completed hlc statusCode (headerPairs headers) body nowSecs)
    refine .cons (RedisStore.mayAnswer_currentUnixSecs clock) ?_
    simp only [Prog.bind, writes] at rest
    cases rest with
    | @call _ _ _ _ connected _ _ step rest =>
      have quiet := RedisStore.mayAnswer_getConnection step
      cases connected with
      | false =>
        cases rest
        exact actsAtLast_singleton
          (acts_of_same quiet (.notCompleted key hlc statusCode headers body _))
      | true =>
        refine .cons quiet ?_
        cases rest with
        | call sets rest =>
          cases rest
          apply actsAtLast_singleton
          rcases RedisStore.mayAnswer_setEx sets with ⟨expiresAt, rfl⟩ | same
          · apply acts_of_update
            simp only [Operation.key, stored_update_self reads]
            exact .completed key hlc statusCode headers body nowSecs _
          · exact acts_of_same same (.notCompleted key hlc statusCode headers body _)

theorem runsAmong_queryState {key : String} {hlc : HlcTimestamp}
    {steps : List (RedisStore × RedisStore)}
    (ran : Prog.RunsAmong RedisStore.mayAnswer
      (backend.queryState key >>= fun outcome => pure (Reply.outcome outcome)) steps reply) :
    ActsAtLast backend (.checkOrInsert key hlc) steps reply := by
  cases ran with
  | @call _ _ before after answer _ _ asks rest =>
    obtain ⟨same, found⟩ := RedisStore.mayAnswer_get asks
    -- what cannot be read is answered as new, with nothing written
    have openly : Acts (.checkOrInsert key hlc) (backend.stored before) (.outcome .new)
        (backend.stored after) := acts_of_same same (.grantedOpenly key hlc _)
    cases answer with
    | error _ =>
      cases rest
      exact actsAtLast_singleton openly
    | ok value =>
      cases value with
      | none =>
        cases rest
        exact actsAtLast_singleton openly
      | some text =>
        obtain ⟨entry, held, rfl⟩ := found text rfl
        simp only [Prog.bind] at rest
        cases reads : backend.codec.fromStr entry.value with
        | none =>
          rw [reads] at rest
          cases rest
          exact actsAtLast_singleton openly
        | some record =>
          rw [reads] at rest
          cases rest
          have isRecord : backend.stored before key = some record := by simp [stored, held, reads]
          refine actsAtLast_singleton (acts_of_same same ?_)
          rw [Operation.key, isRecord]
          exact .seen key hlc record

theorem runsAmong_checkOrInsert (roundTrips : backend.codec.RoundTrips) {key : String}
    {hlc : HlcTimestamp} {steps : List (RedisStore × RedisStore)}
    (ran : Prog.RunsAmong RedisStore.mayAnswer (backend.program (.checkOrInsert key hlc)) steps reply) :
    ActsAtLast backend (.checkOrInsert key hlc) steps reply := by
  cases ran with
  | @call _ _ _ _ nowSecs _ _ clock rest =>
    obtain ⟨text, writes, reads⟩ := roundTrips (.inProgress hlc nowSecs)
    refine .cons (RedisStore.mayAnswer_currentUnixSecs clock) ?_
    simp only [Prog.bind, writes] at rest
    cases rest with
    | @call _ _ _ _ connected _ _ step rest =>
      have quiet := RedisStore.mayAnswer_getConnection step
      cases connected with
      | false =>
        cases rest
        exact actsAtLast_singleton (acts_of_same quiet (.grantedOpenly key hlc _))
      | true =>
        refine .cons quiet ?_
        cases rest with
        | @call _ _ before after answer _ _ sets rest =>
          have granted : ∀ expiresAt, Acts (.checkOrInsert key hlc) (backend.stored before)
              (.outcome .new) (backend.stored
                (Function.update before (backend.redisKey key) (some ⟨text, expiresAt⟩))) := by
            intro expiresAt
            apply acts_of_update
            simp only [Operation.key, stored_update_self reads]
            exact .granted key hlc nowSecs _
          cases answer with
          | error _ =>
            -- the caller does not know whether its record is stored
            cases rest
            apply actsAtLast_singleton
            rcases RedisStore.mayAnswer_setNxEx sets with ⟨expiresAt, -, rfl⟩ | ⟨-, same⟩
            · exact granted expiresAt
            · exact acts_of_same same (.grantedOpenly key hlc _)
          | ok inserted =>
            rcases RedisStore.mayAnswer_setNxEx sets with ⟨expiresAt, notFalse, rfl⟩ | ⟨notTrue, same⟩
            · cases inserted with
              | false => exact absurd rfl notFalse
              | true =>
                cases rest
                exact actsAtLast_singleton (granted expiresAt)
            · cases inserted with
              | true => exact absurd rfl notTrue
              | false => exact .cons same (runsAmong_queryState rest)

/-- However others interfere, all commands of an operation but the last leave the store alone,
    and the last one does what the operation does. -/
theorem acts_at_once (roundTrips : backend.codec.RoundTrips) {steps : List (RedisStore × RedisStore)}
    (ran : Prog.RunsAmong RedisStore.mayAnswer (backend.program operation) steps reply) :
    ActsAtLast backend operation steps reply := by
  cases operation with
  | remove key => exact runsAmong_remove ran
  | complete key hlc statusCode headers body => exact runsAmong_complete roundTrips ran
  | checkOrInsert key hlc => exact runsAmong_checkOrInsert roundTrips ran

theorem TakesEffect.acts (roundTrips : backend.codec.RoundTrips)
    (takesEffect : backend.TakesEffect operation before reply after) :
    Acts operation (backend.stored before) reply (backend.stored after) := by
  obtain ⟨front, ran, -⟩ := takesEffect
  obtain ⟨_, _, _, same, -, acts⟩ := acts_at_once roundTrips ran
  obtain ⟨-, last⟩ := List.append_inj' same rfl
  cases last
  exact acts

end RedisBackend

/-! ## Either backend -/

inductive IdempotencyBackend where
  | memory (backend : MemoryBackend)
  | redis (backend : RedisBackend)

namespace IdempotencyBackend

/-- Between two operations no lock of the memory backend is taken. -/
def State : IdempotencyBackend → Type
  | .memory _ => { state : MemoryState Unit // state.Unlocked }
  | .redis _ => RedisStore

def initial : (backend : IdempotencyBackend) → backend.State
  | .memory backend => ⟨MemoryState.new backend, fun _ => rfl⟩
  | .redis _ => RedisStore.empty

/-- The records of the engine, whether they are live or not. -/
def stored : (backend : IdempotencyBackend) → backend.State → IdempotencyMap
  | .memory backend, state => MemoryState.stored backend state.val
  | .redis backend, store => backend.stored store

/-- An operation takes effect, at any time. -/
def Step : (backend : IdempotencyBackend) → Operation → backend.State → Reply → backend.State → Prop
  | .memory backend, operation, before, reply, after =>
    ∃ nowSecs, (reply, after.val) = MemoryState.step backend nowSecs operation before.val
  | .redis backend, operation, before, reply, after => backend.TakesEffect operation before reply after

/-- A key of the Redis server expires. -/
def Expires : (backend : IdempotencyBackend) → String → backend.State → backend.State → Prop
  | .memory _, _, _, _ => False
  | .redis _, key, before, after => after = Function.update before key none

/-- The text of a record can be read back. -/
def RoundTrips : IdempotencyBackend → Prop
  | .memory _ => True
  | .redis backend => backend.codec.RoundTrips

theorem roundTrips_memory (memory : MemoryBackend) : (IdempotencyBackend.memory memory).RoundTrips :=
  trivial

variable {backend : IdempotencyBackend} {before after : backend.State}

theorem stored_initial (backend : IdempotencyBackend) (key : String) :
    backend.stored backend.initial key = none := by
  cases backend <;> rfl

theorem Step.acts (roundTrips : backend.RoundTrips) {operation : Operation} {reply : Reply}
    (step : backend.Step operation before reply after) :
    Acts operation (backend.stored before) reply (backend.stored after) := by
  cases backend with
  | memory backend =>
    obtain ⟨nowSecs, same⟩ := step
    have acts := MemoryState.step_acts backend before.property nowSecs operation
    rw [← same] at acts
    exact acts
  | redis backend => exact RedisBackend.TakesEffect.acts roundTrips step

/-! On the memory backend nothing fails. -/

section Memory

variable {memory : MemoryBackend} {before after : (IdempotencyBackend.memory memory).State}
  {key : String} {hlc : HlcTimestamp}

theorem Step.stored_of_new
    (step : (IdempotencyBackend.memory memory).Step (.checkOrInsert key hlc) before (.outcome .new) after) :
    ∃ nowSecs, (IdempotencyBackend.memory memory).stored after key = some (.inProgress hlc nowSecs) := by
  obtain ⟨nowSecs, same⟩ := step
  have isNew := (congrArg Prod.fst same).symm
  have inserted := MemoryState.stored_of_new memory before.property isNew
  rw [← same] at inserted
  exact ⟨nowSecs, inserted⟩

theorem Step.stored_of_complete {statusCode : UInt16} {headers : HeaderMap} {body : String} {reply : Reply}
    (step : (IdempotencyBackend.memory memory).Step (.complete key hlc statusCode headers body) before
      reply after) :
    ∃ nowSecs, (IdempotencyBackend.memory memory).stored after key =
      some (.completed hlc statusCode (headerPairs headers) body nowSecs) := by
  obtain ⟨nowSecs, same⟩ := step
  rw [MemoryState.step_complete before.property] at same
  have left := congrArg (fun ended => MemoryState.stored memory ended.2 key) same
  exact ⟨nowSecs, left.trans (MemoryState.stored_putKey_self _)⟩

theorem Step.stored_of_remove {reply : Reply}
    (step : (IdempotencyBackend.memory memory).Step (.remove key) before reply after) :
    (IdempotencyBackend.memory memory).stored after key = none := by
  obtain ⟨nowSecs, same⟩ := step
  rw [MemoryState.step_remove before.property] at same
  have left := congrArg (fun ended => MemoryState.stored memory ended.2 key) same
  rw [MemoryState.stored_popKey] at left
  exact left.trans (if_pos rfl)

end Memory

theorem Expires.onlyLoses {key : String} (expires : backend.Expires key before after) :
    OnlyLoses (backend.stored before) (backend.stored after) := by
  cases backend with
  | memory backend => exact expires.elim
  | redis backend =>
    rw [show after = _ from expires]
    exact RedisBackend.onlyLoses_expire key

end IdempotencyBackend

end SpectraGQL.Idempotency
