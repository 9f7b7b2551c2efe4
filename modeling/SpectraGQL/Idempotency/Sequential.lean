import SpectraGQL.Idempotency.Memory

/-! # The memory backend running alone

Between two operations no lock is held.  From such a state every operation takes the
lock of its key's shard, works on it and gives it back, so its whole effect is one of
the state updates below: a use of an entry, an insertion, a removal, an eviction.
-/

namespace SpectraGQL.Idempotency

open SpectraGQL.Core SpectraGQL.Http
open Interaction Data

namespace MemoryState

variable {ι : Type} {thread : ι} {nowSecs : Nat} {state : MemoryState ι} {shard : Shard}

/-! ## The effect of an operation -/

def useKey (state : MemoryState ι) (shard : Shard) (key : String) : MemoryState ι :=
  state.setShard shard ((state.shards shard).get key).2

def putKey (state : MemoryState ι) (shard : Shard) (key : String) (record : IdempotencyRecord) :
    MemoryState ι :=
  { state.setShard shard ((state.shards shard).put key record).2 with
    len := if (state.shards shard).peek key = none then (state.len + 1) % usizeRange else state.len }

def popKey (state : MemoryState ι) (shard : Shard) (key : String) : MemoryState ι :=
  { state.setShard shard ((state.shards shard).pop key).2 with
    len := if (state.shards shard).peek key = none then state.len
      else (state.len + usizeRange - 1) % usizeRange }

def dropOldest (state : MemoryState ι) (shard : Shard) : MemoryState ι :=
  { state.setShard shard (state.shards shard).dropOldest with
    len := (state.len + usizeRange - 1) % usizeRange }

/-- No thread holds a lock. -/
def Unlocked (state : MemoryState ι) : Prop := ∀ shard, state.owner shard = none

/-- Taking a free lock and giving it back leaves the owners as they were. -/
theorem setOwner_setOwner_of_free (state : MemoryState ι) (taken : Option ι) (free : state.owner shard = none) :
    (state.setOwner shard taken).setOwner shard none = state := by
  simp [setOwner, ← free]

@[simp] theorem owner_useKey (key : String) : (state.useKey shard key).owner = state.owner := rfl

@[simp] theorem len_useKey (key : String) : (state.useKey shard key).len = state.len := rfl

@[simp] theorem owner_putKey (key : String) (record : IdempotencyRecord) :
    (state.putKey shard key record).owner = state.owner := rfl

@[simp] theorem owner_popKey (key : String) : (state.popKey shard key).owner = state.owner := rfl

@[simp] theorem owner_dropOldest : (state.dropOldest shard).owner = state.owner := rfl

theorem putKey_setOwner (lockOf : Shard) (taken : Option ι) (key : String)
    (record : IdempotencyRecord) :
    (state.setOwner lockOf taken).putKey shard key record =
      (state.putKey shard key record).setOwner lockOf taken := rfl

theorem dropOldest_setOwner (lockOf : Shard) (taken : Option ι) :
    (state.setOwner lockOf taken).dropOldest shard =
      (state.dropOldest shard).setOwner lockOf taken := rfl

/-! ### What a lookup finds afterwards -/

section Lookup

variable (key : String) (record : IdempotencyRecord) (other : Shard)

@[simp] theorem cap_useKey : ((state.useKey shard key).shards other).cap = (state.shards other).cap := by
  by_cases same : other = shard
  · subst same
    simp [useKey, setShard]
  · simp [useKey, setShard, same]

@[simp] theorem cap_putKey :
    ((state.putKey shard key record).shards other).cap = (state.shards other).cap := by
  by_cases same : other = shard
  · subst same
    simp [putKey, setShard]
  · simp [putKey, setShard, same]

@[simp] theorem cap_popKey : ((state.popKey shard key).shards other).cap = (state.shards other).cap := by
  by_cases same : other = shard
  · subst same
    simp [popKey, setShard]
  · simp [popKey, setShard, same]

@[simp] theorem size_useKey :
    ((state.useKey shard key).shards other).size = (state.shards other).size := by
  by_cases same : other = shard
  · subst same
    simp [useKey, setShard]
  · simp [useKey, setShard, same]

@[simp] theorem peek_useKey (lookup : String) :
    ((state.useKey shard key).shards other).peek lookup = (state.shards other).peek lookup := by
  by_cases same : other = shard
  · subst same
    simp [useKey, setShard]
  · simp [useKey, setShard, same]

theorem peek_putKey_of_room (room : (state.shards shard).size < (state.shards shard).cap)
    (lookup : String) :
    ((state.putKey shard key record).shards other).peek lookup =
      if other = shard ∧ lookup = key then some record else (state.shards other).peek lookup := by
  by_cases same : other = shard
  · subst same
    simp [putKey, setShard, LruCache.peek_put_of_room _ record fun _ => room]
  · simp [putKey, setShard, same]

theorem peek_popKey (lookup : String) :
    ((state.popKey shard key).shards other).peek lookup =
      if other = shard ∧ lookup = key then none else (state.shards other).peek lookup := by
  by_cases same : other = shard
  · subst same
    simp [popKey, setShard, LruCache.peek_pop]
  · simp [popKey, setShard, same]

end Lookup

/-! ## The single steps -/

section Steps

variable (key : String) (record : IdempotencyRecord)

theorem interp_currentUnixSecs :
    MemoryProg.currentUnixSecs.interp (S := memorySignature) (apply thread nowSecs) state =
      (nowSecs, state) := rfl

theorem interp_lock :
    (MemoryProg.lock shard).interp (S := memorySignature) (apply thread nowSecs) state =
      ((), state.setOwner shard (some thread)) := rfl

theorem interp_tryLock_free (free : state.owner shard = none) :
    (MemoryProg.tryLock shard).interp (S := memorySignature) (apply thread nowSecs) state =
      (true, state.setOwner shard (some thread)) := by
  simp [MemoryProg.tryLock, Prog.perform, Prog.interp, apply, free]

theorem interp_unlock :
    (MemoryProg.unlock shard).interp (S := memorySignature) (apply thread nowSecs) state =
      ((), state.setOwner shard none) := rfl

theorem interp_get :
    (MemoryProg.get shard key).interp (S := memorySignature) (apply thread nowSecs) state =
      ((state.shards shard).peek key, state.useKey shard key) := by
  simp [MemoryProg.get, Prog.perform, Prog.interp, apply, useKey]

theorem interp_put :
    (MemoryProg.put shard key record).interp (S := memorySignature) (apply thread nowSecs) state =
      ((state.shards shard).peek key, state.setShard shard ((state.shards shard).put key record).2) := by
  simp [MemoryProg.put, Prog.perform, Prog.interp, apply]

theorem interp_pop :
    (MemoryProg.pop shard key).interp (S := memorySignature) (apply thread nowSecs) state =
      ((state.shards shard).peek key, state.setShard shard ((state.shards shard).pop key).2) := rfl

theorem interp_popLru :
    (MemoryProg.popLru shard).interp (S := memorySignature) (apply thread nowSecs) state =
      ((state.shards shard).popLru.1, state.setShard shard (state.shards shard).dropOldest) := rfl

theorem interp_lenLoad :
    MemoryProg.lenLoad.interp (S := memorySignature) (apply thread nowSecs) state =
      (state.len, state) := rfl

theorem interp_lenFetchAdd :
    MemoryProg.lenFetchAdd.interp (S := memorySignature) (apply thread nowSecs) state =
      ((), { state with len := (state.len + 1) % usizeRange }) := rfl

theorem interp_lenFetchSub :
    MemoryProg.lenFetchSub.interp (S := memorySignature) (apply thread nowSecs) state =
      ((), { state with len := (state.len + usizeRange - 1) % usizeRange }) := rfl

/-! ## The programs -/

theorem interp_putRecord :
    (MemoryBackend.putRecord shard key record).interp (S := memorySignature) (apply thread nowSecs)
        state = ((), (state.putKey shard key record).setOwner shard none) := by
  simp only [MemoryBackend.putRecord, Prog.interp_bind, interp_put]
  cases found : (state.shards shard).peek key with
  | none => simp [Prog.interp_bind, interp_lenFetchAdd, interp_unlock, putKey, found, setShard]
  | some old => simp [interp_unlock, putKey, found, setShard]

end Steps

theorem setShard_dropOldest_of_empty (empty : (state.shards shard).popLru.1 = none) :
    state.setShard shard (state.shards shard).dropOldest = state := by
  rw [LruCache.dropOldest_of_popLru_none empty]
  simp [setShard]

/-- Looking for a victim elsewhere drops the oldest entry of some other shard, or nothing if all
    of them are empty. -/
theorem interp_evictElsewhere {own : Shard} (free : ∀ shard, shard ≠ own → state.owner shard = none)
    (shards : List Shard) :
    ∃ after, (MemoryBackend.evictElsewhere own shards).interp (S := memorySignature)
        (apply thread nowSecs) state = ((), after) ∧
      ((after = state ∧ ∀ shard ∈ shards, shard ≠ own → (state.shards shard).size = 0) ∨
        ∃ shard key, (state.shards shard).oldest? = some key ∧ after = state.dropOldest shard) := by
  induction shards with
  | nil => exact ⟨state, rfl, .inl ⟨rfl, by simp⟩⟩
  | cons shard rest inductionHypothesis =>
    by_cases other : shard ≠ own
    · have unlocked := free shard other
      rw [MemoryBackend.evictElsewhere, if_pos other]
      simp only [Prog.interp_bind, interp_tryLock_free unlocked, if_true, interp_popLru]
      rw [shards_setOwner]
      cases victim : (state.shards shard).popLru.1 with
      | none =>
        -- an empty shard: its lock is given back and the search goes on
        have untouched : ((state.setOwner shard (some thread)).setShard shard
            (state.shards shard).dropOldest).setOwner shard none = state := by
          have commute : (state.setOwner shard (some thread)).setShard shard
              (state.shards shard).dropOldest =
                (state.setShard shard (state.shards shard).dropOldest).setOwner shard (some thread) := rfl
          rw [commute, setShard_dropOldest_of_empty victim, setOwner_setOwner_of_free _ _ unlocked]
        simp only [Prog.interp_bind, interp_unlock, untouched]
        obtain ⟨after, runs, effect⟩ := inductionHypothesis
        have empty := LruCache.size_of_popLru_none victim
        exact ⟨after, runs, effect.imp_left fun ⟨same, others⟩ =>
          ⟨same, List.forall_mem_cons.mpr ⟨fun _ => empty, others⟩⟩⟩
      | some entry =>
        refine ⟨state.dropOldest shard, ?_, .inr ⟨shard, entry.1, ?_, rfl⟩⟩
        · simp only [Prog.interp_bind, interp_lenFetchSub, interp_unlock]
          have unlockedAgain := setOwner_setOwner_of_free (state.dropOldest shard) (some thread)
            unlocked
          exact congrArg (Prod.mk ()) unlockedAgain
        · exact LruCache.oldest?_of_popLru victim
    · obtain ⟨after, runs, effect⟩ := inductionHypothesis
      rw [MemoryBackend.evictElsewhere, if_neg other]
      exact ⟨after, runs, effect.imp_left fun ⟨same, others⟩ =>
        ⟨same, List.forall_mem_cons.mpr ⟨fun isOther => absurd isOther other, others⟩⟩⟩

theorem interp_evict (thread : ι) (nowSecs : Nat) {own : Shard}
    (free : ∀ shard, shard ≠ own → state.owner shard = none) :
    ∃ after, (MemoryBackend.evict own).interp (S := memorySignature) (apply thread nowSecs) state =
        ((), after) ∧
      ((after = state ∧ ∀ shard, (state.shards shard).size = 0) ∨
        ∃ shard key, (state.shards shard).oldest? = some key ∧
          (shard = own ∨ (state.shards own).size = 0) ∧ after = state.dropOldest shard) := by
  simp only [MemoryBackend.evict, Prog.interp_bind, interp_popLru]
  cases victim : (state.shards own).popLru.1 with
  | none =>
    rw [setShard_dropOldest_of_empty victim]
    have ownEmpty := LruCache.size_of_popLru_none victim
    obtain ⟨after, runs, effect⟩ := interp_evictElsewhere free (List.finRange numMemoryShards)
    refine ⟨after, runs, ?_⟩
    rcases effect with ⟨same, others⟩ | ⟨shard, key, oldest, dropped⟩
    · refine .inl ⟨same, fun shard => ?_⟩
      by_cases isOwn : shard = own
      · rw [isOwn, ownEmpty]
      · exact others shard (List.mem_finRange shard) isOwn
    · exact .inr ⟨shard, key, oldest, .inr ownEmpty, dropped⟩
  | some entry =>
    exact ⟨_, interp_lenFetchSub, .inr ⟨own, entry.1, LruCache.oldest?_of_popLru victim, .inl rfl, rfl⟩⟩

/-- What the capacity check does before an insertion into the shard `own`: at the capacity it drops
    the oldest entry there, or in an other shard if there is none. -/
def MakesRoom (backend : MemoryBackend) (own : Shard) (state room : MemoryState ι) : Prop :=
  (room = state ∧ (backend.maxCapacity ≤ state.len → ∀ shard, (state.shards shard).size = 0)) ∨
    (backend.maxCapacity ≤ state.len ∧ ∃ shard victim, (state.shards shard).oldest? = some victim ∧
      (shard = own ∨ (state.shards own).size = 0) ∧ room = state.dropOldest shard)

/-- The insertion, on a state where only the own shard is locked: it makes room first if the
    counter demands it. -/
theorem interp_insertInProgress (thread : ι) (nowSecs : Nat) (backend : MemoryBackend)
    (unlocked : state.Unlocked) (key : String) (hlc : HlcTimestamp) (startedAtSecs : Nat) :
    ∃ room : MemoryState ι,
      (backend.insertInProgress key hlc startedAtSecs).interp (S := memorySignature)
          (apply thread nowSecs) (state.setOwner (backend.shardOf key) (some thread)) =
        (.new, room.putKey (backend.shardOf key) key (.inProgress hlc startedAtSecs)) ∧
      MakesRoom backend (backend.shardOf key) state room := by
  unfold MemoryBackend.insertInProgress
  generalize backend.shardOf key = own
  -- the lock is given back in whatever state the eviction leaves
  have release : ∀ room : MemoryState ι, room.owner = state.owner →
      ((room.setOwner own (some thread)).putKey own key (.inProgress hlc startedAtSecs)).setOwner own
        none = room.putKey own key (.inProgress hlc startedAtSecs) := by
    intro room owner
    have free : room.owner own = none := by rw [owner, unlocked own]
    rw [putKey_setOwner]
    exact setOwner_setOwner_of_free _ _ free
  rw [Prog.interp_bind, interp_lenLoad]
  split
  case isTrue full =>
    have free : ∀ shard, shard ≠ own → (state.setOwner own (some thread)).owner shard = none := by
      intro shard other
      simpa [setOwner, other] using unlocked shard
    obtain ⟨after, runs, effect⟩ := interp_evict thread nowSecs free
    simp only [Prog.interp_bind, runs, interp_putRecord, Prog.pure_eq_ret, Prog.interp_ret]
    rcases effect with ⟨rfl, empty⟩ | ⟨shard, victim, oldest, isOwn, rfl⟩
    · exact ⟨state, congrArg (Prod.mk _) (release state rfl), .inl ⟨rfl, fun _ => empty⟩⟩
    · rw [dropOldest_setOwner]
      exact ⟨state.dropOldest shard, congrArg (Prod.mk _) (release _ rfl),
        .inr ⟨full, shard, victim, oldest, isOwn, rfl⟩⟩
  case isFalse room =>
    simp only [Prog.interp_bind, interp_putRecord, Prog.pure_eq_ret, Prog.interp_ret]
    exact ⟨state, congrArg (Prod.mk _) (release state rfl), .inl ⟨rfl, fun full => absurd full room⟩⟩

theorem interp_complete {backend : MemoryBackend} {key : String}
    (free : state.owner (backend.shardOf key) = none) (hlc : HlcTimestamp) (statusCode : UInt16)
    (headers : HeaderMap) (body : String) :
    (backend.program (.complete key hlc statusCode headers body)).interp (S := memorySignature)
        (apply thread nowSecs) state =
      (.done, state.putKey (backend.shardOf key) key
        (.completed hlc statusCode (headerPairs headers) body nowSecs)) := by
  simp only [MemoryBackend.program, MemoryBackend.complete, Prog.interp_bind, interp_lock,
    interp_currentUnixSecs, interp_putRecord, Prog.pure_eq_ret, Prog.interp_ret]
  rw [putKey_setOwner]
  exact congrArg (Prod.mk _) (setOwner_setOwner_of_free _ _ free)

/-! ## The operations -/

section Operations

variable {backend : MemoryBackend} {state : MemoryState Unit} (unlocked : state.Unlocked)
include unlocked

theorem step_complete (key : String) (hlc : HlcTimestamp) (statusCode : UInt16)
    (headers : HeaderMap) (body : String) :
    step backend nowSecs (.complete key hlc statusCode headers body) state =
      (.done, state.putKey (backend.shardOf key) key
        (.completed hlc statusCode (headerPairs headers) body nowSecs)) :=
  interp_complete (unlocked _) hlc statusCode headers body

theorem step_remove (key : String) :
    step backend nowSecs (.remove key) state =
      (.done, state.popKey (backend.shardOf key) key) := by
  simp only [step, MemoryBackend.program, MemoryBackend.remove, Prog.interp_bind, interp_lock,
    interp_pop, shards_setOwner, Prog.pure_eq_ret, Prog.interp_ret]
  have restored := setOwner_setOwner_of_free (state.popKey (backend.shardOf key) key)
    (some ()) (unlocked (backend.shardOf key))
  cases found : (state.shards (backend.shardOf key)).peek key with
  | none =>
    simp only [interp_unlock]
    simp only [popKey, found, if_true] at restored ⊢
    exact congrArg (Prod.mk _) restored
  | some record =>
    simp only [Prog.interp_bind, interp_lenFetchSub, interp_unlock]
    simp only [popKey, found, reduceCtorEq, if_false] at restored ⊢
    exact congrArg (Prod.mk _) restored

theorem step_checkOrInsert_live {key : String} {record : IdempotencyRecord} (hlc : HlcTimestamp)
    (found : (state.shards (backend.shardOf key)).peek key = some record)
    (live : record.Live backend.ttlSecs nowSecs) :
    step backend nowSecs (.checkOrInsert key hlc) state =
      (.outcome record.outcome, state.useKey (backend.shardOf key) key) := by
  simp only [step, MemoryBackend.program, MemoryBackend.checkOrInsert, Prog.interp_bind,
    interp_currentUnixSecs, interp_lock, interp_get, shards_setOwner, found]
  simp only [live, if_true, Prog.interp_bind, interp_unlock, Prog.pure_eq_ret, Prog.interp_ret]
  exact congrArg (Prod.mk _) (setOwner_setOwner_of_free
    (state.useKey (backend.shardOf key) key) (some ()) (unlocked _))

omit unlocked in
/-- Without a live record, the operation is the insertion, on the entry just used. -/
theorem step_checkOrInsert_dead {key : String} (hlc : HlcTimestamp)
    (dead : ∀ record, (state.shards (backend.shardOf key)).peek key = some record →
      ¬ record.Live backend.ttlSecs nowSecs) :
    step backend nowSecs (.checkOrInsert key hlc) state =
      (do return .outcome (← backend.insertInProgress key hlc nowSecs) : MemoryProg Reply).interp
        (S := memorySignature) (apply () nowSecs)
        ((state.useKey (backend.shardOf key) key).setOwner (backend.shardOf key) (some ())) := by
  simp only [step, MemoryBackend.program, MemoryBackend.checkOrInsert, Prog.interp_bind,
    interp_currentUnixSecs, interp_lock, interp_get, shards_setOwner]
  cases found : (state.shards (backend.shardOf key)).peek key with
  | none => rfl
  | some record =>
    simp only [dead record found, if_false]
    rfl

/-- Without a live record the key is locked, after an eviction if the counter demands one. -/
theorem step_checkOrInsert_new (nowSecs : Nat) {key : String} (hlc : HlcTimestamp)
    (dead : ∀ record, (state.shards (backend.shardOf key)).peek key = some record →
      ¬ record.Live backend.ttlSecs nowSecs) :
    ∃ room : MemoryState Unit, step backend nowSecs (.checkOrInsert key hlc) state =
        (.outcome .new, room.putKey (backend.shardOf key) key (.inProgress hlc nowSecs)) ∧
      MakesRoom backend (backend.shardOf key) (state.useKey (backend.shardOf key) key) room := by
  have used : (state.useKey (backend.shardOf key) key).Unlocked := unlocked
  obtain ⟨room, runs, effect⟩ := interp_insertInProgress () nowSecs backend used key hlc
    nowSecs
  rw [step_checkOrInsert_dead hlc dead]
  refine ⟨room, ?_, effect⟩
  simp only [Prog.interp_bind, runs, Prog.pure_eq_ret, Prog.interp_ret]

end Operations

end MemoryState

end SpectraGQL.Idempotency
