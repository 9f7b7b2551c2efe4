import SpectraGQL.Interaction.Pool
import SpectraGQL.Data.LruCache
import SpectraGQL.Idempotency.Record
import Mathlib.Algebra.Group.Nat.Defs

/-! # The in-memory backend (`idempotency/mod.rs`)

The backend splits its records over 32 LRU caches, each behind its own mutex, and
counts them in one atomic.  Its operations are written here as programs over the
single steps that other threads can observe: a clock reading, taking and releasing a
shard's lock, one cache operation under the lock, one atomic access of the counter.

`MemoryState.apply` says what each step does.  Run alone through
`Prog.interp` the programs are the sequential engine; `MemoryState.meaning` lets any
number of threads interleave them.
-/

namespace SpectraGQL.Idempotency

open SpectraGQL.Core SpectraGQL.Http
open Interaction Data

def numMemoryShards : Nat := 32

abbrev Shard := Fin numMemoryShards

/-- The number of values of a `usize`. -/
def usizeRange : Nat := 2 ^ 64

/-- The parameters of the backend: `hash` is the hasher of `get_shard_index`. -/
structure MemoryBackend where
  ttl : Nat
  maxCapacity : Nat
  hash : String → UInt64
  maxCapacity_lt : maxCapacity < usizeRange

def getShardIndex (hash : String → UInt64) (key : String) : Shard :=
  ⟨(hash key).toNat % numMemoryShards, Nat.mod_lt _ (by decide)⟩

namespace MemoryBackend

/-- The configured time to live, at least one second. -/
def ttlSecs (backend : MemoryBackend) : Nat := max backend.ttl 1

def shardOf (backend : MemoryBackend) (key : String) : Shard := getShardIndex backend.hash key

end MemoryBackend

/-! ## The steps a thread can take -/

inductive MemoryCall where
  | currentUnixSecs
  | lock (shard : Shard)
  | tryLock (shard : Shard)
  | unlock (shard : Shard)
  | get (shard : Shard) (key : String)
  | put (shard : Shard) (key : String) (record : IdempotencyRecord)
  | pop (shard : Shard) (key : String)
  | popLru (shard : Shard)
  | lenLoad
  | lenFetchAdd
  | lenFetchSub

@[reducible] def MemoryCall.Answer : MemoryCall → Type
  | .currentUnixSecs => Nat
  | .tryLock _ => Bool
  | .get _ _ | .put _ _ _ | .pop _ _ => Option IdempotencyRecord
  | .popLru _ => Option (String × IdempotencyRecord)
  | .lenLoad => Nat
  | .lock _ | .unlock _ | .lenFetchAdd | .lenFetchSub => Unit

abbrev memorySignature : Signature := ⟨MemoryCall, MemoryCall.Answer⟩

abbrev MemoryProg (α : Type) := Prog memorySignature α

namespace MemoryProg

def currentUnixSecs : MemoryProg Nat := Prog.perform (S := memorySignature) .currentUnixSecs
def lock (shard : Shard) : MemoryProg Unit := Prog.perform (S := memorySignature) (.lock shard)
def tryLock (shard : Shard) : MemoryProg Bool := Prog.perform (S := memorySignature) (.tryLock shard)
def unlock (shard : Shard) : MemoryProg Unit := Prog.perform (S := memorySignature) (.unlock shard)
def get (shard : Shard) (key : String) : MemoryProg (Option IdempotencyRecord) :=
  Prog.perform (S := memorySignature) (.get shard key)
def put (shard : Shard) (key : String) (record : IdempotencyRecord) :
    MemoryProg (Option IdempotencyRecord) := Prog.perform (S := memorySignature) (.put shard key record)
def pop (shard : Shard) (key : String) : MemoryProg (Option IdempotencyRecord) :=
  Prog.perform (S := memorySignature) (.pop shard key)
def popLru (shard : Shard) : MemoryProg (Option (String × IdempotencyRecord)) :=
  Prog.perform (S := memorySignature) (.popLru shard)
def lenLoad : MemoryProg Nat := Prog.perform (S := memorySignature) .lenLoad
def lenFetchAdd : MemoryProg Unit := Prog.perform (S := memorySignature) .lenFetchAdd
def lenFetchSub : MemoryProg Unit := Prog.perform (S := memorySignature) .lenFetchSub

end MemoryProg

/-! ## The operations -/

namespace MemoryBackend

open MemoryProg

variable (backend : MemoryBackend)

/-- Evict the oldest entry of the first other shard that is neither locked nor empty. -/
def evictElsewhere (shardIdx : Shard) : List Shard → MemoryProg Unit
  | [] => pure ()
  | shard :: rest =>
    if shard ≠ shardIdx then do
      if ← tryLock shard then
        match ← popLru shard with
        | some _ =>
          lenFetchSub
          unlock shard
        | none =>
          unlock shard
          evictElsewhere shardIdx rest
      else evictElsewhere shardIdx rest
    else evictElsewhere shardIdx rest

/-- Evict one entry: of the own shard, whose lock is held, or of another one. -/
def evict (shardIdx : Shard) : MemoryProg Unit := do
  match ← popLru shardIdx with
  | some _ => lenFetchSub
  | none => evictElsewhere shardIdx (List.finRange numMemoryShards)

/-- `if guard.put(..).is_none() { len.fetch_add(1) }`, and the guard goes out of scope. -/
def putRecord (shardIdx : Shard) (key : String) (record : IdempotencyRecord) : MemoryProg Unit := do
  match ← put shardIdx key record with
  | none =>
    lenFetchAdd
    unlock shardIdx
  | some _ => unlock shardIdx

/-- The end of `check_or_insert`, for a key without a live record. -/
def insertInProgress (key : String) (hlc : HlcTimestamp) (nowSecs : Nat) :
    MemoryProg IdempotencyOutcome := do
  -- the global capacity check
  let len ← lenLoad
  let _ ← if len ≥ backend.maxCapacity then evict (backend.shardOf key) else pure ()
  putRecord (backend.shardOf key) key (.inProgress hlc nowSecs)
  return .new

def checkOrInsert (key : String) (hlc : HlcTimestamp) : MemoryProg IdempotencyOutcome := do
  let nowSecs ← currentUnixSecs
  let shardIdx := backend.shardOf key
  lock shardIdx
  match ← get shardIdx key with
  | some record =>
    if record.Live backend.ttlSecs nowSecs then
      unlock shardIdx
      return record.outcome
    else backend.insertInProgress key hlc nowSecs
  | none => backend.insertInProgress key hlc nowSecs

def complete (key : String) (hlc : HlcTimestamp) (statusCode : UInt16) (headers : HeaderMap)
    (body : String) : MemoryProg Unit := do
  let shardIdx := backend.shardOf key
  lock shardIdx
  let nowSecs ← currentUnixSecs
  putRecord shardIdx key (.completed hlc statusCode (headerPairs headers) body nowSecs)

def remove (key : String) : MemoryProg Unit := do
  let shardIdx := backend.shardOf key
  lock shardIdx
  match ← pop shardIdx key with
  | some _ =>
    lenFetchSub
    unlock shardIdx
  | none => unlock shardIdx

def program : Operation → MemoryProg Reply
  | .checkOrInsert key hlc => return .outcome (← backend.checkOrInsert key hlc)
  | .complete key hlc statusCode headers body => do
    backend.complete key hlc statusCode headers body
    return .done
  | .remove key => do
    backend.remove key
    return .done

end MemoryBackend

/-! ## What the steps do -/

/-- The shared state: the shards, the threads holding their locks, and the counter. -/
structure MemoryState (ι : Type) where
  shards : Shard → LruCache String IdempotencyRecord
  owner : Shard → Option ι
  len : Nat

namespace MemoryState

variable {ι : Type}

/-- `IdempotencyEngine::new`: empty shards, each with room for `max_capacity` entries. -/
def new (backend : MemoryBackend) : MemoryState ι where
  shards := fun _ => LruCache.empty (max backend.maxCapacity 1) (Nat.lt_of_lt_of_le Nat.one_pos (Nat.le_max_right _ _))
  owner := fun _ => none
  len := 0

def setShard (state : MemoryState ι) (shard : Shard) (cache : LruCache String IdempotencyRecord) :
    MemoryState ι :=
  { state with shards := Function.update state.shards shard cache }

def setOwner (state : MemoryState ι) (shard : Shard) (thread : Option ι) : MemoryState ι :=
  { state with owner := Function.update state.owner shard thread }

section

variable (state : MemoryState ι) (shard : Shard) (cache : LruCache String IdempotencyRecord)
  (thread : Option ι)

@[simp] theorem owner_setShard : (state.setShard shard cache).owner = state.owner := rfl
@[simp] theorem len_setShard : (state.setShard shard cache).len = state.len := rfl
@[simp] theorem shards_setOwner : (state.setOwner shard thread).shards = state.shards := rfl
@[simp] theorem len_setOwner : (state.setOwner shard thread).len = state.len := rfl

@[simp] theorem shards_setShard_self : (state.setShard shard cache).shards shard = cache := by
  simp [setShard]

@[simp] theorem shards_setShard_of_ne {other : Shard} (elsewhere : other ≠ shard) :
    (state.setShard shard cache).shards other = state.shards other := by
  simp [setShard, elsewhere]

@[simp] theorem owner_setOwner_self : (state.setOwner shard thread).owner shard = thread := by
  simp [setOwner]

@[simp] theorem owner_setOwner_of_ne {other : Shard} (elsewhere : other ≠ shard) :
    (state.setOwner shard thread).owner other = state.owner other := by
  simp [setOwner, elsewhere]

end

/-- The answer to a step of `thread` made at time `nowSecs`, and the state it leaves. -/
def apply (thread : ι) (nowSecs : Nat) :
    (call : MemoryCall) → MemoryState ι → call.Answer × MemoryState ι
  | .currentUnixSecs, state => (nowSecs, state)
  | .lock shard, state => ((), state.setOwner shard (some thread))
  | .tryLock shard, state =>
    match state.owner shard with
    | none => (true, state.setOwner shard (some thread))
    | some _ => (false, state)
  | .unlock shard, state => ((), state.setOwner shard none)
  | .get shard key, state =>
    let (found, cache) := (state.shards shard).get key
    (found, state.setShard shard cache)
  | .put shard key record, state =>
    let (old, cache) := (state.shards shard).put key record
    (old, state.setShard shard cache)
  | .pop shard key, state =>
    let (old, cache) := (state.shards shard).pop key
    (old, state.setShard shard cache)
  | .popLru shard, state =>
    let (old, cache) := (state.shards shard).popLru
    (old, state.setShard shard cache)
  | .lenLoad, state => (state.len, state)
  | .lenFetchAdd, state => ((), { state with len := (state.len + 1) % usizeRange })
  | .lenFetchSub, state => ((), { state with len := (state.len + usizeRange - 1) % usizeRange })

/-- A thread waits for a lock that is taken. -/
def Enabled (state : MemoryState ι) : MemoryCall → Prop
  | .lock shard => state.owner shard = none
  | _ => True

instance (state : MemoryState ι) (call : MemoryCall) : Decidable (state.Enabled call) :=
  match call with
  | .lock shard => decidable_of_iff ((state.owner shard).isNone = true) Option.isNone_iff_eq_none
  | .currentUnixSecs | .tryLock _ | .unlock _ | .get _ _ | .put _ _ _ | .pop _ _ | .popLru _
  | .lenLoad | .lenFetchAdd | .lenFetchSub => .isTrue trivial

/-- The steps of `thread` in a pool, at whatever time its clock shows. -/
def meaning (thread : ι) : Semantics memorySignature (MemoryState ι) :=
  fun call before answer after =>
    before.Enabled call ∧ ∃ nowSecs, (answer, after) = apply thread nowSecs call before

section Meaning

variable {thread : ι} {before after : MemoryState ι} {shard : Shard} {key : String}
  {record : IdempotencyRecord}

/-! What each step can do, as seen from a pool. -/

theorem meaning_currentUnixSecs {nowSecs : Nat}
    (effect : meaning thread .currentUnixSecs before nowSecs after) : after = before := by
  obtain ⟨_, _, same⟩ := effect
  exact (Prod.mk.inj same).2

theorem meaning_lock {answer : Unit} (effect : meaning thread (.lock shard) before answer after) :
    before.owner shard = none ∧ after = before.setOwner shard (some thread) := by
  obtain ⟨free, _, same⟩ := effect
  exact ⟨free, (Prod.mk.inj same).2⟩

theorem meaning_unlock {answer : Unit} (effect : meaning thread (.unlock shard) before answer after) :
    after = before.setOwner shard none := by
  obtain ⟨_, _, same⟩ := effect
  exact (Prod.mk.inj same).2

theorem meaning_get {found : Option IdempotencyRecord}
    (effect : meaning thread (.get shard key) before found after) :
    found = (before.shards shard).peek key ∧
      after = before.setShard shard ((before.shards shard).get key).2 := by
  obtain ⟨_, _, same⟩ := effect
  obtain ⟨answer, state⟩ := Prod.mk.inj same
  exact ⟨answer.trans (LruCache.get_fst _ _), state⟩

theorem meaning_put {old : Option IdempotencyRecord}
    (effect : meaning thread (.put shard key record) before old after) :
    old = (before.shards shard).peek key ∧
      after = before.setShard shard ((before.shards shard).put key record).2 := by
  obtain ⟨_, _, same⟩ := effect
  obtain ⟨answer, state⟩ := Prod.mk.inj same
  exact ⟨answer.trans (LruCache.put_fst _ _ _), state⟩

theorem meaning_pop {old : Option IdempotencyRecord}
    (effect : meaning thread (.pop shard key) before old after) :
    old = (before.shards shard).peek key ∧
      after = before.setShard shard ((before.shards shard).pop key).2 := by
  obtain ⟨_, _, same⟩ := effect
  exact Prod.mk.inj same

theorem meaning_lenLoad {len : Nat} (effect : meaning thread .lenLoad before len after) :
    len = before.len ∧ after = before := by
  obtain ⟨_, _, same⟩ := effect
  exact Prod.mk.inj same

theorem meaning_lenFetchAdd {answer : Unit}
    (effect : meaning thread .lenFetchAdd before answer after) :
    after = { before with len := (before.len + 1) % usizeRange } := by
  obtain ⟨_, _, same⟩ := effect
  exact (Prod.mk.inj same).2

theorem meaning_lenFetchSub {answer : Unit}
    (effect : meaning thread .lenFetchSub before answer after) :
    after = { before with len := (before.len + usizeRange - 1) % usizeRange } := by
  obtain ⟨_, _, same⟩ := effect
  exact (Prod.mk.inj same).2

end Meaning

/-- One operation running alone at time `nowSecs`. -/
def step (backend : MemoryBackend) (nowSecs : Nat) (operation : Operation)
    (state : MemoryState Unit) : Reply × MemoryState Unit :=
  (backend.program operation).interp (S := memorySignature) (apply () nowSecs) state

end MemoryState

end SpectraGQL.Idempotency
