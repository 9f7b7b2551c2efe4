import SpectraGQL.Idempotency.Sequential
import SpectraGQL.Idempotency.RecordJson
import Mathlib.Data.Finset.Card

/-! # Both backends are the idempotency map

`MemoryRefines` relates a state of the memory backend to the map it stands for, as long
as the keys in use stay below the capacity: then the counter never reaches the
capacity, no shard is ever full, and the eviction path is dead.  `RedisRefines` relates
a Redis store to the map, up to records whose time to live has passed.  Both relations
are kept by every operation, and related states give the same reply.
-/

namespace SpectraGQL.Idempotency

open SpectraGQL.Core SpectraGQL.Http
open Interaction Data

/-! ## The occupied keys of a map -/

/-- The keys among `keys` that hold a record. -/
def occupied (keys : Finset String) (map : IdempotencyMap) : Finset String :=
  keys.filter fun key => map key ≠ none

theorem mem_occupied {keys : Finset String} {map : IdempotencyMap} {key : String} :
    key ∈ occupied keys map ↔ key ∈ keys ∧ map key ≠ none := Finset.mem_filter

theorem card_occupied_le (keys : Finset String) (map : IdempotencyMap) :
    (occupied keys map).card ≤ keys.card := Finset.card_filter_le _ _

theorem occupied_update_some {keys : Finset String} {map : IdempotencyMap} {key : String}
    (member : key ∈ keys) (record : IdempotencyRecord) :
    occupied keys (Function.update map key (some record)) = insert key (occupied keys map) := by
  ext other
  by_cases same : other = key
  · subst same
    simp [mem_occupied, member]
  · simp [mem_occupied, same]

theorem occupied_update_none {keys : Finset String} {map : IdempotencyMap} {key : String} :
    occupied keys (Function.update map key none) = (occupied keys map).erase key := by
  ext other
  by_cases same : other = key
  · subst same
    simp [mem_occupied]
  · simp [mem_occupied, same]

/-! ## The memory backend -/

/-- The state of the memory backend holds exactly the records of `map`, whose keys are
    among `keys`. -/
structure MemoryRefines (backend : MemoryBackend) (keys : Finset String)
    (state : MemoryState Unit) (map : IdempotencyMap) : Prop where
  unlocked : state.Unlocked
  caps : ∀ shard, backend.maxCapacity ≤ (state.shards shard).cap
  stored : ∀ key, (state.shards (backend.shardOf key)).peek key = map key
  home : ∀ shard key, (state.shards shard).peek key ≠ none → backend.shardOf key = shard
  within : ∀ key, map key ≠ none → key ∈ keys
  counted : state.len = (occupied keys map).card

namespace MemoryRefines

variable {backend : MemoryBackend} {keys : Finset String} {state : MemoryState Unit}
  {map : IdempotencyMap} {nowSecs : Nat}

theorem initial (backend : MemoryBackend) (keys : Finset String) :
    MemoryRefines backend keys (MemoryState.new backend) IdempotencyMap.empty where
  unlocked := fun _ => rfl
  caps := fun _ => Nat.le_max_left _ _
  stored := fun key => LruCache.peek_empty _ _ key
  home := fun shard key present => absurd (LruCache.peek_empty _ _ key) present
  within := fun key present => absurd rfl present
  counted := by simp [MemoryState.new, occupied, IdempotencyMap.empty]

/-- The keys of a shard are distinct keys in use, so a shard is never full. -/
theorem size_lt (refines : MemoryRefines backend keys state map)
    (few : keys.card < backend.maxCapacity) (shard : Shard) :
    (state.shards shard).size < (state.shards shard).cap := by
  have within : ∀ key, (state.shards shard).peek key ≠ none → key ∈ keys := by
    intro key present
    apply refines.within key
    rw [← refines.stored key, refines.home shard key present]
    exact present
  calc (state.shards shard).size
      ≤ keys.card := LruCache.size_le_card within
    _ < backend.maxCapacity := few
    _ ≤ (state.shards shard).cap := refines.caps shard

theorem len_lt (refines : MemoryRefines backend keys state map)
    (few : keys.card < backend.maxCapacity) : state.len < backend.maxCapacity := by
  rw [refines.counted]
  exact lt_of_le_of_lt (card_occupied_le keys map) few

/-- A step that changes one key only, and keeps the counter exact. -/
theorem update (refines : MemoryRefines backend keys state map) {after : MemoryState Unit}
    {key : String} {value : Option IdempotencyRecord} (owner : after.owner = state.owner)
    (cap : ∀ shard, (after.shards shard).cap = (state.shards shard).cap)
    (peek : ∀ shard other, (after.shards shard).peek other =
      if shard = backend.shardOf key ∧ other = key then value else (state.shards shard).peek other)
    (member : value ≠ none → key ∈ keys)
    (counted : after.len = (occupied keys (Function.update map key value)).card) :
    MemoryRefines backend keys after (Function.update map key value) where
  unlocked := fun shard => (congrFun owner shard).trans (refines.unlocked shard)
  caps := fun shard => le_of_le_of_eq (refines.caps shard) (cap shard).symm
  stored := by
    intro other
    rw [peek]
    by_cases same : other = key
    · subst same
      simp
    · simp [same, refines.stored]
  -- a key is stored in its own shard only
  home := by
    intro shard other present
    rw [peek] at present
    by_cases same : shard = backend.shardOf key ∧ other = key
    · rw [same.1, same.2]
    · rw [if_neg same] at present
      exact refines.home shard other present
  within := by
    intro other present
    by_cases same : other = key
    · subst same
      exact member (by simpa using present)
    · exact refines.within other (by simpa [same] using present)
  counted := counted

theorem useKey (refines : MemoryRefines backend keys state map) (key : String) :
    MemoryRefines backend keys (state.useKey (backend.shardOf key) key) map where
  unlocked := refines.unlocked
  caps := fun shard => by simpa using refines.caps shard
  stored := fun other => by simpa using refines.stored other
  home := fun shard other present => refines.home shard other (by simpa using present)
  within := refines.within
  counted := refines.counted

theorem putKey (refines : MemoryRefines backend keys state map)
    (few : keys.card < backend.maxCapacity) {key : String} (member : key ∈ keys)
    (record : IdempotencyRecord) :
    MemoryRefines backend keys (state.putKey (backend.shardOf key) key record)
      (Function.update map key (some record)) := by
  have room := refines.size_lt few (backend.shardOf key)
  refine refines.update (MemoryState.owner_putKey key record) (MemoryState.cap_putKey key record)
    (fun shard => MemoryState.peek_putKey_of_room key record shard room) (fun _ => member) ?_
  -- the counter follows the occupied keys and stays below wrapping around
  have lenLt := refines.len_lt few
  have capLt := backend.maxCapacity_lt
  have counted := refines.counted
  simp only [MemoryState.putKey, refines.stored key, occupied_update_some member record]
  by_cases absent : map key = none
  · have fresh : key ∉ occupied keys map := by simp [mem_occupied, absent]
    rw [if_pos absent, Finset.card_insert_of_notMem fresh, Nat.mod_eq_of_lt (by omega), counted]
  · have present : key ∈ occupied keys map := mem_occupied.mpr ⟨member, absent⟩
    rw [if_neg absent, Finset.insert_eq_of_mem present]
    exact counted

theorem popKey (refines : MemoryRefines backend keys state map)
    (few : keys.card < backend.maxCapacity) (key : String) :
    MemoryRefines backend keys (state.popKey (backend.shardOf key) key)
      (Function.update map key none) := by
  refine refines.update (MemoryState.owner_popKey key) (MemoryState.cap_popKey key)
    (MemoryState.peek_popKey key) (fun impossible => absurd rfl impossible) ?_
  have lenLt := refines.len_lt few
  have capLt := backend.maxCapacity_lt
  have counted := refines.counted
  simp only [MemoryState.popKey, refines.stored key, occupied_update_none]
  by_cases absent : map key = none
  · have fresh : key ∉ occupied keys map := by simp [mem_occupied, absent]
    rw [if_pos absent, Finset.erase_eq_of_notMem fresh]
    exact counted
  · have present : key ∈ occupied keys map := mem_occupied.mpr ⟨refines.within key absent, absent⟩
    have positive := Finset.card_pos.mpr ⟨key, present⟩
    have wraps : state.len + usizeRange - 1 = (state.len - 1) + usizeRange := by omega
    rw [if_neg absent, Finset.card_erase_of_mem present, wraps, Nat.add_mod_right,
      Nat.mod_eq_of_lt (by omega), counted]

/-- One operation: the same reply as the map's, and related states again. -/
theorem step (nowSecs : Nat) (refines : MemoryRefines backend keys state map)
    (few : keys.card < backend.maxCapacity) {operation : Operation} (member : operation.key ∈ keys) :
    (MemoryState.step backend nowSecs operation state).1 =
        (IdempotencyMap.step backend.ttlSecs nowSecs operation map).1 ∧
      MemoryRefines backend keys (MemoryState.step backend nowSecs operation state).2
        (IdempotencyMap.step backend.ttlSecs nowSecs operation map).2 := by
  cases operation with
  | complete key hlc statusCode headers body =>
    rw [MemoryState.step_complete refines.unlocked]
    exact ⟨rfl, refines.putKey few member _⟩
  | remove key =>
    rw [MemoryState.step_remove refines.unlocked]
    exact ⟨rfl, refines.popKey few key⟩
  | checkOrInsert key hlc =>
    have stored := refines.stored key
    cases visible : map.visible backend.ttlSecs nowSecs key with
    | some record =>
      obtain ⟨found, live⟩ := Option.filter_eq_some_iff.mp visible
      rw [MemoryState.step_checkOrInsert_live refines.unlocked hlc (stored.trans found)
        (of_decide_eq_true live)]
      simp only [IdempotencyMap.step, visible]
      exact ⟨trivial, refines.useKey key⟩
    | none =>
      have dead : ∀ record, (state.shards (backend.shardOf key)).peek key = some record →
          ¬ record.Live backend.ttlSecs nowSecs := by
        intro record found live
        rw [stored] at found
        simp [IdempotencyMap.visible, found, live] at visible
      obtain ⟨room, runs, effect⟩ := MemoryState.step_checkOrInsert_new refines.unlocked nowSecs hlc
        dead
      -- below capacity nothing is evicted
      have noEviction : room = state.useKey (backend.shardOf key) key := by
        rcases effect with ⟨same, -⟩ | ⟨full, _⟩
        · exact same
        · exact absurd full (Nat.not_le.mpr (refines.len_lt few))
      rw [runs, noEviction]
      simp only [IdempotencyMap.step, visible]
      exact ⟨trivial, (refines.useKey key).putKey few member _⟩

/-- A whole run: the replies of the backend are those of the map. -/
theorem replies_eq (refines : MemoryRefines backend keys state map)
    (few : keys.card < backend.maxCapacity) (calls : List (Nat × Operation))
    (member : ∀ call ∈ calls, call.2.key ∈ keys) :
    replies (MemoryState.step backend) state calls =
      replies (IdempotencyMap.step backend.ttlSecs) map calls := by
  induction calls generalizing state map with
  | nil => rfl
  | cons call rest inductionHypothesis =>
    obtain ⟨sameReply, related⟩ :=
      refines.step call.1 few (member call List.mem_cons_self)
    have restMember : ∀ later ∈ rest, later.2.key ∈ keys :=
      fun later inRest => member later (List.mem_cons_of_mem _ inRest)
    simp only [replies, sameReply, inductionHypothesis related restMember]

end MemoryRefines

/-! ## The Redis backend -/

namespace RedisStore

variable {backend : RedisBackend} {nowSecs : Nat} {store : RedisStore}

theorem step_complete {hlc : HlcTimestamp} {statusCode : UInt16} {headers : HeaderMap}
    {body text : String} (key : String)
    (written : backend.codec.toString
      (.completed hlc statusCode (headerPairs headers) body nowSecs) = some text) :
    step backend nowSecs (.complete key hlc statusCode headers body) store =
      (.done, Function.update (store.purge nowSecs) (backend.redisKey key)
        (some ⟨text, nowSecs + backend.ttlSecs⟩)) := by
  simp only [step, RedisBackend.program, RedisBackend.complete, RedisProg.currentUnixSecs,
    RedisProg.getConnection, RedisProg.setEx, Prog.interp_bind]
  simp [Prog.perform, Prog.interp, apply, written]

theorem step_remove (key : String) :
    step backend nowSecs (.remove key) store =
      (.done, Function.update (store.purge nowSecs) (backend.redisKey key) none) := by
  simp [step, RedisBackend.program, RedisBackend.remove, RedisProg.getConnection, RedisProg.del,
    Prog.perform, Prog.interp, apply]

theorem step_checkOrInsert_absent {hlc : HlcTimestamp} {text key : String}
    (written : backend.codec.toString (.inProgress hlc nowSecs) = some text)
    (absent : store.purge nowSecs (backend.redisKey key) = none) :
    step backend nowSecs (.checkOrInsert key hlc) store =
      (.outcome .new, Function.update (store.purge nowSecs) (backend.redisKey key)
        (some ⟨text, nowSecs + backend.ttlSecs⟩)) := by
  simp only [step, RedisBackend.program, RedisBackend.checkOrInsert, RedisProg.currentUnixSecs,
    RedisProg.getConnection, RedisProg.setNxEx, Prog.interp_bind]
  simp [Prog.perform, Prog.interp, apply, written, absent]

theorem step_checkOrInsert_present {hlc : HlcTimestamp} {text key : String} {entry : RedisEntry}
    {record : IdempotencyRecord}
    (written : backend.codec.toString (.inProgress hlc nowSecs) = some text)
    (present : store.purge nowSecs (backend.redisKey key) = some entry)
    (readable : backend.codec.fromStr entry.value = some record) :
    step backend nowSecs (.checkOrInsert key hlc) store =
      (.outcome record.outcome, store.purge nowSecs) := by
  simp only [step, RedisBackend.program, RedisBackend.checkOrInsert, RedisBackend.queryState,
    RedisProg.currentUnixSecs, RedisProg.getConnection, RedisProg.setNxEx, RedisProg.get,
    Prog.interp_bind]
  simp [Prog.perform, Prog.interp, apply, written, present, readable]

end RedisStore

/-- Under a key the store holds the record of `map`, with the time at which it expires, or
    nothing once that time has come. -/
def HoldsRecord (backend : RedisBackend) (nowSecs : Nat) (entry : Option RedisEntry)
    (record : IdempotencyRecord) : Prop :=
  (∃ text, backend.codec.fromStr text = some record ∧
    entry = some ⟨text, record.writtenAt + backend.ttlSecs⟩) ∨
  (entry = none ∧ ¬ record.Live backend.ttlSecs nowSecs)

/-- The Redis store at time `nowSecs` holds the records of `map` that have not expired. -/
structure RedisRefines (backend : RedisBackend) (nowSecs : Nat) (store : RedisStore)
    (map : IdempotencyMap) : Prop where
  absent : ∀ key, map key = none → store (backend.redisKey key) = none
  stored : ∀ key record, map key = some record →
    HoldsRecord backend nowSecs (store (backend.redisKey key)) record

theorem live_iff_before_expiry {ttlSecs : Nat} (nowSecs : Nat) (positive : 0 < ttlSecs)
    (record : IdempotencyRecord) :
    record.Live ttlSecs nowSecs ↔ nowSecs < record.writtenAt + ttlSecs := by
  unfold IdempotencyRecord.Live
  omega

namespace RedisRefines

variable {backend : RedisBackend} {nowSecs laterSecs : Nat} {store : RedisStore}
  {map : IdempotencyMap}

theorem ttlSecs_pos (backend : RedisBackend) : 0 < backend.ttlSecs :=
  Nat.lt_of_lt_of_le Nat.one_pos (Nat.le_max_right _ _)

theorem initial (backend : RedisBackend) :
    RedisRefines backend 0 RedisStore.empty IdempotencyMap.empty where
  absent := fun _ _ => rfl
  stored := fun key record found => by simp [IdempotencyMap.empty] at found

/-- Time passes, and the server drops what has expired. -/
theorem purge (refines : RedisRefines backend nowSecs store map) (later : nowSecs ≤ laterSecs) :
    RedisRefines backend laterSecs (store.purge laterSecs) map where
  absent := fun key absent => by simp [RedisStore.purge, refines.absent key absent]
  stored := by
    intro key record found
    rcases refines.stored key record found with ⟨text, readable, entry⟩ | ⟨entry, dead⟩
    · have liveIff := live_iff_before_expiry laterSecs (ttlSecs_pos backend) record
      by_cases live : laterSecs < record.writtenAt + backend.ttlSecs
      · exact .inl ⟨text, readable, by simp [RedisStore.purge, entry, live]⟩
      · exact .inr ⟨by simpa [RedisStore.purge, entry] using live, liveIff.not.mpr live⟩
    · refine .inr ⟨by simp [RedisStore.purge, entry], ?_⟩
      unfold IdempotencyRecord.Live at dead ⊢
      omega

/-- After the purge a key is present exactly when its record is visible. -/
theorem visible_of_purge (refines : RedisRefines backend nowSecs store map)
    (later : nowSecs ≤ laterSecs) (key : String) :
    match map.visible backend.ttlSecs laterSecs key with
    | none => store.purge laterSecs (backend.redisKey key) = none
    | some record => ∃ text, backend.codec.fromStr text = some record ∧
        store.purge laterSecs (backend.redisKey key) =
          some ⟨text, record.writtenAt + backend.ttlSecs⟩ := by
  have purged := refines.purge later
  cases found : map key with
  | none => simpa [IdempotencyMap.visible, found] using purged.absent key found
  | some record =>
    have liveIff := live_iff_before_expiry laterSecs (ttlSecs_pos backend) record
    rcases purged.stored key record found with ⟨text, readable, entry⟩ | ⟨entry, dead⟩
    · -- what survived the purge expires later
      have unexpired : laterSecs < record.writtenAt + backend.ttlSecs := by
        have kept := entry
        simp only [RedisStore.purge, Option.filter_eq_some_iff, decide_eq_true_eq] at kept
        exact kept.2
      simp only [IdempotencyMap.visible, found, Option.filter_some, liveIff.mpr unexpired,
        decide_true, if_true]
      exact ⟨text, readable, entry⟩
    · have hidden : map.visible backend.ttlSecs laterSecs key = none := by
        simp [IdempotencyMap.visible, found, dead]
      simp only [hidden]
      exact entry

/-- A step that changes one key only. -/
theorem update (refines : RedisRefines backend nowSecs store map) {key : String}
    {entry : Option RedisEntry} {value : Option IdempotencyRecord}
    (absent : value = none → entry = none)
    (holds : ∀ record, value = some record → HoldsRecord backend nowSecs entry record) :
    RedisRefines backend nowSecs (Function.update store (backend.redisKey key) entry)
      (Function.update map key value) where
  absent := by
    intro other missing
    by_cases same : other = key
    · subst same
      simpa using absent (by simpa using missing)
    · rw [Function.update_of_ne (backend.redisKey_injective.ne same)]
      exact refines.absent other (by simpa [same] using missing)
  stored := by
    intro other record found
    by_cases same : other = key
    · subst same
      simpa using holds record (by simpa using found)
    · rw [Function.update_of_ne (backend.redisKey_injective.ne same)]
      exact refines.stored other record (by simpa [same] using found)

theorem put (refines : RedisRefines backend nowSecs store map) {key text : String}
    {record : IdempotencyRecord} (readable : backend.codec.fromStr text = some record)
    (writtenAt : record.writtenAt = nowSecs) :
    RedisRefines backend nowSecs (Function.update store (backend.redisKey key)
      (some ⟨text, nowSecs + backend.ttlSecs⟩)) (Function.update map key (some record)) := by
  refine refines.update (fun impossible => by simp at impossible) fun stored same => .inl ⟨text, ?_, ?_⟩
  · rw [readable, same]
  · rw [← Option.some.inj same, writtenAt]

/-- One operation: the same reply as the map's, and related states again. -/
theorem step (roundTrips : backend.codec.RoundTrips) (refines : RedisRefines backend nowSecs store map)
    (later : nowSecs ≤ laterSecs) (operation : Operation) :
    (RedisStore.step backend laterSecs operation store).1 =
        (IdempotencyMap.step backend.ttlSecs laterSecs operation map).1 ∧
      RedisRefines backend laterSecs (RedisStore.step backend laterSecs operation store).2
        (IdempotencyMap.step backend.ttlSecs laterSecs operation map).2 := by
  -- what has expired meanwhile is gone from both
  have purged := refines.purge later
  cases operation with
  | complete key hlc statusCode headers body =>
    obtain ⟨text, written, readable⟩ :=
      roundTrips (.completed hlc statusCode (headerPairs headers) body laterSecs)
    rw [RedisStore.step_complete key written]
    exact ⟨rfl, purged.put readable rfl⟩
  | remove key =>
    rw [RedisStore.step_remove]
    exact ⟨rfl, purged.update (fun _ => rfl) fun record impossible => by simp at impossible⟩
  | checkOrInsert key hlc =>
    obtain ⟨text, written, readable⟩ := roundTrips (.inProgress hlc laterSecs)
    have seen := refines.visible_of_purge later key
    cases visible : map.visible backend.ttlSecs laterSecs key with
    | none =>
      simp only [visible] at seen
      rw [RedisStore.step_checkOrInsert_absent written seen]
      simp only [IdempotencyMap.step, visible]
      exact ⟨trivial, purged.put readable rfl⟩
    | some record =>
      simp only [visible] at seen
      obtain ⟨stored, readableStored, entry⟩ := seen
      rw [RedisStore.step_checkOrInsert_present written entry readableStored]
      simp only [IdempotencyMap.step, visible]
      exact ⟨trivial, purged⟩

theorem replies_eq (roundTrips : backend.codec.RoundTrips)
    (refines : RedisRefines backend nowSecs store map) (calls : List (Nat × Operation))
    (ordered : (nowSecs :: calls.map Prod.fst).Pairwise (· ≤ ·)) :
    replies (RedisStore.step backend) store calls =
      replies (IdempotencyMap.step backend.ttlSecs) map calls := by
  induction calls generalizing nowSecs store map with
  | nil => rfl
  | cons call rest inductionHypothesis =>
    simp only [List.map_cons, List.pairwise_cons, List.mem_cons, forall_eq_or_imp] at ordered
    obtain ⟨⟨later, _⟩, restOrdered, sorted⟩ := ordered
    obtain ⟨sameReply, related⟩ := refines.step roundTrips later call.2
    have orderedRest : (call.1 :: rest.map Prod.fst).Pairwise (· ≤ ·) :=
      List.pairwise_cons.mpr ⟨restOrdered, sorted⟩
    simp only [replies, sameReply, inductionHypothesis related orderedRest]

end RedisRefines

/-! ## Equivalence -/

/-- On every sequence of calls at non-decreasing times, over fewer distinct keys than the
    capacity, the two backends give the replies of the map. -/
theorem backends_reply_alike (memory : MemoryBackend) (redis : RedisBackend)
    (sameTtl : memory.ttl = redis.ttl) (roundTrips : redis.codec.RoundTrips)
    (calls : List (Nat × Operation)) (ordered : (calls.map Prod.fst).Pairwise (· ≤ ·))
    (few : (calls.map fun call => call.2.key).toFinset.card < memory.maxCapacity) :
    replies (MemoryState.step memory) (MemoryState.new memory) calls =
        replies (RedisStore.step redis) RedisStore.empty calls ∧
      replies (MemoryState.step memory) (MemoryState.new memory) calls =
        replies (IdempotencyMap.step (max 1 memory.ttl)) IdempotencyMap.empty calls := by
  have sameTtlSecs : redis.ttlSecs = memory.ttlSecs := by
    simp [RedisBackend.ttlSecs, MemoryBackend.ttlSecs, sameTtl]
  have ttlSecs : memory.ttlSecs = max 1 memory.ttl := Nat.max_comm _ _
  have memoryReplies := (MemoryRefines.initial memory _).replies_eq few calls
    fun call member => List.mem_toFinset.mpr (List.mem_map_of_mem member)
  have redisReplies := (RedisRefines.initial redis).replies_eq roundTrips calls
    (List.pairwise_cons.mpr ⟨fun _ _ => Nat.zero_le _, ordered⟩)
  rw [sameTtlSecs] at redisReplies
  rw [← ttlSecs]
  exact ⟨memoryReplies.trans redisReplies.symm, memoryReplies⟩

/-- A key is locked, completed by its holder, replayed, taken over once it has expired, and
    removed; a second key is completed without a lock. -/
def sampleCalls : List (Nat × Operation) :=
  [(5, .checkOrInsert "a" ⟨1000, 0⟩), (5, .checkOrInsert "a" ⟨1000, 1⟩),
    (6, .complete "a" ⟨1000, 0⟩ 200 [("etag", HeaderValue.ofString "v1")] "ok"),
    (7, .checkOrInsert "a" ⟨2000, 0⟩), (8, .checkOrInsert "a" ⟨3000, 0⟩),
    (8, .remove "a"), (9, .complete "b" ⟨4000, 0⟩ 202 [] "")]

theorem backends_reply_alike_on_sampleCalls :
    replies (MemoryState.step ⟨2, 3, fun key => .ofNat key.length, by decide⟩)
        (MemoryState.new ⟨2, 3, fun key => .ofNat key.length, by decide⟩) sampleCalls =
      replies (RedisStore.step ⟨2, "spectra:idempotency", RecordJson.codec⟩) RedisStore.empty
        sampleCalls ∧
    replies (MemoryState.step ⟨2, 3, fun key => .ofNat key.length, by decide⟩)
        (MemoryState.new ⟨2, 3, fun key => .ofNat key.length, by decide⟩) sampleCalls =
      [.outcome .new, .outcome (.conflict ⟨1000, 0⟩), .done,
        .outcome (.replay ⟨1000, 0⟩ 200 [("etag", "v1")] "ok"), .outcome .new, .done, .done] := by
  have alike := backends_reply_alike ⟨2, 3, fun key => .ofNat key.length, by decide⟩
    ⟨2, "spectra:idempotency", RecordJson.codec⟩ rfl RecordJson.roundTrips_codec sampleCalls
    (by decide) (by decide)
  exact ⟨alike.1, alike.2.trans (by decide)⟩

end SpectraGQL.Idempotency
