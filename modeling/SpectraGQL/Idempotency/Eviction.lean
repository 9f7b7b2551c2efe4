import SpectraGQL.Idempotency.Sequential

/-! # What capacity pressure does to a record

The memory backend bounds its records by evicting the least recently used one, and does
not look at what it evicts.  `stored_step` lists everything that can happen to a record
in one operation, and `between_two_news` follows a key through a whole run: a second
`New` needs a removal, an elapsed time to live, or an eviction of the key.
-/

namespace SpectraGQL.Idempotency

open SpectraGQL.Core SpectraGQL.Http
open Interaction Data

namespace MemoryState

/-- The record under a key. -/
def stored {ι : Type} (backend : MemoryBackend) (state : MemoryState ι) (key : String) :
    Option IdempotencyRecord :=
  (state.shards (backend.shardOf key)).peek key

/-- The state after a sequence of calls, each at its own time. -/
def run (backend : MemoryBackend) (state : MemoryState Unit) (calls : List (Nat × Operation)) :
    MemoryState Unit :=
  calls.foldl (fun state call => (step backend call.1 call.2 state).2) state

@[simp] theorem run_nil (backend : MemoryBackend) (state : MemoryState Unit) :
    run backend state [] = state := rfl

@[simp] theorem run_concat (backend : MemoryBackend) (state : MemoryState Unit)
    (calls : List (Nat × Operation)) (call : Nat × Operation) :
    run backend state (calls ++ [call]) = (step backend call.1 call.2 (run backend state calls)).2 := by
  simp [run]

/-! ## Eviction -/

/-- Adding `other` to the shard of `key` makes the shard drop its oldest entry. -/
def Crowded (backend : MemoryBackend) (state : MemoryState Unit) (other key : String) : Prop :=
  backend.shardOf other = backend.shardOf key ∧ stored backend state other = none ∧
    (state.shards (backend.shardOf key)).cap ≤ (state.shards (backend.shardOf key)).size

/-- The operation, on another key, may evict the record of `key`: the record is the least
    recently used one of its shard, and either the counter has reached the capacity or
    the shard is full. -/
def Evicts (backend : MemoryBackend) (state : MemoryState Unit) (operation : Operation)
    (key : String) : Prop :=
  operation.key ≠ key ∧
  ((state.useKey (backend.shardOf operation.key) operation.key).shards
    (backend.shardOf key)).oldest? = some key ∧
  match operation with
  | .checkOrInsert other _ => backend.maxCapacity ≤ state.len ∨ Crowded backend state other key
  | .complete other _ _ _ _ => Crowded backend state other key
  | .remove _ => False

section Effects

variable {backend : MemoryBackend} {state : MemoryState Unit} {key other : String}

@[simp] theorem stored_useKey (shard : Shard) :
    stored backend (state.useKey shard other) key = stored backend state key := by
  simp [stored]

theorem stored_dropOldest (shard : Shard) :
    stored backend (state.dropOldest shard) key =
      if shard = backend.shardOf key ∧ (state.shards shard).oldest? = some key then none
      else stored backend state key := by
  by_cases same : shard = backend.shardOf key
  · subst same
    simp [stored, dropOldest, LruCache.peek_dropOldest]
  · simp [stored, dropOldest, same, Ne.symm same]

theorem stored_popKey :
    stored backend (state.popKey (backend.shardOf other) other) key =
      if key = other then none else stored backend state key := by
  by_cases same : key = other
  · subst same
    simp [stored, peek_popKey]
  · simp [stored, peek_popKey, same]

theorem stored_putKey_self (record : IdempotencyRecord) :
    stored backend (state.putKey (backend.shardOf key) key record) key = some record := by
  simp [stored, putKey, LruCache.peek_put]

/-- Putting another key loses the record only if the shard is crowded and the record is
    the oldest there. -/
theorem stored_putKey_of_ne (backend : MemoryBackend) (state : MemoryState Unit) (record : IdempotencyRecord) (different : other ≠ key) :
    stored backend (state.putKey (backend.shardOf other) other record) key = stored backend state key ∨
      Crowded backend state other key ∧ (state.shards (backend.shardOf key)).oldest? = some key := by
  by_cases sameShard : backend.shardOf other = backend.shardOf key
  · by_cases room : (state.shards (backend.shardOf key)).size < (state.shards (backend.shardOf key)).cap
    · left
      rw [sameShard]
      simp [stored, peek_putKey_of_room other record _ room, Ne.symm different]
    · by_cases absent : stored backend state other = none
      · by_cases oldest : (state.shards (backend.shardOf key)).oldest? = some key
        · exact .inr ⟨⟨sameShard, absent, Nat.not_lt.mp room⟩, oldest⟩
        · left
          rw [sameShard]
          simp [stored, putKey, LruCache.peek_put, Ne.symm different, LruCache.makeRoom, room,
            LruCache.peek_dropOldest, oldest]
      · left
        rw [stored, sameShard] at absent
        rw [sameShard]
        simp [stored, putKey, LruCache.peek_put, Ne.symm different, absent]
  · left
    simp [stored, putKey, Ne.symm sameShard]

end Effects

/-! ## One operation -/

section Step

variable {backend : MemoryBackend} {state : MemoryState Unit} {key : String}
  {record : IdempotencyRecord} {nowSecs : Nat}

theorem oldest_of_absent {other : String} (absent : stored backend state other = none) :
    (state.useKey (backend.shardOf other) other).shards = state.shards := by
  have unused : ((state.shards (backend.shardOf other)).get other).2 = state.shards (backend.shardOf other) :=
    LruCache.get_snd_of_absent absent
  simp [useKey, setShard, unused]

/-- The operation writes its own record under the key: a completion, or a new lock over a
    record that is no longer live. -/
def Rewrites (backend : MemoryBackend) (nowSecs : Nat) (operation : Operation) (key : String)
    (record : IdempotencyRecord) : Prop :=
  (∃ hlc statusCode headers body, operation = .complete key hlc statusCode headers body) ∨
  (∃ hlc, operation = .checkOrInsert key hlc) ∧ ¬ record.Live backend.ttlSecs nowSecs

/-- Everything that can happen to a record in one operation. -/
theorem stored_step (nowSecs : Nat) (unlocked : state.Unlocked) (found : stored backend state key = some record)
    (operation : Operation) :
    stored backend (step backend nowSecs operation state).2 key = some record ∨
    operation = .remove key ∨ Evicts backend state operation key ∨
    Rewrites backend nowSecs operation key record ∧
      ∃ written, stored backend (step backend nowSecs operation state).2 key = some written ∧
        written.writtenAt = nowSecs := by
  cases operation with
  | remove other =>
    rw [step_remove unlocked]
    by_cases same : key = other
    · exact .inr (.inl (by rw [same]))
    · left
      rw [stored_popKey, if_neg same]
      exact found
  | complete other hlc statusCode headers body =>
    rw [step_complete unlocked]
    by_cases same : other = key
    · subst same
      exact .inr (.inr (.inr ⟨.inl ⟨_, _, _, _, rfl⟩, _, stored_putKey_self _, rfl⟩))
    · rcases stored_putKey_of_ne backend state
        (.completed hlc statusCode (headerPairs headers) body nowSecs) same with kept | ⟨crowded, oldest⟩
      · exact .inl (kept.trans found)
      · refine .inr (.inr (.inl ⟨same, ?_, crowded⟩))
        rw [Operation.key, oldest_of_absent crowded.2.1]
        exact oldest
  | checkOrInsert other hlc =>
    by_cases live : ∃ seen, stored backend state other = some seen ∧ seen.Live backend.ttlSecs nowSecs
    · obtain ⟨seen, foundOther, isLive⟩ := live
      left
      rw [step_checkOrInsert_live unlocked hlc foundOther isLive, stored_useKey]
      exact found
    · have dead : ∀ seen, (state.shards (backend.shardOf other)).peek other = some seen →
          ¬ seen.Live backend.ttlSecs nowSecs := fun seen isSeen isLive => live ⟨seen, isSeen, isLive⟩
      obtain ⟨room, runs, effect⟩ := step_checkOrInsert_new unlocked nowSecs hlc dead
      rw [runs]
      by_cases same : other = key
      · subst same
        exact .inr (.inr (.inr ⟨.inr ⟨⟨_, rfl⟩, dead record found⟩, _, stored_putKey_self _, rfl⟩))
      · -- the insertion of another key: it may lose the record to the eviction or to the put
        have put := stored_putKey_of_ne backend room (.inProgress hlc nowSecs) same
        rcases effect with ⟨rfl, -⟩ | ⟨full, shard, victim, oldestVictim, -, rfl⟩
        · rcases put with kept | ⟨crowded, oldest⟩
          · left
            rw [kept, stored_useKey]
            exact found
          · refine .inr (.inr (.inl ⟨same, oldest, .inr ?_⟩))
            simpa [Crowded] using crowded
        · by_cases evicted : shard = backend.shardOf key ∧
              ((state.useKey (backend.shardOf other) other).shards shard).oldest? = some key
          · obtain ⟨rfl, oldest⟩ := evicted
            exact .inr (.inr (.inl ⟨same, oldest, .inl full⟩))
          · rcases put with kept | ⟨crowded, oldest⟩
            · left
              rw [kept, stored_dropOldest, if_neg evicted, stored_useKey]
              exact found
            · refine .inr (.inr (.inl ⟨same, ?_, .inl full⟩))
              by_cases sameShard : backend.shardOf key = shard
              · -- the shard that just lost an entry is not full
                have tight := crowded.2.2
                have capPos := (state.shards shard).capPos
                have bounded := (state.shards shard).size_le_cap
                rw [sameShard] at tight
                simp only [dropOldest, shards_setShard_self, LruCache.cap_dropOldest,
                  LruCache.size_dropOldest, cap_useKey, size_useKey] at tight
                omega
              · simpa [dropOldest, sameShard, Operation.key] using oldest

theorem unlocked_step (unlocked : state.Unlocked) (operation : Operation) :
    (step backend nowSecs operation state).2.Unlocked := by
  cases operation with
  | remove other =>
    rw [step_remove unlocked]
    exact unlocked
  | complete other hlc statusCode headers body =>
    rw [step_complete unlocked]
    exact unlocked
  | checkOrInsert other hlc =>
    by_cases live : ∃ seen, stored backend state other = some seen ∧ seen.Live backend.ttlSecs nowSecs
    · obtain ⟨seen, foundOther, isLive⟩ := live
      rw [step_checkOrInsert_live unlocked hlc foundOther isLive]
      exact unlocked
    · obtain ⟨room, runs, effect⟩ := step_checkOrInsert_new unlocked nowSecs hlc
        fun seen isSeen isLive => live ⟨seen, isSeen, isLive⟩
      rw [runs]
      rcases effect with ⟨rfl, -⟩ | ⟨_, shard, victim, _, _, rfl⟩
      · exact unlocked
      · exact unlocked

theorem unlocked_run (backend : MemoryBackend) (calls : List (Nat × Operation)) :
    (run backend (new backend) calls).Unlocked := by
  induction calls using List.reverseRecOn with
  | nil => exact fun _ => rfl
  | append_singleton calls call inductionHypothesis =>
    rw [run_concat]
    exact unlocked_step inductionHypothesis call.2

/-- `New` is answered exactly when there is no live record. -/
theorem step_new_iff (unlocked : state.Unlocked) (hlc : HlcTimestamp) :
    (step backend nowSecs (.checkOrInsert key hlc) state).1 = .outcome .new ↔
      ∀ record, stored backend state key = some record → ¬ record.Live backend.ttlSecs nowSecs := by
  constructor
  · intro isNew record found live
    rw [step_checkOrInsert_live unlocked hlc found live] at isNew
    cases record <;> cases isNew
  · intro dead
    obtain ⟨room, runs, _⟩ := step_checkOrInsert_new unlocked nowSecs hlc dead
    rw [runs]

end Step

/-! ## A key along a run -/

section Run

variable {backend : MemoryBackend} {key : String}

/-- Between the calls `before` and the current state the key has been removed. -/
def RemovedAmong (key : String) (calls : List (Nat × Operation)) : Prop :=
  ∃ earlier nowSecs later, calls = earlier ++ (nowSecs, .remove key) :: later

/-- Some of `calls`, executed after `before`, evicts the key. -/
def EvictedAmong (backend : MemoryBackend) (key : String) (before calls : List (Nat × Operation)) :
    Prop :=
  ∃ earlier nowSecs operation later, calls = earlier ++ (nowSecs, operation) :: later ∧
    Evicts backend (run backend (new backend) (before ++ earlier)) operation key

theorem RemovedAmong.append {calls : List (Nat × Operation)} (removed : RemovedAmong key calls)
    (more : List (Nat × Operation)) : RemovedAmong key (calls ++ more) := by
  obtain ⟨earlier, nowSecs, later, rfl⟩ := removed
  exact ⟨earlier, nowSecs, later ++ more, by simp⟩

theorem EvictedAmong.append {before calls : List (Nat × Operation)}
    (evicted : EvictedAmong backend key before calls) (more : List (Nat × Operation)) :
    EvictedAmong backend key before (calls ++ more) := by
  obtain ⟨earlier, nowSecs, operation, later, rfl, evicts⟩ := evicted
  exact ⟨earlier, nowSecs, operation, later ++ more, by simp, evicts⟩

/-- After a `New` the key stays stored, under a record written by one of the calls since,
    until it is removed or evicted. -/
theorem stored_since_new {before : List (Nat × Operation)} {startSecs : Nat} {hlc : HlcTimestamp}
    (isNew : (step backend startSecs (.checkOrInsert key hlc) (run backend (new backend) before)).1 =
      .outcome .new) (between : List (Nat × Operation)) :
    RemovedAmong key between ∨
    EvictedAmong backend key (before ++ [(startSecs, .checkOrInsert key hlc)]) between ∨
    ∃ record, stored backend (run backend (new backend)
        (before ++ [(startSecs, .checkOrInsert key hlc)] ++ between)) key = some record ∧
      ∃ call ∈ (startSecs, .checkOrInsert key hlc) :: between,
        call.2.key = key ∧ record.writtenAt = call.1 := by
  induction between using List.reverseRecOn with
  | nil =>
    have dead := (step_new_iff (unlocked_run backend before) hlc).mp isNew
    obtain ⟨room, runs, _⟩ := step_checkOrInsert_new (unlocked_run backend before) _ hlc dead
    refine .inr (.inr ⟨.inProgress hlc startSecs, ?_, _, List.mem_cons_self, rfl, rfl⟩)
    rw [List.append_nil, run_concat, runs]
    exact stored_putKey_self _
  | append_singleton between call inductionHypothesis =>
    rcases inductionHypothesis with removed | evicted | ⟨record, found, writer, inCalls, sameKey, written⟩
    · exact .inl (removed.append _)
    · exact .inr (.inl (evicted.append _))
    · have unlocked := unlocked_run backend
        (before ++ [(startSecs, .checkOrInsert key hlc)] ++ between)
      rw [← List.append_assoc, run_concat]
      -- the next call leaves the record, removes it, evicts it, or rewrites it and is then the writer
      rcases stored_step call.1 unlocked found call.2 with
        kept | isRemove | evicts | ⟨rewrites, fresh, foundFresh, writtenNow⟩
      · refine .inr (.inr ⟨record, kept, writer, ?_, sameKey, written⟩)
        exact List.mem_append_left [call] inCalls
      · exact .inl ⟨between, call.1, [], by rw [← isRemove]⟩
      · exact .inr (.inl ⟨between, call.1, call.2, [], rfl, evicts⟩)
      · refine .inr (.inr ⟨fresh, foundFresh, call, by simp, ?_, writtenNow⟩)
        rcases rewrites with ⟨_, _, _, _, isComplete⟩ | ⟨⟨_, isCheck⟩, _⟩
        · rw [isComplete]
          rfl
        · rw [isCheck]
          rfl

end Run

/-! ## In-flight locks -/

/-- In every run of the memory backend, of whatever capacity: a live in-progress record
    disappears only through `complete` or `remove` of its key or through eviction; hence
    between two `New` outcomes for one key there is a `remove` of the key, an eviction of
    it, or a call on the key since which its time to live has elapsed. -/
theorem inFlight_survives_up_to_eviction (backend : MemoryBackend) :
    (∀ before nowSecs operation key hlc startedAtSecs,
      stored backend (run backend (new backend) before) key = some (.inProgress hlc startedAtSecs) →
      (IdempotencyRecord.inProgress hlc startedAtSecs).Live backend.ttlSecs nowSecs →
      stored backend (run backend (new backend) (before ++ [(nowSecs, operation)])) key ≠
        some (.inProgress hlc startedAtSecs) →
      (∃ hlc statusCode headers body, operation = .complete key hlc statusCode headers body) ∨
      operation = .remove key ∨ Evicts backend (run backend (new backend) before) operation key) ∧
    (∀ before startSecs hlc between nowSecs hlc' key,
      (step backend startSecs (.checkOrInsert key hlc) (run backend (new backend) before)).1 =
        .outcome .new →
      (step backend nowSecs (.checkOrInsert key hlc') (run backend (new backend)
        (before ++ [(startSecs, .checkOrInsert key hlc)] ++ between))).1 = .outcome .new →
      RemovedAmong key between ∨
      EvictedAmong backend key (before ++ [(startSecs, .checkOrInsert key hlc)]) between ∨
      ∃ call ∈ (startSecs, .checkOrInsert key hlc) :: between,
        call.2.key = key ∧ backend.ttlSecs ≤ nowSecs - call.1) := by
  constructor
  · intro before nowSecs operation key hlc startedAtSecs found live lost
    rw [run_concat] at lost
    rcases stored_step nowSecs (unlocked_run backend before) found operation with
      kept | isRemove | evicts | ⟨rewrites, _⟩
    · exact absurd kept lost
    · exact .inr (.inl isRemove)
    · exact .inr (.inr evicts)
    · rcases rewrites with isComplete | ⟨_, dead⟩
      · exact .inl isComplete
      · exact absurd live dead
  · intro before startSecs hlc between nowSecs hlc' key firstNew secondNew
    rcases stored_since_new firstNew between with removed | evicted | ⟨record, found, writer, inCalls, sameKey, written⟩
    · exact .inl removed
    · exact .inr (.inl evicted)
    -- the second `New` finds a record that is no longer live, written by one of the calls
    · have dead := (step_new_iff (unlocked_run backend _) hlc').mp secondNew record found
      refine .inr (.inr ⟨writer, inCalls, sameKey, ?_⟩)
      rw [← written]
      exact Nat.not_lt.mp dead

/-- A backend with room for one record. -/
def tinyBackend : MemoryBackend := ⟨300, 1, fun key => .ofNat key.length, by decide⟩

theorem inFlight_survives_up_to_eviction_tiny :
    RemovedAmong "a" [(0, .checkOrInsert "b" ⟨1000, 1⟩)] ∨
    EvictedAmong tinyBackend "a" [(0, .checkOrInsert "a" ⟨1000, 0⟩)]
      [(0, .checkOrInsert "b" ⟨1000, 1⟩)] ∨
    ∃ call ∈ ([(0, .checkOrInsert "a" ⟨1000, 0⟩), (0, .checkOrInsert "b" ⟨1000, 1⟩)] :
        List (Nat × Operation)), call.2.key = "a" ∧ tinyBackend.ttlSecs ≤ 0 - call.1 :=
  (inFlight_survives_up_to_eviction tinyBackend).2 [] 0 ⟨1000, 0⟩
    [(0, .checkOrInsert "b" ⟨1000, 1⟩)] 0 ⟨1000, 2⟩ "a" (by decide) (by decide)

/-- Without a removal and within one second, a lock is lost and the key is granted again. -/
theorem inFlight_lost_to_eviction :
    ¬ ((∀ before nowSecs operation key hlc startedAtSecs,
        stored tinyBackend (run tinyBackend (new tinyBackend) before) key =
          some (.inProgress hlc startedAtSecs) →
        (IdempotencyRecord.inProgress hlc startedAtSecs).Live tinyBackend.ttlSecs nowSecs →
        stored tinyBackend (run tinyBackend (new tinyBackend) (before ++ [(nowSecs, operation)])) key ≠
          some (.inProgress hlc startedAtSecs) →
        (∃ hlc statusCode headers body, operation = .complete key hlc statusCode headers body) ∨
        operation = .remove key)) ∧
    replies (step tinyBackend) (new tinyBackend)
      [(0, .checkOrInsert "a" ⟨1000, 0⟩), (0, .checkOrInsert "b" ⟨1000, 1⟩),
        (0, .checkOrInsert "a" ⟨1000, 2⟩)] = [.outcome .new, .outcome .new, .outcome .new] := by
  refine ⟨fun survives => ?_, by decide⟩
  rcases survives [(0, .checkOrInsert "a" ⟨1000, 0⟩)] 0 (.checkOrInsert "b" ⟨1000, 1⟩) "a" ⟨1000, 0⟩ 0
    (by decide) (by decide) (by decide) with ⟨_, _, _, _, impossible⟩ | impossible
  · cases impossible
  · cases impossible

end MemoryState

end SpectraGQL.Idempotency
