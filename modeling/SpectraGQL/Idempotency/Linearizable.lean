import SpectraGQL.Interaction.Linearizability
import SpectraGQL.Interaction.Schedule
import SpectraGQL.Idempotency.Sequential
import Mathlib.Data.Finset.Card

/-! # The memory backend is linearizable

Any number of threads run `check_or_insert`, `complete` and `remove` on the memory
backend, interleaved at every clock reading, lock operation, cache operation and access
of the counter.  An operation takes effect when it takes the lock of its key's shard.

The argument is a rely–guarantee one.  What a thread relies on is that nobody touches a
shard whose lock it holds.  The invariant says that every key nobody is working on is
stored as the abstract map has it, and that the counter counts the keys of the calls
that have incremented it without a decrement since; below the capacity in distinct keys
the counter therefore never reaches it, and no call enters the eviction path.
-/

namespace SpectraGQL.Idempotency

open SpectraGQL.Core SpectraGQL.Http
open Interaction Data

/-! ## The abstract map -/

/-- The sequential map: absent, in progress or completed under every key. -/
def idempotencyObject : SeqObject Operation Reply (String → Option KeyState) where
  initial := fun _ => none
  step := fun operation map =>
    ((operation.onKey (map operation.key)).1,
      Function.update map operation.key (operation.onKey (map operation.key)).2)

variable {ι : Type}

theorem idempotencyObject_answer (calls : ι → Operation) (order : List ι) (call : ι) :
    idempotencyObject.answer calls order call =
      ((calls call).onKey (idempotencyObject.after calls order (calls call).key)).1 := rfl

theorem idempotencyObject_after_concat (calls : ι → Operation) (order : List ι) (call : ι) :
    idempotencyObject.after calls (order ++ [call]) =
      Function.update (idempotencyObject.after calls order) (calls call).key
        ((calls call).onKey (idempotencyObject.after calls order (calls call).key)).2 :=
  SeqObject.after_concat _ _ _ _

/-- The threads of the backend: each makes one call. -/
def memorySystem (backend : MemoryBackend) (calls : ι → Operation) :
    System memorySignature ι Empty (MemoryState ι) Reply where
  program := fun thread => backend.program (calls thread)
  meaning := MemoryState.meaning
  environment := fun event => nomatch event

/-- Runs of the threads at given clock readings. -/
def memoryScheduler (backend : MemoryBackend) (calls : ι → Operation) :
    Scheduler (memorySystem backend calls) Nat where
  answer := fun nowSecs thread call state =>
    if state.Enabled call then some (MemoryState.apply thread nowSecs call state) else none
  event := fun event => nomatch event
  answer_sound := by
    intro nowSecs thread call before result answered
    by_cases enabled : before.Enabled call
    · rw [if_pos enabled] at answered
      exact ⟨enabled, nowSecs, (Option.some.inj answered).symm⟩
    · rw [if_neg enabled] at answered
      cases answered
  event_sound := fun event => nomatch event

abbrev MemoryLabel (ι : Type) := Label memorySignature ι Empty Reply

abbrev MemoryMoment (ι : Type) := Moment memorySignature ι Empty (MemoryState ι) Reply

/-- A call takes effect when it takes its lock. -/
def lockPoint : MemoryLabel ι → Option ι
  | .perform thread ⟨.lock _, _⟩ => some thread
  | _ => none

theorem lockPoint_own {label : MemoryLabel ι} {call : ι} (isPoint : lockPoint label = some call) :
    label.thread? = some call := by
  unfold lockPoint at isPoint
  split at isPoint
  · exact isPoint
  · cases isPoint

/-- The calls in the order in which they took their locks. -/
def lockOrder (history : List (MemoryLabel ι)) : List ι := pointOrder lockPoint history

/-- No call has found a record that had reached its time to live. -/
def NoneExpired (backend : MemoryBackend) (history : List (MemoryLabel ι)) : Prop :=
  ∀ thread nowSecs shard key record,
    .perform thread ⟨.currentUnixSecs, nowSecs⟩ ∈ history →
    .perform thread ⟨.get shard key, some record⟩ ∈ history →
    record.Live backend.ttlSecs nowSecs

namespace MemoryRun

variable (calls : ι → Operation)

/-! ## Ghost state -/

/-- What a step does to the set of counted keys. -/
def countStep (counted : Finset String) : MemoryLabel ι → Finset String
  | .perform thread ⟨.lenFetchAdd, _⟩ => insert (calls thread).key counted
  | .perform thread ⟨.lenFetchSub, _⟩ => counted.erase (calls thread).key
  | _ => counted

/-- The keys that the counter counts. -/
def counted (history : List (MemoryLabel ι)) : Finset String :=
  history.foldl (countStep calls) ∅

@[simp] theorem counted_concat (history : List (MemoryLabel ι)) (label : MemoryLabel ι) :
    counted calls (history ++ [label]) = countStep calls (counted calls history) label := by
  simp [counted]

/-- The abstract map, after the calls in lock order. -/
def abstractMap (history : List (MemoryLabel ι)) : String → Option KeyState :=
  idempotencyObject.after calls (lockOrder history)

@[simp] theorem lockOrder_concat (history : List (MemoryLabel ι)) (label : MemoryLabel ι) :
    lockOrder (history ++ [label]) = lockOrder history ++ (lockPoint label).toList := by
  simp only [lockOrder, pointOrder, List.filterMap_append, List.append_cancel_left_eq]
  cases point : lockPoint label <;> simp [point]

/-- A step that neither takes a lock nor changes the counter. -/
def Silent (label : MemoryLabel ι) : Prop :=
  lockPoint label = none ∧ ∀ counted, countStep calls counted label = counted

theorem abstractMap_concat_of_no_point {history : List (MemoryLabel ι)} {label : MemoryLabel ι}
    (noPoint : lockPoint label = none) :
    abstractMap calls (history ++ [label]) = abstractMap calls history := by
  simp [abstractMap, noPoint]

theorem abstractMap_concat_lock (history : List (MemoryLabel ι)) (thread : ι) (shard : Shard) :
    abstractMap calls (history ++ [.perform thread ⟨.lock shard, ()⟩]) =
      Function.update (abstractMap calls history) (calls thread).key
        ((calls thread).onKey (abstractMap calls history (calls thread).key)).2 := by
  simp only [abstractMap, lockOrder_concat, lockPoint, Option.toList_some]
  exact idempotencyObject_after_concat calls (lockOrder history) thread

/-! ## Invariant, rely and guarantee -/

variable (backend : MemoryBackend) (keys : Finset String)

/-- The home of a key: the shard it is stored in. -/
abbrev home (shared : MemoryState ι) (key : String) : LruCache String IdempotencyRecord :=
  shared.shards (backend.shardOf key)

/-- The key is stored as the abstract map has it, and counted if it is stored. -/
def Settled (moment : MemoryMoment ι) (key : String) : Prop :=
  ((home backend moment.shared key).peek key).map IdempotencyRecord.keyState =
      abstractMap calls moment.history key ∧
    (key ∈ counted calls moment.history ↔ (home backend moment.shared key).peek key ≠ none)

structure Inv (moment : MemoryMoment ι) : Prop where
  caps : ∀ shard, backend.maxCapacity ≤ (moment.shared.shards shard).cap
  stored : ∀ shard key, (moment.shared.shards shard).peek key ≠ none →
    key ∈ keys ∧ backend.shardOf key = shard
  len : moment.shared.len = (counted calls moment.history).card
  within : counted calls moment.history ⊆ keys
  ownShard : ∀ shard thread, moment.shared.owner shard = some thread →
    backend.shardOf (calls thread).key = shard
  settled : ∀ key, (∀ thread, moment.shared.owner (backend.shardOf key) = some thread →
    (calls thread).key ≠ key) → Settled calls backend moment key
  nodup : (lockOrder moment.history).Nodup
  responded : ∀ thread value, .finish thread value ∈ moment.history →
    idempotencyObject.Answers calls (lockOrder moment.history) thread value

/-- Nobody else touches a shard while its lock is held. -/
def Protected (before after : MemoryMoment ι) (shard : Shard) : Prop :=
  after.shared.owner shard = before.shared.owner shard ∧
  after.shared.shards shard = before.shared.shards shard ∧
  ∀ key, backend.shardOf key = shard →
    abstractMap calls after.history key = abstractMap calls before.history key ∧
    (key ∈ counted calls after.history ↔ key ∈ counted calls before.history)

structure Rely (thread : ι) (before after : MemoryMoment ι) : Prop where
  history : before.history <+: after.history
  order : ∃ more, lockOrder after.history = lockOrder before.history ++ more ∧ thread ∉ more
  locked : ∀ shard, before.shared.owner shard = some thread → Protected calls backend before after shard

def Guar (thread : ι) (before after : MemoryMoment ι) : Prop :=
  Inv calls backend keys after ∧ ∀ other, other ≠ thread → Rely calls backend other before after

variable {calls backend keys}

theorem Rely.refl (thread : ι) (moment : MemoryMoment ι) : Rely calls backend thread moment moment where
  history := List.prefix_rfl
  order := ⟨[], by simp, by simp⟩
  locked := fun shard _ => ⟨rfl, rfl, fun key _ => ⟨rfl, Iff.rfl⟩⟩

theorem Rely.trans {thread : ι} {first second third : MemoryMoment ι}
    (early : Rely calls backend thread first second) (late : Rely calls backend thread second third) :
    Rely calls backend thread first third where
  history := early.history.trans late.history
  order := by
    obtain ⟨more, orderEarly, notEarly⟩ := early.order
    obtain ⟨rest, orderLate, notLate⟩ := late.order
    exact ⟨more ++ rest, by rw [orderLate, orderEarly, List.append_assoc],
      by simp [notEarly, notLate]⟩
  locked := by
    intro shard held
    obtain ⟨owner, shards, keys⟩ := early.locked shard held
    obtain ⟨owner', shards', keys'⟩ := late.locked shard (owner.trans held)
    refine ⟨owner'.trans owner, shards'.trans shards, fun key ofShard => ?_⟩
    exact ⟨(keys' key ofShard).1.trans (keys key ofShard).1,
      (keys' key ofShard).2.trans (keys key ofShard).2⟩

/-- What a call has learned of its answer stays true. -/
theorem Rely.answers {thread : ι} {before after : MemoryMoment ι}
    (rely : Rely calls backend thread before after) {call : ι} {value : Reply}
    (answers : idempotencyObject.Answers calls (lockOrder before.history) call value) :
    idempotencyObject.Answers calls (lockOrder after.history) call value := by
  obtain ⟨more, order, _⟩ := rely.order
  rw [order]
  exact answers.append more

/-! ## Steps that keep the invariant -/

variable {moment : MemoryMoment ι} {shared : MemoryState ι} {label : MemoryLabel ι} {thread : ι}

/-- No label but `finish` adds a response. -/
theorem Inv.responded_concat (inv : Inv calls backend keys moment)
    (notFinish : ∀ thread value, label ≠ .finish thread value) {call : ι} {value : Reply}
    (member : .finish call value ∈ moment.history ++ [label]) :
    idempotencyObject.Answers calls (lockOrder (moment.history ++ [label])) call value := by
  rw [lockOrder_concat]
  apply SeqObject.Answers.append
  rcases List.mem_append.mp member with earlier | last
  · exact inv.responded call value earlier
  · exact absurd (List.mem_singleton.mp last).symm (notFinish call value)

/-- Everything the invariant looks at is as before. -/
theorem Inv.silent (inv : Inv calls backend keys moment) (silent : Silent calls label)
    (responded : ∀ call value, .finish call value ∈ moment.history ++ [label] →
      idempotencyObject.Answers calls (lockOrder (moment.history ++ [label])) call value) :
    Inv calls backend keys (moment.push moment.shared label) := by
  have order : lockOrder (moment.history ++ [label]) = lockOrder moment.history := by
    simp [silent.1]
  have map : abstractMap calls (moment.history ++ [label]) = abstractMap calls moment.history :=
    abstractMap_concat_of_no_point calls silent.1
  have count : counted calls (moment.history ++ [label]) = counted calls moment.history := by
    simp [silent.2]
  refine ⟨inv.caps, inv.stored, ?_, ?_, inv.ownShard, fun key free => ?_, ?_, responded⟩
  · simpa only [Moment.push_history, Moment.push_shared, count] using inv.len
  · simpa only [Moment.push_history, count] using inv.within
  · simpa only [Settled, Moment.push_history, Moment.push_shared, map, count] using
      inv.settled key free
  · simpa only [Moment.push_history, order] using inv.nodup

theorem Rely.silent (silent : Silent calls label) (thread : ι) (moment : MemoryMoment ι) :
    Rely calls backend thread moment (moment.push moment.shared label) where
  history := List.prefix_append _ _
  order := ⟨[], by simp [silent.1], by simp⟩
  locked := by
    intro shard held
    refine ⟨rfl, rfl, fun key ofShard => ?_⟩
    simp [abstractMap_concat_of_no_point calls silent.1, silent.2]

theorem guar_silent (inv : Inv calls backend keys moment) (silent : Silent calls label)
    (notFinish : ∀ thread value, label ≠ .finish thread value) (thread : ι) :
    Guar calls backend keys thread moment (moment.push moment.shared label) :=
  ⟨inv.silent silent fun _ _ => inv.responded_concat notFinish, fun other _ => Rely.silent silent other moment⟩

/-- A step of a thread on its own key, under the lock of the key's shard, or the step that
    takes or releases this lock. -/
structure LocalStep (calls : ι → Operation) (backend : MemoryBackend) (thread : ι)
    (moment : MemoryMoment ι) (shared : MemoryState ι) (label : MemoryLabel ι) : Prop where
  ownerBefore : ∀ other, moment.shared.owner (backend.shardOf (calls thread).key) = some other →
    other = thread
  ownerAfter : ∀ other, shared.owner (backend.shardOf (calls thread).key) = some other →
    other = thread
  ownerElse : ∀ shard, shard ≠ backend.shardOf (calls thread).key →
    shared.owner shard = moment.shared.owner shard
  shardsElse : ∀ shard, shard ≠ backend.shardOf (calls thread).key →
    shared.shards shard = moment.shared.shards shard
  cap : (home backend shared (calls thread).key).cap =
    (home backend moment.shared (calls thread).key).cap
  peekElse : ∀ key, key ≠ (calls thread).key → (home backend shared (calls thread).key).peek key =
    (home backend moment.shared (calls thread).key).peek key
  countedElse : ∀ key, key ≠ (calls thread).key →
    (key ∈ counted calls (moment.history ++ [label]) ↔ key ∈ counted calls moment.history)
  mapElse : ∀ key, key ≠ (calls thread).key →
    abstractMap calls (moment.history ++ [label]) key = abstractMap calls moment.history key
  len : shared.len = (counted calls (moment.history ++ [label])).card
  order : ∃ more, lockOrder (moment.history ++ [label]) = lockOrder moment.history ++ more ∧
    ∀ other ∈ more, other = thread
  nodup : (lockOrder (moment.history ++ [label])).Nodup
  settled : shared.owner (backend.shardOf (calls thread).key) = none →
    Settled calls backend (moment.push shared label) (calls thread).key
  notFinish : ∀ thread value, label ≠ .finish thread value

theorem LocalStep.inv (step : LocalStep calls backend thread moment shared label)
    (member : (calls thread).key ∈ keys) (inv : Inv calls backend keys moment) :
    Inv calls backend keys (moment.push shared label) where
  caps := by
    intro shard
    by_cases own : shard = backend.shardOf (calls thread).key
    · subst own
      exact step.cap ▸ inv.caps _
    · rw [Moment.push_shared, step.shardsElse shard own]
      exact inv.caps shard
  stored := by
    intro shard key present
    by_cases own : shard = backend.shardOf (calls thread).key
    · -- in the shard of the step all other keys are as before
      subst own
      by_cases mine : key = (calls thread).key
      · subst mine
        exact ⟨member, rfl⟩
      · exact inv.stored _ key (by rw [← step.peekElse key mine]; exact present)
    · rw [Moment.push_shared, step.shardsElse shard own] at present
      exact inv.stored shard key present
  len := step.len
  within := by
    intro key isCounted
    by_cases mine : key = (calls thread).key
    · exact mine ▸ member
    · exact inv.within ((step.countedElse key mine).mp isCounted)
  ownShard := by
    intro shard other held
    by_cases own : shard = backend.shardOf (calls thread).key
    · subst own
      rw [step.ownerAfter other held]
    · exact inv.ownShard shard other (by rw [← step.ownerElse shard own]; exact held)
  settled := by
    intro key free
    by_cases mine : key = (calls thread).key
    · subst mine
      apply step.settled
      cases held : shared.owner (backend.shardOf (calls thread).key) with
      | none => rfl
      | some other => exact absurd (congrArg (fun call => (calls call).key) (step.ownerAfter other held)) (free other held)
    · have before : Settled calls backend moment key := by
        apply inv.settled key
        intro other held
        by_cases own : backend.shardOf key = backend.shardOf (calls thread).key
        · rw [own] at held
          rw [step.ownerBefore other held]
          exact Ne.symm mine
        · exact free other (by rw [Moment.push_shared, step.ownerElse _ own]; exact held)
      -- neither the map nor the sequential one has changed under this key
      have peek : (home backend shared key).peek key = (home backend moment.shared key).peek key := by
        by_cases own : backend.shardOf key = backend.shardOf (calls thread).key
        · have := step.peekElse key mine
          simpa only [home, own] using this
        · simp only [home, step.shardsElse _ own]
      simpa only [Settled, Moment.push_shared, Moment.push_history, peek, step.mapElse key mine,
        step.countedElse key mine] using before
  nodup := step.nodup
  responded := fun _ _ => inv.responded_concat step.notFinish

theorem LocalStep.rely (step : LocalStep calls backend thread moment shared label) {other : ι}
    (different : other ≠ thread) : Rely calls backend other moment (moment.push shared label) where
  history := List.prefix_append _ _
  order := by
    obtain ⟨more, order, mine⟩ := step.order
    exact ⟨more, order, fun isIn => different (mine other isIn)⟩
  locked := by
    intro shard held
    -- the other thread's shard is not the one this thread works on
    have elsewhere : shard ≠ backend.shardOf (calls thread).key := by
      intro same
      exact different (step.ownerBefore other (same ▸ held))
    refine ⟨step.ownerElse shard elsewhere, step.shardsElse shard elsewhere, fun key ofShard => ?_⟩
    have notMine : key ≠ (calls thread).key := by
      intro same
      exact elsewhere (by rw [← ofShard, same])
    exact ⟨step.mapElse key notMine, step.countedElse key notMine⟩

theorem LocalStep.guar (step : LocalStep calls backend thread moment shared label)
    (member : (calls thread).key ∈ keys) (inv : Inv calls backend keys moment) :
    Guar calls backend keys thread moment (moment.push shared label) :=
  ⟨step.inv member inv, fun _ different => step.rely different⟩

/-! ## A call that holds its lock -/

/-- The call of `thread` holds the lock of its shard; `stored` is what its key holds at
    the moment and `final` what the abstract map has there since the lock was taken. -/
structure Holds (calls : ι → Operation) (backend : MemoryBackend) (thread : ι)
    (stored final : Option KeyState) (isCounted : Prop) (reply : Reply)
    (moment : MemoryMoment ι) : Prop where
  owner : moment.shared.owner (backend.shardOf (calls thread).key) = some thread
  stored : ((home backend moment.shared (calls thread).key).peek (calls thread).key).map
    IdempotencyRecord.keyState = stored
  final : abstractMap calls moment.history (calls thread).key = final
  isCounted : (calls thread).key ∈ counted calls moment.history ↔ isCounted
  answers : idempotencyObject.Answers calls (lockOrder moment.history) thread reply

variable {stored final : Option KeyState} {isCounted : Prop} {reply : Reply}

theorem Holds.stable {before after : MemoryMoment ι}
    (holds : Holds calls backend thread stored final isCounted reply before)
    (rely : Rely calls backend thread before after) :
    Holds calls backend thread stored final isCounted reply after := by
  obtain ⟨owner, shards, keys⟩ := rely.locked _ holds.owner
  obtain ⟨map, count⟩ := keys (calls thread).key rfl
  exact ⟨owner.trans holds.owner, by rw [home, shards]; exact holds.stored, map.trans holds.final,
    count.trans holds.isCounted, rely.answers holds.answers⟩

/-- Nobody else has the lock. -/
theorem Holds.own (holds : Holds calls backend thread stored final isCounted reply moment) (other : ι)
    (held : moment.shared.owner (backend.shardOf (calls thread).key) = some other) : other = thread :=
  Option.some.inj (held.symm.trans holds.owner)

theorem Holds.not_released (holds : Holds calls backend thread stored final isCounted reply moment) :
    moment.shared.owner (backend.shardOf (calls thread).key) ≠ none := by
  simp [holds.owner]

/-- Reading the clock or the counter. -/
theorem Holds.silent (holds : Holds calls backend thread stored final isCounted reply moment)
    (silent : Silent calls label) :
    Holds calls backend thread stored final isCounted reply (moment.push moment.shared label) := by
  refine ⟨holds.owner, holds.stored, ?_, ?_, ?_⟩
  · rw [Moment.push_history, abstractMap_concat_of_no_point calls silent.1]
    exact holds.final
  · simpa [silent.2] using holds.isCounted
  · simpa [silent.1] using holds.answers

/-- Taking the lock: the call takes effect. -/
theorem guar_lock (inv : Inv calls backend keys moment) (member : (calls thread).key ∈ keys)
    (fresh : thread ∉ lockOrder moment.history)
    (free : moment.shared.owner (backend.shardOf (calls thread).key) = none) :
    Guar calls backend keys thread moment (moment.push
      (moment.shared.setOwner (backend.shardOf (calls thread).key) (some thread))
      (.perform thread ⟨.lock (backend.shardOf (calls thread).key), ()⟩)) := by
  apply LocalStep.guar _ member inv
  refine ⟨by simp [free], ?_, ?_, fun _ _ => rfl, rfl, fun _ _ => rfl, ?_, ?_, ?_, ?_, ?_, ?_, ?_⟩
  · intro other held
    simpa [eq_comm] using held
  · intro shard elsewhere
    simp [elsewhere]
  · intro key _
    simp [countStep]
  · intro key notMine
    rw [abstractMap_concat_lock, Function.update_of_ne notMine]
  · simpa [countStep] using inv.len
  · exact ⟨[thread], by simp [lockPoint], by simp⟩
  · simp only [lockOrder_concat, lockPoint, Option.toList_some]
    exact List.nodup_append.mpr ⟨inv.nodup, List.nodup_singleton thread, by
      intro call earlier other isThread same
      exact fresh (List.mem_singleton.mp isThread ▸ same ▸ earlier)⟩
  · intro released
    simp at released
  · simp

theorem holds_lock (inv : Inv calls backend keys moment)
    (free : moment.shared.owner (backend.shardOf (calls thread).key) = none) :
    ∃ stored, Holds calls backend thread stored ((calls thread).onKey stored).2 (stored ≠ none)
      ((calls thread).onKey stored).1 (moment.push
        (moment.shared.setOwner (backend.shardOf (calls thread).key) (some thread))
        (.perform thread ⟨.lock (backend.shardOf (calls thread).key), ()⟩)) := by
  obtain ⟨settledMap, settledCount⟩ := inv.settled (calls thread).key (by simp [free])
  refine ⟨abstractMap calls moment.history (calls thread).key, ?_, settledMap, ?_, ?_, ?_⟩
  · simp
  · rw [Moment.push_history, abstractMap_concat_lock, Function.update_self]
  · rw [← settledMap]
    simpa [countStep] using settledCount
  · have last : idempotencyObject.Answers calls (lockOrder moment.history ++ [thread]) thread
        (idempotencyObject.answer calls (lockOrder moment.history) thread) := .last _ _
    simpa [lockPoint, SeqObject.answer, idempotencyObject, abstractMap] using last

/-- A cache operation that changes nothing but the own key. -/
theorem Holds.cache (holds : Holds calls backend thread stored final isCounted reply moment)
    (inv : Inv calls backend keys moment) (member : (calls thread).key ∈ keys)
    {cache : LruCache String IdempotencyRecord}
    (cap : cache.cap = (home backend moment.shared (calls thread).key).cap)
    (peekElse : ∀ key, key ≠ (calls thread).key →
      cache.peek key = (home backend moment.shared (calls thread).key).peek key)
    (silent : Silent calls label) (notFinish : ∀ thread value, label ≠ .finish thread value) :
    Guar calls backend keys thread moment
        (moment.push (moment.shared.setShard (backend.shardOf (calls thread).key) cache) label) ∧
      Holds calls backend thread ((cache.peek (calls thread).key).map IdempotencyRecord.keyState)
        final isCounted reply
        (moment.push (moment.shared.setShard (backend.shardOf (calls thread).key) cache) label) := by
  constructor
  · apply LocalStep.guar _ member inv
    -- only the own shard is touched, and there only the own key
    refine ⟨holds.own, holds.own, fun _ _ => rfl, ?_, ?_, ?_, ?_, ?_, ?_, ?_, ?_, ?_, notFinish⟩
    · intro shard elsewhere
      simp [elsewhere]
    · rw [home, MemoryState.shards_setShard_self]
      exact cap
    · intro key notMine
      rw [home, MemoryState.shards_setShard_self]
      exact peekElse key notMine
    · intro key _
      simp [silent.2]
    · intro key _
      rw [abstractMap_concat_of_no_point calls silent.1]
    · simpa [silent.2] using inv.len
    · exact ⟨[], by simp [silent.1], by simp⟩
    · simpa [silent.1] using inv.nodup
    · intro released
      exact absurd released holds.not_released
  · refine ⟨holds.owner, ?_, ?_, ?_, ?_⟩
    · rw [home, Moment.push_shared, MemoryState.shards_setShard_self]
    · rw [Moment.push_history, abstractMap_concat_of_no_point calls silent.1]
      exact holds.final
    · simpa [silent.2] using holds.isCounted
    · simpa [silent.1] using holds.answers

/-- A step on the counter, which may change whether the own key is counted. -/
theorem Holds.counter (holds : Holds calls backend thread stored final isCounted reply moment)
    (inv : Inv calls backend keys moment) (member : (calls thread).key ∈ keys) {len : Nat}
    {nowCounted : Prop} (noPoint : lockPoint label = none)
    (notFinish : ∀ thread value, label ≠ .finish thread value)
    (mine : (calls thread).key ∈ countStep calls (counted calls moment.history) label ↔ nowCounted)
    (others : ∀ key, key ≠ (calls thread).key →
      (key ∈ countStep calls (counted calls moment.history) label ↔ key ∈ counted calls moment.history))
    (exact : len = (countStep calls (counted calls moment.history) label).card) :
    Guar calls backend keys thread moment (moment.push { moment.shared with len := len } label) ∧
      Holds calls backend thread stored final nowCounted reply
        (moment.push { moment.shared with len := len } label) := by
  constructor
  · apply LocalStep.guar _ member inv
    refine ⟨holds.own, holds.own, fun _ _ => rfl, fun _ _ => rfl, rfl, fun _ _ => rfl, ?_, ?_, ?_, ?_, ?_, ?_,
      notFinish⟩
    · intro key notMine
      rw [counted_concat]
      exact others key notMine
    · intro key _
      rw [abstractMap_concat_of_no_point calls noPoint]
    · rw [counted_concat]
      exact exact
    · exact ⟨[], by simp [noPoint], by simp⟩
    · simpa [noPoint] using inv.nodup
    · intro released
      exact absurd released holds.not_released
  · refine ⟨holds.owner, holds.stored, ?_, ?_, ?_⟩
    · rw [Moment.push_history, abstractMap_concat_of_no_point calls noPoint]
      exact holds.final
    · rw [Moment.push_history, counted_concat]
      exact mine
    · simpa [noPoint] using holds.answers

theorem Holds.fetchAdd (holds : Holds calls backend thread stored final isCounted reply moment)
    (inv : Inv calls backend keys moment) (member : (calls thread).key ∈ keys)
    (few : keys.card < backend.maxCapacity) (uncounted : ¬ isCounted) :
    let after := moment.push { moment.shared with len := (moment.shared.len + 1) % usizeRange }
      (.perform thread ⟨.lenFetchAdd, ()⟩)
    Guar calls backend keys thread moment after ∧
      Holds calls backend thread stored final True reply after := by
  have fresh : (calls thread).key ∉ counted calls moment.history := by
    rw [holds.isCounted]
    exact uncounted
  have bound : (insert (calls thread).key (counted calls moment.history)).card ≤ keys.card :=
    Finset.card_le_card (Finset.insert_subset member inv.within)
  have capLt := backend.maxCapacity_lt
  have len := inv.len
  rw [Finset.card_insert_of_notMem fresh] at bound
  apply holds.counter inv member rfl (by simp)
  · simp [countStep]
  · intro key notMine
    simp [countStep, notMine]
  · rw [countStep, Finset.card_insert_of_notMem fresh, Nat.mod_eq_of_lt (by omega), len]

theorem Holds.fetchSub (holds : Holds calls backend thread stored final isCounted reply moment)
    (inv : Inv calls backend keys moment) (member : (calls thread).key ∈ keys)
    (few : keys.card < backend.maxCapacity) (isIn : isCounted) :
    let after := moment.push
      { moment.shared with len := (moment.shared.len + usizeRange - 1) % usizeRange }
      (.perform thread ⟨.lenFetchSub, ()⟩)
    Guar calls backend keys thread moment after ∧
      Holds calls backend thread stored final False reply after := by
  have present : (calls thread).key ∈ counted calls moment.history := holds.isCounted.mpr isIn
  have positive := Finset.card_pos.mpr ⟨_, present⟩
  have bound := Finset.card_le_card inv.within
  have capLt := backend.maxCapacity_lt
  have len := inv.len
  apply holds.counter inv member rfl (by simp)
  · simp [countStep]
  · intro key notMine
    simp [countStep, notMine]
  · have wraps : moment.shared.len + usizeRange - 1 = (moment.shared.len - 1) + usizeRange := by omega
    rw [countStep, Finset.card_erase_of_mem present, wraps, Nat.add_mod_right,
      Nat.mod_eq_of_lt (by omega), len]

/-- Releasing the lock, once the key is stored and counted as the abstract map has it. -/
theorem Holds.unlock (holds : Holds calls backend thread stored final isCounted reply moment)
    (inv : Inv calls backend keys moment) (member : (calls thread).key ∈ keys)
    (done : stored = final) (exact : isCounted ↔ stored ≠ none) :
    let after := moment.push (moment.shared.setOwner (backend.shardOf (calls thread).key) none)
      (.perform thread ⟨.unlock (backend.shardOf (calls thread).key), ()⟩)
    Guar calls backend keys thread moment after ∧
      idempotencyObject.Answers calls (lockOrder after.history) thread reply := by
  intro after
  constructor
  · apply LocalStep.guar _ member inv
    refine ⟨holds.own, by simp, ?_, fun _ _ => rfl, rfl, fun _ _ => rfl, ?_, ?_, ?_, ?_, ?_, ?_, ?_⟩
    · intro shard elsewhere
      simp [elsewhere]
    · intro key _
      simp [countStep]
    · intro key _
      rw [abstractMap_concat_of_no_point calls rfl]
    · simpa [countStep] using inv.len
    · exact ⟨[], by simp [lockPoint], by simp⟩
    · simpa [lockPoint] using inv.nodup
    · intro _
      constructor
      · rw [Moment.push_history, abstractMap_concat_of_no_point calls rfl, holds.final, ← done]
        exact holds.stored
      · have count : counted calls after.history = counted calls moment.history := by
          simp [after, countStep]
        rw [count, holds.isCounted, exact, ← holds.stored, ne_eq, Option.map_eq_none_iff]
        rfl
    · simp
  · simpa [after, lockPoint] using holds.answers

/-! ## The discipline -/

variable (calls backend keys) in
/-- The rely–guarantee argument for runs in which no call finds an expired record. -/
def discipline : Discipline (memorySystem backend calls) where
  assume := NoneExpired backend
  inv := Inv calls backend keys
  rely := Rely calls backend
  guar := fun thread _ => Guar calls backend keys thread
  post := fun thread value moment =>
    idempotencyObject.Answers calls (lockOrder moment.history) thread value
  assume_init := by
    intro history label assumed thread nowSecs shard key record clock found
    exact assumed thread nowSecs shard key record (List.mem_append_left _ clock)
      (List.mem_append_left _ found)
  rely_refl := Rely.refl
  rely_trans := Rely.trans
  inv_perform := fun _ guarantee => guarantee.1
  rely_perform := fun _ guarantee different => guarantee.2 _ different
  inv_start := fun inv _ =>
    inv.silent ⟨rfl, fun _ => rfl⟩ fun _ _ => inv.responded_concat (by simp)
  rely_start := fun {_ other moment} _ => Rely.silent ⟨rfl, fun _ => rfl⟩ other moment
  -- the answer that is given is the one of the call's place in the order
  inv_finish := by
    intro thread value moment inv answers
    apply inv.silent ⟨rfl, fun _ => rfl⟩
    intro call result member
    rw [lockOrder_concat]
    apply SeqObject.Answers.append
    rcases List.mem_append.mp member with earlier | last
    · exact inv.responded call result earlier
    · cases List.mem_singleton.mp last
      exact answers
  rely_finish := fun {_ _ moment} other _ => Rely.silent ⟨rfl, fun _ => rfl⟩ other moment
  inv_environment := fun {event} => nomatch event
  rely_environment := fun {event} => nomatch event
  post_stable := fun answers rely _ => rely.answers answers

/-! ## Every program keeps it -/

abbrev Meets (calls : ι → Operation) (backend : MemoryBackend) (keys : Finset String) {β : Type}
    (thread : ι) (post : β → MemoryMoment ι → Prop) (program : MemoryProg β)
    (moment : MemoryMoment ι) : Prop :=
  (discipline calls backend keys).Safe thread post program moment

/-- The call is over: its lock is released and its answer is known. -/
def Done (calls : ι → Operation) (thread : ι) (reply : Reply) (moment : MemoryMoment ι) : Prop :=
  idempotencyObject.Answers calls (lockOrder moment.history) thread reply

theorem Done.stable {before after : MemoryMoment ι} (done : Done calls thread reply before)
    (rely : Rely calls backend thread before after) : Done calls thread reply after :=
  rely.answers done

section Programs

variable (member : (calls thread).key ∈ keys) (few : keys.card < backend.maxCapacity)

theorem meets_currentUnixSecs (holds : Holds calls backend thread stored final isCounted reply moment) :
    Meets calls backend keys thread
      (fun _ => Holds calls backend thread stored final isCounted reply)
      MemoryProg.currentUnixSecs moment := by
  apply Discipline.Safe.perform
  · intro _ before after holds rely
    exact holds.stable rely
  · intro now rely inv nowSecs shared effect _
    have silent : Silent calls (.perform thread ⟨.currentUnixSecs, nowSecs⟩) := ⟨rfl, fun _ => rfl⟩
    rw [MemoryState.meaning_currentUnixSecs effect]
    exact ⟨guar_silent inv silent (by simp) thread, (holds.stable rely).silent silent⟩

/-- Reading the clock before the lock is taken. -/
theorem meets_clock (fresh : thread ∉ lockOrder moment.history) :
    Meets calls backend keys thread
      (fun nowSecs now => thread ∉ lockOrder now.history ∧
        .perform thread ⟨.currentUnixSecs, nowSecs⟩ ∈ now.history)
      MemoryProg.currentUnixSecs moment := by
  have stable : ∀ before after : MemoryMoment ι, thread ∉ lockOrder before.history →
      Rely calls backend thread before after → thread ∉ lockOrder after.history := by
    intro before after notIn rely
    obtain ⟨more, order, notMore⟩ := rely.order
    rw [order]
    simp [notIn, notMore]
  apply Discipline.Safe.perform
  · intro _ before after known rely
    exact ⟨stable before after known.1 rely, rely.history.subset known.2⟩
  · intro now rely inv nowSecs shared effect _
    have silent : Silent calls (.perform thread ⟨.currentUnixSecs, nowSecs⟩) := ⟨rfl, fun _ => rfl⟩
    rw [MemoryState.meaning_currentUnixSecs effect]
    refine ⟨guar_silent inv silent (by simp) thread, ?_, by simp⟩
    simpa [lockPoint] using stable moment now fresh rely

include few in
theorem meets_lenLoad (holds : Holds calls backend thread stored final isCounted reply moment) :
    Meets calls backend keys thread
      (fun len now => len < backend.maxCapacity ∧
        Holds calls backend thread stored final isCounted reply now)
      MemoryProg.lenLoad moment := by
  apply Discipline.Safe.perform
  · intro _ before after holds rely
    exact ⟨holds.1, holds.2.stable rely⟩
  · intro now rely inv len shared effect _
    obtain ⟨rfl, rfl⟩ := MemoryState.meaning_lenLoad effect
    have silent : Silent calls (.perform thread ⟨.lenLoad, now.shared.len⟩) := ⟨rfl, fun _ => rfl⟩
    have below : now.shared.len < backend.maxCapacity := by
      rw [inv.len]
      exact lt_of_le_of_lt (Finset.card_le_card inv.within) few
    exact ⟨guar_silent inv silent (by simp) thread, below, (holds.stable rely).silent silent⟩

include member

theorem meets_unlock (holds : Holds calls backend thread stored final isCounted reply moment)
    (done : stored = final) (exact : isCounted ↔ stored ≠ none) :
    Meets calls backend keys thread (fun _ => Done calls thread reply)
      (MemoryProg.unlock (backend.shardOf (calls thread).key)) moment := by
  apply Discipline.Safe.perform
  · intro _ before after done rely
    exact done.stable rely
  · intro now rely inv _ shared effect _
    rw [MemoryState.meaning_unlock effect]
    exact (holds.stable rely).unlock inv member done exact

theorem meets_lock (fresh : thread ∉ lockOrder moment.history) :
    Meets calls backend keys thread
      (fun _ now => (∃ stored, Holds calls backend thread stored ((calls thread).onKey stored).2
          (stored ≠ none) ((calls thread).onKey stored).1 now) ∧ moment.history <+: now.history)
      (MemoryProg.lock (backend.shardOf (calls thread).key)) moment := by
  apply Discipline.Safe.perform
  · intro _ before after holds rely
    obtain ⟨⟨stored, holds⟩, past⟩ := holds
    exact ⟨⟨stored, holds.stable rely⟩, past.trans rely.history⟩
  · intro now rely inv _ shared effect _
    obtain ⟨free, rfl⟩ := MemoryState.meaning_lock effect
    obtain ⟨more, order, notIn⟩ := rely.order
    have freshNow : thread ∉ lockOrder now.history := by
      rw [order]
      simp [fresh, notIn]
    exact ⟨guar_lock inv member freshNow free, holds_lock inv free,
      rely.history.trans (List.prefix_append _ _)⟩

/-- A lookup; what it finds has not expired. -/
theorem meets_get {nowSecs : Nat}
    (holds : Holds calls backend thread stored final isCounted reply moment)
    (clock : .perform thread ⟨.currentUnixSecs, nowSecs⟩ ∈ moment.history) :
    Meets calls backend keys thread
      (fun found now => found.map IdempotencyRecord.keyState = stored ∧
        (∀ record, found = some record → record.Live backend.ttlSecs nowSecs) ∧
        Holds calls backend thread stored final isCounted reply now)
      (MemoryProg.get (backend.shardOf (calls thread).key) (calls thread).key) moment := by
  apply Discipline.Safe.perform
  · intro _ before after holds rely
    exact ⟨holds.1, holds.2.1, holds.2.2.stable rely⟩
  · intro now rely inv found shared effect unexpired
    obtain ⟨foundEq, rfl⟩ := MemoryState.meaning_get effect
    have held := holds.stable rely
    have peek := LruCache.peek_get (now.shared.shards (backend.shardOf (calls thread).key))
      (calls thread).key
    have silent : Silent calls (.perform thread
        ⟨.get (backend.shardOf (calls thread).key) (calls thread).key, found⟩) := ⟨rfl, fun _ => rfl⟩
    obtain ⟨guarantee, after⟩ := held.cache inv member (LruCache.cap_get _ _)
      (fun key _ => peek key) silent (by simp)
    rw [peek, held.stored] at after
    refine ⟨guarantee, ?_, ?_, after⟩
    · rw [foundEq]
      exact held.stored
    -- the clock was read before, and nothing that is found has expired by it
    · intro record isRecord
      apply unexpired thread nowSecs (backend.shardOf (calls thread).key) (calls thread).key record
      · exact List.mem_append_left _ (rely.history.subset clock)
      · rw [← isRecord]
        exact List.mem_append_right _ (List.mem_singleton_self _)

theorem meets_pop (holds : Holds calls backend thread stored final isCounted reply moment) :
    Meets calls backend keys thread
      (fun old now => old.map IdempotencyRecord.keyState = stored ∧
        Holds calls backend thread none final isCounted reply now)
      (MemoryProg.pop (backend.shardOf (calls thread).key) (calls thread).key) moment := by
  apply Discipline.Safe.perform
  · intro _ before after holds rely
    exact ⟨holds.1, holds.2.stable rely⟩
  · intro now rely inv old shared effect _
    obtain ⟨oldEq, rfl⟩ := MemoryState.meaning_pop effect
    have held := holds.stable rely
    have peek := LruCache.peek_pop (now.shared.shards (backend.shardOf (calls thread).key))
      (calls thread).key
    have silent : Silent calls (.perform thread
        ⟨.pop (backend.shardOf (calls thread).key) (calls thread).key, old⟩) := ⟨rfl, fun _ => rfl⟩
    obtain ⟨guarantee, after⟩ := held.cache inv member (LruCache.cap_pop _ _)
      (fun key notMine => by rw [peek, if_neg notMine]) silent (by simp)
    rw [peek, if_pos rfl] at after
    refine ⟨guarantee, ?_, after⟩
    rw [oldEq]
    exact held.stored

include few

theorem meets_lenFetchAdd (holds : Holds calls backend thread stored final isCounted reply moment)
    (uncounted : ¬ isCounted) :
    Meets calls backend keys thread (fun _ => Holds calls backend thread stored final True reply)
      MemoryProg.lenFetchAdd moment := by
  apply Discipline.Safe.perform
  · intro _ before after holds rely
    exact holds.stable rely
  · intro now rely inv _ shared effect _
    rw [MemoryState.meaning_lenFetchAdd effect]
    exact (holds.stable rely).fetchAdd inv member few uncounted

theorem meets_lenFetchSub (holds : Holds calls backend thread stored final isCounted reply moment)
    (isIn : isCounted) :
    Meets calls backend keys thread (fun _ => Holds calls backend thread stored final False reply)
      MemoryProg.lenFetchSub moment := by
  apply Discipline.Safe.perform
  · intro _ before after holds rely
    exact holds.stable rely
  · intro now rely inv _ shared effect _
    rw [MemoryState.meaning_lenFetchSub effect]
    exact (holds.stable rely).fetchSub inv member few isIn

omit member in
/-- A shard is never full: its keys are among the keys in use. -/
theorem Inv.room (inv : Inv calls backend keys moment) (shard : Shard) :
    (moment.shared.shards shard).size < (moment.shared.shards shard).cap :=
  calc (moment.shared.shards shard).size
      ≤ keys.card := LruCache.size_le_card fun key present => (inv.stored shard key present).1
    _ < backend.maxCapacity := few
    _ ≤ (moment.shared.shards shard).cap := inv.caps shard

theorem meets_put (record : IdempotencyRecord)
    (holds : Holds calls backend thread stored final isCounted reply moment) :
    Meets calls backend keys thread
      (fun old now => old.map IdempotencyRecord.keyState = stored ∧
        Holds calls backend thread (some record.keyState) final isCounted reply now)
      (MemoryProg.put (backend.shardOf (calls thread).key) (calls thread).key record) moment := by
  apply Discipline.Safe.perform
  · intro _ before after holds rely
    exact ⟨holds.1, holds.2.stable rely⟩
  · intro now rely inv old shared effect _
    obtain ⟨oldEq, rfl⟩ := MemoryState.meaning_put effect
    have room := inv.room few (backend.shardOf (calls thread).key)
    have peek := LruCache.peek_put_of_room (calls thread).key record fun _ => room
    have held := holds.stable rely
    have silent : Silent calls (.perform thread
        ⟨.put (backend.shardOf (calls thread).key) (calls thread).key record, old⟩) :=
      ⟨rfl, fun _ => rfl⟩
    obtain ⟨guarantee, after⟩ := held.cache inv member (LruCache.cap_put _ _ _)
      (fun key notMine => by rw [peek, if_neg notMine]) silent (by simp)
    rw [peek, if_pos rfl] at after
    refine ⟨guarantee, ?_, after⟩
    rw [oldEq]
    exact held.stored

/-! ### The operations -/

theorem meets_putRecord {record : IdempotencyRecord}
    (holds : Holds calls backend thread stored final (stored ≠ none) reply moment)
    (written : final = some record.keyState) :
    Meets calls backend keys thread (fun _ => Done calls thread reply)
      (MemoryBackend.putRecord (backend.shardOf (calls thread).key) (calls thread).key record)
      moment := by
  apply Discipline.Safe.bind (meets_put member few record holds)
  intro old now _ put
  obtain ⟨oldEq, held⟩ := put
  cases old with
  | none =>
    -- a new key: it is counted before the lock is released
    have uncounted : ¬ stored ≠ none := by simp [← oldEq]
    apply Discipline.Safe.bind (meets_lenFetchAdd member few held uncounted)
    intro _ later _ counted
    exact meets_unlock member counted written.symm (by simp)
  | some record =>
    have present : stored ≠ none := by simp [← oldEq]
    exact meets_unlock member held written.symm (by simp [present])

theorem meets_insertInProgress {key : String} {hlc : HlcTimestamp} {nowSecs : Nat}
    (isCall : calls thread = .checkOrInsert key hlc)
    (holds : Holds calls backend thread none (some (.inProgress hlc)) (none ≠ none (α := KeyState))
      reply moment) :
    Meets calls backend keys thread (fun outcome now => outcome = .new ∧ Done calls thread reply now)
      (backend.insertInProgress key hlc nowSecs) moment := by
  have isKey : key = (calls thread).key := by rw [isCall]; rfl
  unfold MemoryBackend.insertInProgress
  apply Discipline.Safe.bind (meets_lenLoad few holds)
  intro len now _ loaded
  obtain ⟨below, held⟩ := loaded
  -- the capacity check never asks for an eviction
  rw [if_neg (Nat.not_le.mpr below)]
  subst isKey
  apply Discipline.Safe.bind (meets_putRecord member few held rfl)
  intro _ later _ done
  exact Discipline.Safe.ret fun after rely _ => ⟨rfl, done.stable rely⟩

theorem meets_checkOrInsert {key : String} {hlc : HlcTimestamp}
    (isCall : calls thread = .checkOrInsert key hlc) (fresh : thread ∉ lockOrder moment.history) :
    Meets calls backend keys thread (fun outcome => Done calls thread (.outcome outcome))
      (backend.checkOrInsert key hlc) moment := by
  have isKey : key = (calls thread).key := by rw [isCall]; rfl
  unfold MemoryBackend.checkOrInsert
  apply Discipline.Safe.bind (meets_clock fresh)
  intro nowSecs now _ clock
  obtain ⟨stillFresh, reading⟩ := clock
  simp only [isKey]
  apply Discipline.Safe.bind (meets_lock member stillFresh)
  intro _ locked _ lock
  obtain ⟨⟨stored, holds⟩, past⟩ := lock
  apply Discipline.Safe.bind (meets_get member holds (past.subset reading))
  intro found looked _ lookup
  obtain ⟨foundEq, live, held⟩ := lookup
  rw [isCall] at held
  -- the record that is found answers; without one the key is inserted under the same lock
  cases found with
  | some record =>
    simp only [Option.map_some] at foundEq
    subst foundEq
    simp only [live record rfl, if_true]
    apply Discipline.Safe.bind (meets_unlock member held rfl (by simp))
    intro _ later _ done
    refine Discipline.Safe.ret fun after rely _ => ?_
    simpa [Operation.onKey, IdempotencyRecord.outcome_keyState] using done.stable rely
  | none =>
    simp only [Option.map_none] at foundEq
    subst foundEq
    simp only [← isKey]
    apply (meets_insertInProgress member few isCall held).mono
    intro outcome later inserted
    exact inserted.1 ▸ inserted.2

theorem meets_complete {key : String} {hlc : HlcTimestamp} {statusCode : UInt16} {headers : HeaderMap}
    {body : String} (isCall : calls thread = .complete key hlc statusCode headers body)
    (fresh : thread ∉ lockOrder moment.history) :
    Meets calls backend keys thread (fun _ => Done calls thread .done)
      (backend.complete key hlc statusCode headers body) moment := by
  have isKey : key = (calls thread).key := by rw [isCall]; rfl
  unfold MemoryBackend.complete
  simp only [isKey]
  apply Discipline.Safe.bind (meets_lock member fresh)
  intro _ locked _ lock
  obtain ⟨⟨stored, holds⟩, _⟩ := lock
  rw [isCall] at holds
  apply Discipline.Safe.bind (meets_currentUnixSecs holds)
  intro nowSecs now _ held
  exact meets_putRecord member few held rfl

theorem meets_remove {key : String} (isCall : calls thread = .remove key)
    (fresh : thread ∉ lockOrder moment.history) :
    Meets calls backend keys thread (fun _ => Done calls thread .done) (backend.remove key)
      moment := by
  have isKey : key = (calls thread).key := by rw [isCall]; rfl
  unfold MemoryBackend.remove
  simp only [isKey]
  apply Discipline.Safe.bind (meets_lock member fresh)
  intro _ locked _ lock
  obtain ⟨⟨stored, holds⟩, _⟩ := lock
  rw [isCall] at holds
  apply Discipline.Safe.bind (meets_pop member holds)
  intro old now _ popped
  obtain ⟨oldEq, held⟩ := popped
  cases old with
  | none =>
    have absent : ¬ stored ≠ none := by simp [← oldEq]
    exact meets_unlock member held rfl (by simp [absent])
  | some record =>
    have present : stored ≠ none := by simp [← oldEq]
    apply Discipline.Safe.bind (meets_lenFetchSub member few held present)
    intro _ later _ uncounted
    exact meets_unlock member uncounted rfl (by simp)

theorem meets_program (fresh : thread ∉ lockOrder moment.history) :
    Meets calls backend keys thread (Done calls thread) (backend.program (calls thread)) moment := by
  cases isCall : calls thread with
  | checkOrInsert key hlc =>
    apply Discipline.Safe.bind (meets_checkOrInsert member few isCall fresh)
    intro outcome now _ done
    exact Discipline.Safe.ret fun after rely _ => done.stable rely
  | complete key hlc statusCode headers body =>
    apply Discipline.Safe.bind (meets_complete member few isCall fresh)
    intro _ now _ done
    exact Discipline.Safe.ret fun after rely _ => done.stable rely
  | remove key =>
    apply Discipline.Safe.bind (meets_remove member few isCall fresh)
    intro _ now _ done
    exact Discipline.Safe.ret fun after rely _ => done.stable rely

end Programs

theorem inv_initial : Inv calls backend keys ⟨MemoryState.new backend, []⟩ where
  caps := fun _ => Nat.le_max_left _ _
  stored := fun shard key present => absurd (LruCache.peek_empty _ _ key) present
  len := rfl
  within := by simp [counted]
  ownShard := fun shard thread held => nomatch held
  settled := by
    intro key _
    have absent := LruCache.peek_empty (ν := IdempotencyRecord) (max backend.maxCapacity 1)
      (Nat.lt_of_lt_of_le Nat.one_pos (Nat.le_max_right _ _)) key
    simp [Settled, MemoryState.new, abstractMap, lockOrder, pointOrder, counted, idempotencyObject,
      absent]
  nodup := List.nodup_nil
  responded := fun call value member => absurd member List.not_mem_nil

theorem not_mem_lockOrder_of_fresh {history : List (MemoryLabel ι)} (fresh : Fresh thread history) :
    thread ∉ lockOrder history := by
  intro member
  obtain ⟨label, inHistory, isPoint⟩ := List.mem_filterMap.mp member
  exact fresh label inHistory (lockPoint_own isPoint)

variable [DecidableEq ι]

/-- The invariant holds in every configuration of every run in which nothing expires. -/
theorem inv_of_reaches (member : ∀ call, (calls call).key ∈ keys)
    (few : keys.card < backend.maxCapacity)
    {config : Config memorySignature ι Empty (MemoryState ι) Reply}
    (reaches : (memorySystem backend calls).Reaches (MemoryState.new backend) config)
    (unexpired : NoneExpired backend config.moment.history) :
    Inv calls backend keys config.moment := by
  apply ((discipline calls backend keys).sound inv_initial _ reaches unexpired).1
  intro thread moment _ fresh
  apply meets_program (member thread) few
  simpa [lockPoint] using not_mem_lockOrder_of_fresh fresh

end MemoryRun

/-! ## Linearizability -/

/-- While only `check_or_insert` is called on a key in progress, it stays in progress. -/
theorem after_of_checks {calls : ι → Operation} {key : String} {hlc : HlcTimestamp}
    {order : List ι} (block : List ι)
    (locked : idempotencyObject.after calls order key = some (.inProgress hlc))
    (checks : ∀ call ∈ block, (calls call).key = key → ∃ other, calls call = .checkOrInsert key other) :
    idempotencyObject.after calls (order ++ block) key = some (.inProgress hlc) := by
  induction block generalizing order with
  | nil => simpa using locked
  | cons call rest inductionHypothesis =>
    have still : idempotencyObject.after calls (order ++ [call]) key = some (.inProgress hlc) := by
      rw [idempotencyObject_after_concat]
      by_cases sameKey : (calls call).key = key
      · obtain ⟨other, isCheck⟩ := checks call List.mem_cons_self sameKey
        rw [sameKey, Function.update_self, locked, isCheck]
        rfl
      · rw [Function.update_of_ne (Ne.symm sameKey)]
        exact locked
    have remaining := inductionHypothesis still
      fun later inRest => checks later (List.mem_cons_of_mem _ inRest)
    simpa using remaining

variable [DecidableEq ι]

/-- Every complete history, over fewer distinct keys than the capacity and without expired
    records, is linearizable in the order of the locks.  In particular the first
    `check_or_insert` on an absent key is answered `New`, and until a `complete` or `remove`
    of the key all later ones are answered `Conflict` with the first caller's timestamp. -/
theorem memory_linearizable (backend : MemoryBackend) (calls : ι → Operation) (keys : Finset String)
    (member : ∀ call, (calls call).key ∈ keys) (few : keys.card < backend.maxCapacity)
    {config : Config memorySignature ι Empty (MemoryState ι) Reply}
    (reaches : (memorySystem backend calls).Reaches (MemoryState.new backend) config)
    (unexpired : NoneExpired backend config.moment.history)
    (complete : Complete config.moment.history) :
    Linearizes idempotencyObject calls config.moment.history (lockOrder config.moment.history) ∧
    ∀ key hlc earlier first block later,
      lockOrder config.moment.history = earlier ++ first :: (block ++ later) →
      calls first = .checkOrInsert key hlc → idempotencyObject.after calls earlier key = none →
      (∀ call ∈ block, (calls call).key = key → ∃ other, calls call = .checkOrInsert key other) →
      .finish first (.outcome .new) ∈ config.moment.history ∧
      ∀ call ∈ block, (calls call).key = key →
        .finish call (.outcome (.conflict hlc)) ∈ config.moment.history := by
  have linearizes : Linearizes idempotencyObject calls config.moment.history
      (lockOrder config.moment.history) := by
    apply linearizes_of_points (NoneExpired backend) (fun _ _ => lockPoint_own) _ _ _ reaches
      unexpired complete
    · intro past future assumed thread nowSecs shard key record clock found
      exact assumed thread nowSecs shard key record (List.mem_append_left _ clock)
        (List.mem_append_left _ found)
    · intro config reaches unexpired
      exact (MemoryRun.inv_of_reaches member few reaches unexpired).nodup
    · intro config reaches unexpired
      exact (MemoryRun.inv_of_reaches member few reaches unexpired).responded
  refine ⟨linearizes, ?_⟩
  intro key hlc earlier first block later split isCheck absent checks
  -- every call of the order has responded, and its response is the object's answer
  have responds : ∀ before call rest, lockOrder config.moment.history = before ++ call :: rest →
      .finish call (idempotencyObject.answer calls before call) ∈ config.moment.history := by
    intro before call rest split
    obtain ⟨value, finished⟩ := (linearizes.covers call).mp (by simp [split])
    rw [← linearizes.value_eq split finished]
    exact finished
  constructor
  · have answer : idempotencyObject.answer calls earlier first = .outcome .new := by
      rw [idempotencyObject_answer, isCheck, Operation.key, absent]
      rfl
    exact answer ▸ responds earlier first (block ++ later) split
  · intro call inBlock sameKey
    obtain ⟨front, back, rfl⟩ := List.append_of_mem inBlock
    obtain ⟨other, isOther⟩ := checks call inBlock sameKey
    have locked : idempotencyObject.after calls (earlier ++ [first]) key = some (.inProgress hlc) := by
      rw [idempotencyObject_after_concat, isCheck, Operation.key, Function.update_self, absent]
      rfl
    have stillLocked := after_of_checks front locked
      fun later inFront => checks later (List.mem_append_left _ inFront)
    have answer : idempotencyObject.answer calls (earlier ++ [first] ++ front) call =
        .outcome (.conflict hlc) := by
      rw [idempotencyObject_answer, isOther, Operation.key, stillLocked]
      rfl
    exact answer ▸ responds (earlier ++ [first] ++ front) call (back ++ later) (by simp [split])

/-- Two requests with one key; the second to arrive is the first to take the lock. -/
def racingCalls : Bool → Operation
  | false => .checkOrInsert "order-1" ⟨1000, 0⟩
  | true => .checkOrInsert "order-1" ⟨1000, 1⟩

def racingBackend : MemoryBackend := ⟨300, 10000, fun key => .ofNat key.length, by decide⟩

def racingMoves : List (Move Bool Empty Nat) :=
  [false, true, false, true, true, true, true, true, true, true, false, false, false, false, true].map
    fun thread => .thread thread 5

/-- The history of the race. -/
def racingHistory : List (MemoryLabel Bool) :=
  let shard := racingBackend.shardOf "order-1"
  let record := IdempotencyRecord.inProgress ⟨1000, 1⟩ 5
  [.start false, .start true, .perform false ⟨.currentUnixSecs, (5 : Nat)⟩,
    .perform true ⟨.currentUnixSecs, (5 : Nat)⟩, .perform true ⟨.lock shard, ()⟩,
    .perform true ⟨.get shard "order-1", none⟩, .perform true ⟨.lenLoad, (0 : Nat)⟩,
    .perform true ⟨.put shard "order-1" record, none⟩, .perform true ⟨.lenFetchAdd, ()⟩,
    .perform true ⟨.unlock shard, ()⟩, .perform false ⟨.lock shard, ()⟩,
    .perform false ⟨.get shard "order-1", some record⟩, .perform false ⟨.unlock shard, ()⟩,
    .finish false (.outcome (.conflict ⟨1000, 1⟩)), .finish true (.outcome .new)]

theorem racing_run : ∃ config, (memorySystem racingBackend racingCalls).Reaches
    (MemoryState.new racingBackend) config ∧ config.moment.history = racingHistory :=
  ⟨_, (memoryScheduler racingBackend racingCalls).run_reaches racingMoves .initial rfl, rfl⟩

theorem memory_linearizable_race : ∃ config,
    (memorySystem racingBackend racingCalls).Reaches (MemoryState.new racingBackend) config ∧
      Linearizes idempotencyObject racingCalls config.moment.history [true, false] := by
  obtain ⟨config, reaches, history⟩ := racing_run
  have order : lockOrder config.moment.history = [true, false] := by
    rw [history]
    rfl
  refine ⟨config, reaches, ?_⟩
  rw [← order]
  refine (memory_linearizable racingBackend racingCalls {"order-1"} ?_ (by decide) reaches ?_ ?_).1
  · intro call
    cases call <;> decide
  · intro thread nowSecs shard key record clock found
    rw [history] at clock found
    simp only [racingHistory, List.mem_cons, Label.perform.injEq, Event.mk.injEq, reduceCtorEq,
      false_and, and_false, heq_eq_eq, true_and, false_or, or_false, List.not_mem_nil,
      MemoryCall.get.injEq] at clock found
    have written : record = .inProgress ⟨1000, 1⟩ 5 := by simp_all
    have reading : nowSecs = 5 := by rcases clock with ⟨_, same⟩ | ⟨_, same⟩ <;> exact same
    subst written reading
    decide
  · intro call _
    rw [history]
    cases call
    · exact ⟨_, by simp [racingHistory]; rfl⟩
    · exact ⟨_, by simp [racingHistory]; rfl⟩

end SpectraGQL.Idempotency
