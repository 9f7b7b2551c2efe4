import SpectraGQL.Idempotency.Eviction
import Mathlib.Algebra.BigOperators.Group.Finset.Basic
import Mathlib.Data.Fintype.BigOperators

/-! # The counter and the capacity (`idempotency/mod.rs`)

The backend counts its records in one atomic next to caches that drop an entry of their own accord when
they are full.  `check_or_insert` makes room before it inserts; `complete` does not, so that it is the
one operation that loses the count (`active_record_count_exact_iff`) and the one that goes beyond the
capacity (`capacity_bound_iff`).
-/

namespace SpectraGQL.Idempotency

open SpectraGQL.Core SpectraGQL.Http
open Interaction Data

namespace MemoryState

/-- The records in all shards. -/
def heldRecords {ι : Type} (state : MemoryState ι) : Nat := ∑ shard, (state.shards shard).size

/-- `active_record_count`. -/
def activeRecordCount {ι : Type} (state : MemoryState ι) : Nat := state.len

section Effects

variable {state : MemoryState Unit} {shard : Shard} {key : String} {record : IdempotencyRecord}

theorem heldRecords_congr {first second : MemoryState Unit} (same : first.shards = second.shards) :
    first.heldRecords = second.heldRecords := by
  rw [heldRecords, same, heldRecords]

theorem heldRecords_setShard (state : MemoryState Unit) (shard : Shard) (cache : LruCache String IdempotencyRecord) :
    (state.setShard shard cache).heldRecords + (state.shards shard).size = state.heldRecords + cache.size := by
  have before := Finset.add_sum_erase Finset.univ (fun other => (state.shards other).size) (Finset.mem_univ shard)
  have after := Finset.add_sum_erase Finset.univ (fun other => ((state.setShard shard cache).shards other).size)
    (Finset.mem_univ shard)
  have others : ∑ other ∈ Finset.univ.erase shard, ((state.setShard shard cache).shards other).size =
      ∑ other ∈ Finset.univ.erase shard, (state.shards other).size := by
    apply Finset.sum_congr rfl
    intro other member
    rw [shards_setShard_of_ne _ _ _ (Finset.ne_of_mem_erase member)]
  simp only [shards_setShard_self, others] at after
  unfold heldRecords
  omega

theorem size_le_heldRecords (state : MemoryState Unit) (shard : Shard) :
    (state.shards shard).size ≤ state.heldRecords := by
  have parts := Finset.add_sum_erase Finset.univ (fun other => (state.shards other).size) (Finset.mem_univ shard)
  unfold heldRecords
  omega

@[simp] theorem heldRecords_useKey : (state.useKey shard key).heldRecords = state.heldRecords := by
  have changed := heldRecords_setShard state shard ((state.shards shard).get key).2
  rw [LruCache.size_get] at changed
  exact Nat.add_right_cancel changed

theorem heldRecords_putKey_of_present (present : (state.shards shard).peek key ≠ none) :
    (state.putKey shard key record).heldRecords = state.heldRecords := by
  have changed := heldRecords_setShard state shard ((state.shards shard).put key record).2
  rw [LruCache.size_put_of_present record present] at changed
  exact Nat.add_right_cancel changed

/-- A new record makes the records one more, unless it drives another one out of a full shard. -/
theorem heldRecords_putKey_of_absent (absent : (state.shards shard).peek key = none) :
    (state.putKey shard key record).heldRecords =
      if (state.shards shard).size < (state.shards shard).cap then state.heldRecords + 1 else state.heldRecords := by
  have changed := heldRecords_setShard state shard ((state.shards shard).put key record).2
  have bounded := (state.shards shard).size_le_cap
  rw [LruCache.size_put_of_absent record absent] at changed
  have same : (state.putKey shard key record).heldRecords =
      (state.setShard shard ((state.shards shard).put key record).2).heldRecords :=
    heldRecords_congr rfl
  rw [same]
  split <;> omega

theorem heldRecords_popKey :
    (state.popKey shard key).heldRecords =
      if (state.shards shard).peek key = none then state.heldRecords else state.heldRecords - 1 := by
  have changed := heldRecords_setShard state shard ((state.shards shard).pop key).2
  have within := size_le_heldRecords state shard
  have same : (state.popKey shard key).heldRecords =
      (state.setShard shard ((state.shards shard).pop key).2).heldRecords :=
    heldRecords_congr rfl
  rw [LruCache.size_pop] at changed
  rw [same]
  split
  · rename_i absent
    rw [if_pos absent] at changed
    omega
  · rename_i present
    rw [if_neg present] at changed
    have positive := LruCache.size_pos_of_peek present
    omega

theorem heldRecords_dropOldest {victim : String} (oldest : (state.shards shard).oldest? = some victim) :
    (state.dropOldest shard).heldRecords + 1 = state.heldRecords := by
  have changed := heldRecords_setShard state shard (state.shards shard).dropOldest
  have within := size_le_heldRecords state shard
  have positive := LruCache.size_pos_of_oldest? oldest
  have same : (state.dropOldest shard).heldRecords =
      (state.setShard shard (state.shards shard).dropOldest).heldRecords :=
    heldRecords_congr rfl
  rw [LruCache.size_dropOldest] at changed
  rw [same]
  omega

/-- A shard that has just lost its oldest record has room. -/
theorem size_dropOldest_lt {own : Shard} {victim : String} (oldest : (state.shards shard).oldest? = some victim)
    (isOwn : shard = own ∨ (state.shards own).size = 0) :
    ((state.dropOldest shard).shards own).size < ((state.dropOldest shard).shards own).cap := by
  have positive := LruCache.size_pos_of_oldest? oldest
  have bounded := (state.shards own).size_le_cap
  have capPos := (state.shards own).capPos
  by_cases same : shard = own
  · subst same
    simp only [dropOldest, shards_setShard_self, LruCache.size_dropOldest, LruCache.cap_dropOldest]
    omega
  · have empty := isOwn.resolve_left same
    have untouched : (state.dropOldest shard).shards own = state.shards own := by
      simp [dropOldest, Ne.symm same]
    rw [untouched, empty]
    exact capPos

end Effects

/-! ## One operation -/

/-- What an operation does that runs alone. -/
inductive Effect (backend : MemoryBackend) (state : MemoryState Unit) : Operation → MemoryState Unit → Prop
  | used (key : String) (hlc : HlcTimestamp) : stored backend state key ≠ none →
    Effect backend state (.checkOrInsert key hlc) (state.useKey (backend.shardOf key) key)
  | inserted (key : String) (hlc : HlcTimestamp) (record : IdempotencyRecord) {room : MemoryState Unit} :
    MakesRoom backend (backend.shardOf key) (state.useKey (backend.shardOf key) key) room →
    Effect backend state (.checkOrInsert key hlc) (room.putKey (backend.shardOf key) key record)
  | completed (key : String) (hlc : HlcTimestamp) (statusCode : UInt16) (headers : HeaderMap) (body : String)
    (record : IdempotencyRecord) :
    Effect backend state (.complete key hlc statusCode headers body) (state.putKey (backend.shardOf key) key record)
  | removed (key : String) :
    Effect backend state (.remove key) (state.popKey (backend.shardOf key) key)

section Step

variable {backend : MemoryBackend} {state after : MemoryState Unit} {operation : Operation} {nowSecs : Nat}

theorem effect_step (unlocked : state.Unlocked) (operation : Operation) :
    Effect backend state operation (step backend nowSecs operation state).2 := by
  cases operation with
  | remove key =>
    rw [step_remove unlocked]
    exact .removed key
  | complete key hlc statusCode headers body =>
    rw [step_complete unlocked]
    exact .completed key hlc statusCode headers body _
  | checkOrInsert key hlc =>
    by_cases live : ∃ seen, stored backend state key = some seen ∧ seen.Live backend.ttlSecs nowSecs
    · obtain ⟨seen, found, isLive⟩ := live
      rw [step_checkOrInsert_live unlocked hlc found isLive]
      exact .used key hlc (by simp [found])
    · obtain ⟨room, runs, makesRoom⟩ := step_checkOrInsert_new unlocked nowSecs hlc
        fun seen isSeen isLive => live ⟨seen, isSeen, isLive⟩
      rw [runs]
      exact .inserted key hlc _ makesRoom

theorem cap_dropOldest (shard other : Shard) :
    ((state.dropOldest shard).shards other).cap = (state.shards other).cap := by
  by_cases same : other = shard
  · subst same
    simp [dropOldest]
  · simp [dropOldest, same]

/-- No operation changes the room of a shard. -/
theorem Effect.cap (effect : Effect backend state operation after) (shard : Shard) :
    (after.shards shard).cap = (state.shards shard).cap := by
  cases effect with
  | used key hlc => exact cap_useKey key shard
  | inserted key hlc record makesRoom =>
    rw [cap_putKey]
    rcases makesRoom with ⟨rfl, -⟩ | ⟨-, victimShard, victim, -, -, rfl⟩
    · exact cap_useKey key shard
    · rw [cap_dropOldest, cap_useKey]
  | completed key => exact cap_putKey key _ shard
  | removed key => exact cap_popKey key shard

end Step

/-- Each shard has room for as many records as the whole backend. -/
theorem cap_run (backend : MemoryBackend) (calls : List (Nat × Operation)) (shard : Shard) :
    ((run backend (new backend) calls).shards shard).cap = max backend.maxCapacity 1 := by
  induction calls using List.reverseRecOn with
  | nil => rfl
  | append_singleton calls call inductionHypothesis =>
    rw [run_concat, (effect_step (unlocked_run backend calls) call.2).cap, inductionHypothesis]

/-! ## The counter -/

/-- Every record is counted, and the counter has not come to its end. -/
def Counted (state : MemoryState Unit) : Prop := state.len = state.heldRecords ∧ state.heldRecords < usizeRange

/-- A completion without a record to replace, for which a full shard drops another record (or which
    is one too many for the counter). -/
def Miscounts (backend : MemoryBackend) (state : MemoryState Unit) : Operation → Prop
  | .complete key _ _ _ _ =>
    stored backend state key = none ∧
      (max backend.maxCapacity 1 ≤ (state.shards (backend.shardOf key)).size ∨ state.len + 1 = usizeRange)
  | .checkOrInsert _ _ | .remove _ => False

section Counter

variable {backend : MemoryBackend} {state after : MemoryState Unit} {operation : Operation} {shard : Shard}
  {key : String} {record : IdempotencyRecord}

theorem len_putKey_of_absent (absent : (state.shards shard).peek key = none) :
    (state.putKey shard key record).len = (state.len + 1) % usizeRange := if_pos absent

theorem len_putKey_of_present (present : (state.shards shard).peek key ≠ none) :
    (state.putKey shard key record).len = state.len := if_neg present

/-- Counting down from a counter that is not zero. -/
theorem sub_one_of_pos {len : Nat} (positive : 0 < len) (bound : len < usizeRange) :
    (len + usizeRange - 1) % usizeRange = len - 1 := by
  have wraps : len + usizeRange - 1 = (len - 1) + usizeRange := by omega
  rw [wraps, Nat.add_mod_right, Nat.mod_eq_of_lt (by omega)]

theorem Counted.putKey (counted : Counted state)
    (room : (state.shards shard).peek key = none →
      (state.shards shard).size < (state.shards shard).cap ∧ state.len + 1 < usizeRange) :
    Counted (state.putKey shard key record) := by
  obtain ⟨exact, bound⟩ := counted
  by_cases absent : (state.shards shard).peek key = none
  · obtain ⟨hasRoom, next⟩ := room absent
    rw [Counted, heldRecords_putKey_of_absent absent, if_pos hasRoom, len_putKey_of_absent absent,
      Nat.mod_eq_of_lt next]
    omega
  · rw [Counted, heldRecords_putKey_of_present absent, len_putKey_of_present absent]
    exact ⟨exact, bound⟩

theorem Counted.popKey (counted : Counted state) : Counted (state.popKey shard key) := by
  obtain ⟨exact, bound⟩ := counted
  have within := size_le_heldRecords state shard
  rw [Counted, heldRecords_popKey]
  split
  · rename_i absent
    have same : (state.popKey shard key).len = state.len := if_pos absent
    rw [same]
    exact ⟨exact, bound⟩
  · rename_i present
    have positive := LruCache.size_pos_of_peek present
    have less : (state.popKey shard key).len = (state.len + usizeRange - 1) % usizeRange := if_neg present
    rw [less, sub_one_of_pos (by omega) (by omega)]
    omega

theorem Counted.dropOldest {victim : String} (counted : Counted state)
    (oldest : (state.shards shard).oldest? = some victim) : Counted (state.dropOldest shard) := by
  obtain ⟨exact, bound⟩ := counted
  have held := heldRecords_dropOldest oldest
  have less : (state.dropOldest shard).len = (state.len + usizeRange - 1) % usizeRange := rfl
  rw [Counted, less, sub_one_of_pos (by omega) (by omega)]
  omega

/-- The count is kept by all operations but such completions. -/
theorem Effect.counted (effect : Effect backend state operation after) (counted : Counted state)
    (caps : ∀ shard, (state.shards shard).cap = max backend.maxCapacity 1)
    (counts : ¬ Miscounts backend state operation) : Counted after := by
  have atMost := backend.maxCapacity_lt
  cases effect with
  | used key hlc =>
    rw [Counted, heldRecords_useKey]
    exact counted
  | removed key => exact counted.popKey
  | completed key =>
    apply counted.putKey
    intro absent
    have notFull := not_and.mp counts absent
    rw [not_or, Nat.not_le] at notFull
    obtain ⟨exact, bound⟩ := counted
    rw [caps]
    omega
  | @inserted key hlc record room makesRoom =>
    have used : Counted (state.useKey (backend.shardOf key) key) := by
      rw [Counted, heldRecords_useKey]
      exact counted
    rcases makesRoom with ⟨rfl, empty⟩ | ⟨full, victimShard, victim, oldest, isOwn, rfl⟩
    · apply used.putKey
      intro _
      have within := size_le_heldRecords (state.useKey (backend.shardOf key) key) (backend.shardOf key)
      rw [cap_useKey, caps]
      by_cases full : backend.maxCapacity ≤ (state.useKey (backend.shardOf key) key).len
      · -- nothing is held at all
        have none : (state.useKey (backend.shardOf key) key).heldRecords = 0 :=
          Finset.sum_eq_zero fun shard _ => empty full shard
        have positive : 1 < usizeRange := by decide
        obtain ⟨exact, -⟩ := used
        omega
      · obtain ⟨exact, -⟩ := used
        omega
    · have dropped := used.dropOldest oldest
      apply dropped.putKey
      intro _
      have held := heldRecords_dropOldest oldest
      obtain ⟨exact, bound⟩ := used
      obtain ⟨exactDropped, -⟩ := dropped
      exact ⟨size_dropOldest_lt oldest isOwn, by omega⟩

theorem Effect.miscounted (effect : Effect backend state operation after) (exact : state.len = state.heldRecords)
    (caps : ∀ shard, (state.shards shard).cap = max backend.maxCapacity 1)
    (miscounts : Miscounts backend state operation) : after.len ≠ after.heldRecords := by
  cases effect with
  | used key hlc => cases miscounts
  | removed key => cases miscounts
  | inserted key => cases miscounts
  | completed key =>
    obtain ⟨absent, full⟩ := miscounts
    have several : 1 < usizeRange := by decide
    have bound := Nat.mod_lt (state.len + 1) (Nat.zero_lt_of_lt several)
    rw [len_putKey_of_absent absent, heldRecords_putKey_of_absent absent, caps, ← exact]
    by_cases last : state.len + 1 = usizeRange
    · rw [last, Nat.mod_self]
      split <;> omega
    · rw [if_neg (by omega)]
      by_cases small : state.len + 1 < usizeRange
      · rw [Nat.mod_eq_of_lt small]
        omega
      · omega

end Counter

theorem heldRecords_new (backend : MemoryBackend) : (new backend : MemoryState Unit).heldRecords = 0 :=
  Finset.sum_eq_zero fun _ _ => LruCache.size_empty _ _

/-- `active_record_count` is the number of records in every state of a run exactly if no call of it is
    a completion without a record to replace for which a full shard drops another one. -/
theorem active_record_count_exact_iff (backend : MemoryBackend) (calls : List (Nat × Operation)) :
    (∀ before, before <+: calls → (run backend (new backend) before).activeRecordCount =
      (run backend (new backend) before).heldRecords) ↔
    ∀ before call later, calls = before ++ call :: later →
      ¬ Miscounts backend (run backend (new backend) before) call.2 := by
  constructor
  · rintro exact before call later rfl miscounts
    have sofar := exact before (List.prefix_append _ _)
    have next := exact (before ++ [call]) ⟨later, by simp⟩
    rw [activeRecordCount] at sofar next
    rw [run_concat] at next
    have effect := @effect_step backend _ call.1 (unlocked_run backend before) call.2
    exact effect.miscounted sofar (cap_run backend before) miscounts next
  · intro counts before isPrefix
    have counted : Counted (run backend (new backend) before) := by
      induction before using List.reverseRecOn with
      | nil =>
        rw [run_nil, Counted, heldRecords_new]
        exact ⟨rfl, by decide⟩
      | append_singleton before call inductionHypothesis =>
        obtain ⟨later, rfl⟩ := isPrefix
        have sofar := inductionHypothesis ⟨call :: later, by simp⟩
        rw [run_concat]
        have effect := @effect_step backend _ call.1 (unlocked_run backend before) call.2
        exact effect.counted sofar (cap_run backend before) (counts before call later (by simp))
    rw [activeRecordCount]
    exact counted.1

/-! ## The capacity -/

/-- A new record in a shard with room, while the backend holds as many as it may and drops none: a
    completion, or a lock while the counter is below the capacity. -/
def Overfills (backend : MemoryBackend) (state : MemoryState Unit) (operation : Operation) : Prop :=
  (match operation with
    | .complete _ _ _ _ _ => True
    | .checkOrInsert _ _ => state.len < backend.maxCapacity
    | .remove _ => False) ∧
  stored backend state operation.key = none ∧
  (state.shards (backend.shardOf operation.key)).size < max backend.maxCapacity 1 ∧
  state.heldRecords = max backend.maxCapacity 1

section Capacity

variable {backend : MemoryBackend} {state after : MemoryState Unit} {operation : Operation} {shard : Shard}
  {key : String} {record : IdempotencyRecord}

theorem heldRecords_putKey_le : (state.putKey shard key record).heldRecords ≤ state.heldRecords + 1 := by
  by_cases absent : (state.shards shard).peek key = none
  · rw [heldRecords_putKey_of_absent absent]
    split <;> omega
  · rw [heldRecords_putKey_of_present absent]
    omega

/-- From at most as many records as it may hold, the backend comes to more only by such an operation. -/
theorem Effect.within_iff (effect : Effect backend state operation after)
    (caps : ∀ shard, (state.shards shard).cap = max backend.maxCapacity 1)
    (within : state.heldRecords ≤ max backend.maxCapacity 1) :
    after.heldRecords ≤ max backend.maxCapacity 1 ↔ ¬ Overfills backend state operation := by
  cases effect with
  | used key hlc present =>
    rw [heldRecords_useKey]
    exact iff_of_true within fun overfills => present overfills.2.1
  | removed key =>
    rw [heldRecords_popKey]
    refine iff_of_true ?_ fun overfills => overfills.1
    split <;> omega
  | completed key hlc statusCode headers body record =>
    by_cases absent : stored backend state key = none
    · rw [heldRecords_putKey_of_absent absent, caps, Overfills]
      simp only [Operation.key, absent, true_and]
      split <;> omega
    · rw [heldRecords_putKey_of_present absent]
      exact iff_of_true within fun overfills => absent overfills.2.1
  | @inserted key hlc record room makesRoom =>
    have used : (state.useKey (backend.shardOf key) key).heldRecords = state.heldRecords := heldRecords_useKey
    rcases makesRoom with ⟨rfl, empty⟩ | ⟨full, victimShard, victim, oldest, isOwn, rfl⟩
    · by_cases absent : stored backend state key = none
      · have absentUsed : ((state.useKey (backend.shardOf key) key).shards (backend.shardOf key)).peek key = none := by
          rw [peek_useKey]
          exact absent
        rw [heldRecords_putKey_of_absent absentUsed, cap_useKey, size_useKey, caps, Overfills]
        simp only [Operation.key, absent, true_and]
        -- with the counter full an insertion that finds no victim finds every shard empty
        by_cases full : backend.maxCapacity ≤ state.len
        · have none : (state.useKey (backend.shardOf key) key).heldRecords = 0 :=
            Finset.sum_eq_zero fun shard _ => empty full shard
          split <;> omega
        · split <;> omega
      · have presentUsed : ((state.useKey (backend.shardOf key) key).shards (backend.shardOf key)).peek key ≠ none := by
          rw [peek_useKey]
          exact absent
        rw [heldRecords_putKey_of_present presentUsed, used]
        exact iff_of_true within fun overfills => absent overfills.2.1
    · have held := heldRecords_dropOldest oldest
      refine iff_of_true ?_ fun overfills => Nat.not_lt.mpr full overfills.1
      have atMost := @heldRecords_putKey_le ((state.useKey (backend.shardOf key) key).dropOldest victimShard)
        (backend.shardOf key) key record
      omega

/-- The records are never more than are counted, and no more are counted than calls were made. -/
theorem Effect.counts (effect : Effect backend state operation after) {calls : Nat}
    (atLeast : state.heldRecords ≤ state.len) (atMost : state.len ≤ calls) (few : calls + 1 < usizeRange) :
    after.heldRecords ≤ after.len ∧ after.len ≤ calls + 1 := by
  -- one more is stored, and one more counted, only if the key is not there
  have put : ∀ {room : MemoryState Unit} {shard key record}, room.heldRecords ≤ room.len → room.len ≤ calls →
      (room.putKey shard key record).heldRecords ≤ (room.putKey shard key record).len ∧
        (room.putKey shard key record).len ≤ calls + 1 := by
    intro room shard key record atLeast atMost
    by_cases absent : (room.shards shard).peek key = none
    · have grows := @heldRecords_putKey_le room shard key record
      rw [len_putKey_of_absent absent, Nat.mod_eq_of_lt (by omega)]
      omega
    · rw [heldRecords_putKey_of_present absent, len_putKey_of_present absent]
      omega
  cases effect with
  | used key hlc =>
    rw [heldRecords_useKey, len_useKey]
    omega
  | completed key => exact put atLeast atMost
  | removed key =>
    rw [heldRecords_popKey]
    split
    · rename_i absent
      have same : (state.popKey (backend.shardOf key) key).len = state.len := if_pos absent
      omega
    · rename_i present
      have within := size_le_heldRecords state (backend.shardOf key)
      have positive := LruCache.size_pos_of_peek present
      have less : (state.popKey (backend.shardOf key) key).len = (state.len + usizeRange - 1) % usizeRange :=
        if_neg present
      rw [less, sub_one_of_pos (by omega) (by omega)]
      omega
  | @inserted key hlc record room makesRoom =>
    have used : (state.useKey (backend.shardOf key) key).heldRecords = state.heldRecords := heldRecords_useKey
    have sameLen : (state.useKey (backend.shardOf key) key).len = state.len := rfl
    rcases makesRoom with ⟨rfl, -⟩ | ⟨-, victimShard, victim, oldest, -, rfl⟩
    · exact put (by omega) (by omega)
    · have held := heldRecords_dropOldest oldest
      have less : ((state.useKey (backend.shardOf key) key).dropOldest victimShard).len =
          (state.len + usizeRange - 1) % usizeRange := rfl
      rw [sub_one_of_pos (by omega) (by omega)] at less
      exact put (by omega) (by omega)

end Capacity

/-- A backend that was called less often than its counter can tell never takes a lock too many. -/
theorem checkOrInsert_never_overfills (backend : MemoryBackend) (calls : List (Nat × Operation))
    (few : calls.length < usizeRange) (key : String) (hlc : HlcTimestamp) :
    ¬ Overfills backend (run backend (new backend) calls) (.checkOrInsert key hlc) := by
  have counts : (run backend (new backend) calls).heldRecords ≤ (run backend (new backend) calls).len ∧
      (run backend (new backend) calls).len ≤ calls.length := by
    induction calls using List.reverseRecOn with
    | nil =>
      rw [run_nil, heldRecords_new]
      exact ⟨Nat.zero_le _, Nat.zero_le _⟩
    | append_singleton calls call inductionHypothesis =>
      rw [List.length_append, List.length_singleton] at few ⊢
      obtain ⟨atLeast, atMost⟩ := inductionHypothesis (by omega)
      have effect := @effect_step backend _ call.1 (unlocked_run backend calls) call.2
      rw [run_concat]
      exact effect.counts atLeast atMost few
  rintro ⟨below, -, -, held⟩
  have isBelow : (run backend (new backend) calls).len < backend.maxCapacity := below
  omega

/-- The backend holds at most as many records as it may in every state of a run exactly if no call of it
    adds one when it already holds so many. -/
theorem capacity_bound_iff (backend : MemoryBackend) (calls : List (Nat × Operation)) :
    (∀ before, before <+: calls →
      (run backend (new backend) before).heldRecords ≤ max backend.maxCapacity 1) ↔
    ∀ before call later, calls = before ++ call :: later →
      ¬ Overfills backend (run backend (new backend) before) call.2 := by
  constructor
  · rintro within before call later rfl
    have sofar := within before (List.prefix_append _ _)
    have next := within (before ++ [call]) ⟨later, by simp⟩
    rw [run_concat] at next
    have effect := @effect_step backend _ call.1 (unlocked_run backend before) call.2
    exact (effect.within_iff (cap_run backend before) sofar).mp next
  · intro never before isPrefix
    induction before using List.reverseRecOn with
    | nil =>
      rw [run_nil, heldRecords_new]
      exact Nat.zero_le _
    | append_singleton before call inductionHypothesis =>
      obtain ⟨later, rfl⟩ := isPrefix
      have sofar := inductionHypothesis ⟨call :: later, by simp⟩
      have effect := @effect_step backend _ call.1 (unlocked_run backend before) call.2
      rw [run_concat]
      exact (effect.within_iff (cap_run backend before) sofar).mpr (never before call later (by simp))

/-- The lock on `a` is lost to the one on `b`; the completion of `a` then drives `b` out of the shard. -/
theorem count_lost_to_completion : ¬ ∀ before, before <+: ([(0, .checkOrInsert "a" ⟨1000, 0⟩),
      (0, .checkOrInsert "b" ⟨1000, 1⟩), (0, .complete "a" ⟨1000, 0⟩ 200 [] "")] : List (Nat × Operation)) →
    (run tinyBackend (new tinyBackend) before).activeRecordCount =
      (run tinyBackend (new tinyBackend) before).heldRecords := by
  intro exact
  have last := exact _ (List.prefix_refl _)
  revert last
  decide

/-- The same with keys of different shards. -/
theorem capacity_exceeded_by_completion : ¬ ∀ before, before <+: ([(0, .checkOrInsert "a" ⟨1000, 0⟩),
      (0, .checkOrInsert "bb" ⟨1000, 1⟩), (0, .complete "a" ⟨1000, 0⟩ 200 [] "")] : List (Nat × Operation)) →
    (run tinyBackend (new tinyBackend) before).heldRecords ≤ max tinyBackend.maxCapacity 1 := by
  intro within
  have last := within _ (List.prefix_refl _)
  revert last
  decide

end MemoryState

end SpectraGQL.Idempotency
