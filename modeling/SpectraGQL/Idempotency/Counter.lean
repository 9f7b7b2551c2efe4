import SpectraGQL.Idempotency.Capacity
import SpectraGQL.Idempotency.Linearizable
import SpectraGQL.Interaction.Progress

/-! # The counter under concurrency (`idempotency/mod.rs`)

The counter is one atomic for all shards, and a thread changes it after it has changed a shard,
with the lock of that shard still held.  `Holding` says which locks a thread holds and which change
it has not counted yet; every operation follows it (`program_obeys`).  Read with these stages, the
records of the shards never exceed the counter (`Covered`), as long as no addition wraps
it around.
-/

namespace SpectraGQL.Idempotency

open SpectraGQL.Core SpectraGQL.Http
open Interaction Data

/-- A change of a shard that the counter has not seen. -/
inductive Pending where
  | nothing
  | adding (shard : Shard)
  | removing (shard : Shard)
  deriving DecidableEq

/-- Where a thread is between taking its first lock and giving back its last one. -/
structure Holding where
  locks : Finset Shard
  pending : Pending

namespace Holding

def start : Holding := ⟨∅, .nothing⟩

/-- With the lock of one shard, and everything counted. -/
def one (shard : Shard) : Holding := ⟨{shard}, .nothing⟩

def Allows (holding : Holding) : MemoryCall → Prop
  | .currentUnixSecs | .lenLoad => True
  | .lock shard => holding.pending = .nothing ∧ shard ∉ holding.locks
  | .tryLock _ => holding.pending = .nothing
  | .unlock shard | .get shard _ | .put shard _ _ | .pop shard _ | .popLru shard =>
    holding.pending = .nothing ∧ shard ∈ holding.locks
  | .lenFetchAdd => ∃ shard ∈ holding.locks, holding.pending = .adding shard
  | .lenFetchSub => ∃ shard ∈ holding.locks, holding.pending = .removing shard

def next (holding : Holding) (event : Event memorySignature) : Holding :=
  match event with
  | ⟨.lock shard, _⟩ | ⟨.tryLock shard, true⟩ => { holding with locks := insert shard holding.locks }
  | ⟨.unlock shard, _⟩ => { holding with locks := holding.locks.erase shard }
  | ⟨.put shard _ _, none⟩ => { holding with pending := .adding shard }
  | ⟨.pop shard _, some _⟩ | ⟨.popLru shard, some _⟩ => { holding with pending := .removing shard }
  | ⟨.lenFetchAdd, _⟩ | ⟨.lenFetchSub, _⟩ => { holding with pending := .nothing }
  | _ => holding

def automaton : Automaton memorySignature Holding where
  allowed := Allows
  possible := fun _ => True
  next := next

end Holding

/-! ## The operations keep to it -/

namespace MemoryBackend

/-- From the one stage to the other. -/
abbrev Leads {α : Type} (before after : Holding) (program : MemoryProg α) : Prop :=
  program.Obeys Holding.automaton (fun _ now => now = after) before

variable {backend : MemoryBackend} {own : Shard}

theorem unlock_leads (locks : Finset Shard) (shard : Shard) (holds : shard ∈ locks) :
    Leads ⟨locks, .nothing⟩ ⟨locks.erase shard, .nothing⟩ (MemoryProg.unlock shard) :=
  ⟨⟨rfl, holds⟩, fun _ _ => rfl⟩

theorem unlockOne_leads (own : Shard) : Leads (.one own) .start (MemoryProg.unlock own) := by
  have released := unlock_leads {own} own (Finset.mem_singleton_self own)
  rwa [Finset.erase_singleton] at released

theorem putRecord_leads (own : Shard) (key : String) (record : IdempotencyRecord) :
    Leads (.one own) .start (putRecord own key record) := by
  have holds : own ∈ (Holding.one own).locks := Finset.mem_singleton_self own
  refine ⟨⟨rfl, holds⟩, fun answer _ => ?_⟩
  cases answer with
  | none => exact ⟨⟨own, holds, rfl⟩, fun _ _ => unlockOne_leads own⟩
  | some _ => exact unlockOne_leads own

theorem evictElsewhere_leads (own : Shard) (shards : List Shard) :
    Leads (.one own) (.one own) (evictElsewhere own shards) := by
  induction shards with
  | nil => exact rfl
  | cons shard rest inductionHypothesis =>
    unfold evictElsewhere
    split
    · rename_i foreign
      refine ⟨rfl, fun taken _ => ?_⟩
      cases taken with
      | false => exact inductionHypothesis
      | true =>
        -- the foreign lock is given back, whatever the shard had
        have holds : shard ∈ insert shard ({own} : Finset Shard) := Finset.mem_insert_self _ _
        have absent : shard ∉ ({own} : Finset Shard) := by simpa using foreign
        have released := unlock_leads _ shard holds
        rw [Finset.erase_insert absent] at released
        refine ⟨⟨rfl, holds⟩, fun victim _ => ?_⟩
        cases victim with
        | none => exact released.bind fun _ _ back => back ▸ inductionHypothesis
        | some _ => exact ⟨⟨shard, holds, rfl⟩, fun _ _ => released⟩
    · exact inductionHypothesis

theorem evict_leads (own : Shard) : Leads (.one own) (.one own) (evict own) := by
  have holds : own ∈ (Holding.one own).locks := Finset.mem_singleton_self own
  refine ⟨⟨rfl, holds⟩, fun victim _ => ?_⟩
  cases victim with
  | none => exact evictElsewhere_leads own _
  | some _ => exact ⟨⟨own, holds, rfl⟩, fun _ _ => rfl⟩

theorem insertInProgress_leads (key : String) (hlc : HlcTimestamp) (nowSecs : Nat) :
    Leads (.one (backend.shardOf key)) .start (backend.insertInProgress key hlc nowSecs) := by
  have loads : Leads (.one (backend.shardOf key)) (.one (backend.shardOf key)) MemoryProg.lenLoad :=
    ⟨trivial, fun _ _ => rfl⟩
  have inserted : Leads (.one (backend.shardOf key)) .start (do
      putRecord (backend.shardOf key) key (.inProgress hlc nowSecs)
      return IdempotencyOutcome.new) :=
    (putRecord_leads _ key _).bind fun _ _ back => back
  refine loads.bind fun len stage same => ?_
  subst same
  split
  · exact (evict_leads _).bind fun _ _ same => same ▸ inserted
  · exact inserted

theorem checkOrInsert_leads (key : String) (hlc : HlcTimestamp) :
    Leads .start .start (backend.checkOrInsert key hlc) := by
  have gets : Leads (.one (backend.shardOf key)) (.one (backend.shardOf key))
      (MemoryProg.get (backend.shardOf key) key) :=
    ⟨⟨rfl, Finset.mem_singleton_self _⟩, fun _ _ => rfl⟩
  refine ⟨trivial, fun nowSecs _ => ⟨⟨rfl, Finset.notMem_empty _⟩, fun _ _ => ?_⟩⟩
  refine gets.bind fun found stage same => ?_
  subst same
  cases found with
  | none => exact insertInProgress_leads key hlc nowSecs
  | some record =>
    have answered : Leads (.one (backend.shardOf key)) .start (do
        MemoryProg.unlock (backend.shardOf key)
        return record.outcome) :=
      (unlockOne_leads _).bind fun _ _ back => back
    dsimp only
    split
    · exact answered
    · exact insertInProgress_leads key hlc nowSecs

theorem complete_leads (key : String) (hlc : HlcTimestamp) (statusCode : UInt16) (headers : HeaderMap)
    (body : String) : Leads .start .start (backend.complete key hlc statusCode headers body) :=
  ⟨⟨rfl, Finset.notMem_empty _⟩, fun _ _ => ⟨trivial, fun _ _ => putRecord_leads _ key _⟩⟩

theorem remove_leads (key : String) : Leads .start .start (backend.remove key) := by
  have holds := Finset.mem_singleton_self (backend.shardOf key)
  refine ⟨⟨rfl, Finset.notMem_empty _⟩, fun _ _ => ⟨⟨rfl, holds⟩, fun found _ => ?_⟩⟩
  cases found with
  | none => exact unlockOne_leads _
  | some _ => exact ⟨⟨_, holds, rfl⟩, fun _ _ => unlockOne_leads _⟩

/-- Every operation gives its locks back and leaves nothing uncounted. -/
theorem program_leads (operation : Operation) : Leads .start .start (backend.program operation) := by
  cases operation with
  | checkOrInsert key hlc => exact (checkOrInsert_leads key hlc).bind fun _ _ back => back
  | complete key hlc statusCode headers body =>
    exact (complete_leads key hlc statusCode headers body).bind fun _ _ back => back
  | remove key => exact (remove_leads key).bind fun _ _ back => back

end MemoryBackend

/-! ## What the counter covers -/

namespace Holding

/-- The records of a shard as far as the counter has been told, seen by the holder of its lock. -/
def counts (holding : Holding) (shard : Shard) (size : Nat) : Nat :=
  match holding.pending with
  | .nothing => size
  | .adding other => if other = shard then size - 1 else size
  | .removing other => if other = shard then size + 1 else size

theorem counts_nothing {holding : Holding} (counted : holding.pending = .nothing) (shard : Shard) (size : Nat) :
    holding.counts shard size = size := by
  simp [counts, counted]

end Holding

section Covering

variable {ι : Type}

/-- The records of a shard as far as the counter has been told. -/
def countedIn (state : MemoryState ι) (holdings : ι → Holding) (shard : Shard) : Nat :=
  match state.owner shard with
  | none => (state.shards shard).size
  | some thread => (holdings thread).counts shard (state.shards shard).size

theorem countedIn_of_free {state : MemoryState ι} {holdings : ι → Holding} {shard : Shard}
    (free : state.owner shard = none) : countedIn state holdings shard = (state.shards shard).size := by
  simp [countedIn, free]

theorem countedIn_of_owner {state : MemoryState ι} {holdings : ι → Holding} {shard : Shard} {thread : ι}
    (owner : state.owner shard = some thread) :
    countedIn state holdings shard = (holdings thread).counts shard (state.shards shard).size := by
  simp [countedIn, owner]

/-- Locks are held by those who think so, what is uncounted is under a lock, and the counter covers
    what it has been told of. -/
structure Covered (state : MemoryState ι) (holdings : ι → Holding) : Prop where
  owned : ∀ thread shard, shard ∈ (holdings thread).locks ↔ state.owner shard = some thread
  covered : ∑ shard, countedIn state holdings shard ≤ state.len
  bounded : state.len < usizeRange

/-- A sum stays covered if what its one changed part gains is made up for. -/
theorem sum_le_of_others {before after : Shard → Nat} (shard : Shard) {len len' : Nat}
    (covered : ∑ shard, before shard ≤ len) (others : ∀ other, other ≠ shard → after other = before other)
    (own : after shard + len ≤ before shard + len') : ∑ shard, after shard ≤ len' := by
  have whole := Finset.add_sum_erase Finset.univ before (Finset.mem_univ shard)
  have whole' := Finset.add_sum_erase Finset.univ after (Finset.mem_univ shard)
  have same : ∑ other ∈ Finset.univ.erase shard, after other = ∑ other ∈ Finset.univ.erase shard, before other :=
    Finset.sum_congr rfl fun other member => others other (Finset.ne_of_mem_erase member)
  omega

namespace Covered

variable {state : MemoryState ι} {holdings : ι → Holding} {thread : ι} {shard : Shard}

/-- Nothing that is counted changes. -/
theorem congr (covered : Covered state holdings) {after : MemoryState ι} (owner : after.owner = state.owner)
    (sizes : ∀ shard, (after.shards shard).size = (state.shards shard).size) (len : after.len = state.len) :
    Covered after holdings where
  owned := by
    rw [owner]
    exact covered.owned
  covered := by
    have same (shard : Shard) : countedIn after holdings shard = countedIn state holdings shard := by
      unfold countedIn
      rw [owner, sizes]
    simp only [same, len]
    exact covered.covered
  bounded := by
    rw [len]
    exact covered.bounded

/-- What has left a shard and is still counted keeps the counter above zero. -/
theorem len_pos (covered : Covered state holdings) (holds : shard ∈ (holdings thread).locks)
    (pending : (holdings thread).pending = .removing shard) : 1 ≤ state.len := by
  have owner := (covered.owned thread shard).mp holds
  have whole := Finset.add_sum_erase Finset.univ (countedIn state holdings) (Finset.mem_univ shard)
  have within := covered.covered
  rw [countedIn_of_owner owner] at whole
  simp only [Holding.counts, pending, if_true] at whole
  omega

variable [DecidableEq ι]

/-- What the owner of a shard says of it, other shards do not notice. -/
theorem countedIn_update (after : MemoryState ι) (now : Holding) {other : Shard}
    (owner : after.owner other = state.owner other) (size : (after.shards other).size = (state.shards other).size)
    (same : now.counts other (state.shards other).size = (holdings thread).counts other (state.shards other).size) :
    countedIn after (Function.update holdings thread now) other = countedIn state holdings other := by
  unfold countedIn
  rw [owner, size]
  cases state.owner other with
  | none => rfl
  | some holder =>
    by_cases mine : holder = thread
    · subst mine
      simpa using same
    · simp [mine]

/-- A lock is taken that was free. -/
theorem lock (covered : Covered state holdings) (counted : (holdings thread).pending = .nothing)
    (free : state.owner shard = none) :
    Covered (state.setOwner shard (some thread))
      (Function.update holdings thread { holdings thread with locks := insert shard (holdings thread).locks }) where
  owned := by
    intro other place
    by_cases mine : other = thread
    · subst mine
      by_cases here : place = shard
      · simp [here]
      · simp [here, covered.owned]
    · by_cases here : place = shard
      · have notHeld := covered.owned other shard
        rw [free] at notHeld
        simp [mine, here, Ne.symm mine, notHeld]
      · simp [mine, here, covered.owned]
  covered := by
    refine sum_le_of_others shard covered.covered (fun other elsewhere => ?_) (le_of_eq ?_)
    · exact countedIn_update _ _ (by simp [elsewhere]) rfl rfl
    · have taken : (state.setOwner shard (some thread)).owner shard = some thread := by simp
      rw [countedIn_of_owner taken, countedIn_of_free free]
      simp [Holding.counts, counted]
  bounded := covered.bounded

/-- A lock is given back once everything is counted. -/
theorem unlock (covered : Covered state holdings) (counted : (holdings thread).pending = .nothing)
    (holds : shard ∈ (holdings thread).locks) :
    Covered (state.setOwner shard none)
      (Function.update holdings thread { holdings thread with locks := (holdings thread).locks.erase shard }) where
  owned := by
    intro other place
    have owner := (covered.owned thread shard).mp holds
    by_cases mine : other = thread
    · subst mine
      by_cases here : place = shard
      · simp [here]
      · simp [here, covered.owned]
    · by_cases here : place = shard
      · have notHeld := covered.owned other shard
        rw [owner] at notHeld
        simp [mine, here, Ne.symm mine, notHeld]
      · simp [mine, here, covered.owned]
  covered := by
    have owner := (covered.owned thread shard).mp holds
    refine sum_le_of_others shard covered.covered (fun other elsewhere => ?_) (le_of_eq ?_)
    · exact countedIn_update _ _ (by simp [elsewhere]) rfl rfl
    · rw [countedIn_of_owner owner, countedIn_of_free (by simp), Holding.counts_nothing counted]
      rfl
  bounded := covered.bounded

/-- Under its lock a shard gains or loses a record, of which the counter has not been told. -/
theorem change (covered : Covered state holdings) (counted : (holdings thread).pending = .nothing)
    (holds : shard ∈ (holdings thread).locks) {cache : LruCache String IdempotencyRecord} {pending : Pending}
    (own : ∀ size, size = cache.size → Holding.counts ⟨(holdings thread).locks, pending⟩ shard size ≤ (state.shards shard).size)
    (elsewhere : ∀ other, other ≠ shard → ∀ size, Holding.counts ⟨(holdings thread).locks, pending⟩ other size = size) :
    Covered (state.setShard shard cache)
      (Function.update holdings thread { holdings thread with pending := pending }) where
  owned := by
    intro other place
    by_cases mine : other = thread
    · subst mine
      simp [covered.owned]
    · simp [mine, covered.owned]
  covered := by
    have owner := (covered.owned thread shard).mp holds
    refine sum_le_of_others shard covered.covered (fun other different => ?_) ?_
    · refine countedIn_update _ _ rfl (by simp [different]) ?_
      rw [elsewhere other different, Holding.counts_nothing counted]
    · have still : (state.setShard shard cache).owner shard = some thread := owner
      rw [countedIn_of_owner still, countedIn_of_owner owner, Holding.counts_nothing counted]
      simpa using own _ rfl
  bounded := covered.bounded

/-- The counter is told, and stays within its range. -/
theorem tell (covered : Covered state holdings) (holds : shard ∈ (holdings thread).locks) {len : Nat}
    (elsewhere : ∀ other, other ≠ shard → ∀ size, (holdings thread).counts other size = size)
    (own : (state.shards shard).size + state.len ≤ (holdings thread).counts shard (state.shards shard).size + len)
    (bounded : len < usizeRange) :
    Covered { state with len := len } (Function.update holdings thread { holdings thread with pending := .nothing }) where
  owned := by
    intro other place
    by_cases mine : other = thread
    · subst mine
      simp [covered.owned]
    · simp [mine, covered.owned]
  covered := by
    have owner := (covered.owned thread shard).mp holds
    refine sum_le_of_others shard covered.covered (fun other different => ?_) ?_
    · refine countedIn_update _ _ rfl rfl ?_
      rw [elsewhere other different, Holding.counts_nothing rfl]
    · have still : { state with len := len }.owner shard = some thread := owner
      rw [countedIn_of_owner still, countedIn_of_owner owner]
      simpa [Holding.counts_nothing] using own
  bounded := bounded

/-- A step that changes the entries of a shard, but not their number. -/
theorem setShard (covered : Covered state holdings) {cache : LruCache String IdempotencyRecord}
    (size : cache.size = (state.shards shard).size) :
    Covered (state.setShard shard cache) (Function.update holdings thread (holdings thread)) := by
  rw [Function.update_eq_self]
  refine covered.congr rfl (fun other => ?_) rfl
  by_cases here : other = shard
  · rw [here, MemoryState.shards_setShard_self, size]
  · rw [MemoryState.shards_setShard_of_ne _ _ _ here]

theorem gained (covered : Covered state holdings) (counted : (holdings thread).pending = .nothing)
    (holds : shard ∈ (holdings thread).locks) {cache : LruCache String IdempotencyRecord}
    (size : cache.size ≤ (state.shards shard).size + 1) :
    Covered (state.setShard shard cache)
      (Function.update holdings thread { holdings thread with pending := .adding shard }) := by
  refine covered.change counted holds ?_ ?_
  · rintro _ rfl
    simp only [Holding.counts, if_true]
    omega
  · intro other different size
    simp [Holding.counts, Ne.symm different]

theorem lost (covered : Covered state holdings) (counted : (holdings thread).pending = .nothing)
    (holds : shard ∈ (holdings thread).locks) {cache : LruCache String IdempotencyRecord}
    (size : cache.size + 1 ≤ (state.shards shard).size) :
    Covered (state.setShard shard cache)
      (Function.update holdings thread { holdings thread with pending := .removing shard }) := by
  refine covered.change counted holds ?_ ?_
  · rintro _ rfl
    simpa [Holding.counts] using size
  · intro other different size
    simp [Holding.counts, Ne.symm different]

/-- One step of a thread, unless its addition wraps the counter around. -/
theorem perform (covered : Covered state holdings) {call : MemoryCall} {answer : call.Answer}
    {after : MemoryState ι} (allowed : (holdings thread).Allows call)
    (effect : MemoryState.meaning thread call state answer after)
    (noWrap : call = .lenFetchAdd → state.len + 1 < usizeRange) :
    Covered after (Function.update holdings thread ((holdings thread).next ⟨call, answer⟩)) := by
  have unchanged : Covered state (Function.update holdings thread (holdings thread)) := by
    rwa [Function.update_eq_self]
  cases call with
  | currentUnixSecs =>
    rw [MemoryState.meaning_currentUnixSecs effect]
    exact unchanged
  | lenLoad =>
    obtain ⟨_, rfl⟩ := MemoryState.meaning_lenLoad effect
    exact unchanged
  | lock shard =>
    obtain ⟨free, rfl⟩ := MemoryState.meaning_lock effect
    exact covered.lock allowed.1 free
  | tryLock shard =>
    obtain ⟨_, _, same⟩ := effect
    cases owner : state.owner shard with
    | none =>
      simp only [MemoryState.apply, owner, Prod.mk.injEq] at same
      obtain ⟨rfl, rfl⟩ := same
      exact covered.lock allowed owner
    | some _ =>
      simp only [MemoryState.apply, owner, Prod.mk.injEq] at same
      obtain ⟨rfl, rfl⟩ := same
      exact unchanged
  | unlock shard =>
    rw [MemoryState.meaning_unlock effect]
    exact covered.unlock allowed.1 allowed.2
  | get shard key =>
    obtain ⟨_, rfl⟩ := MemoryState.meaning_get effect
    exact covered.setShard (LruCache.size_get _ _)
  | put shard key record =>
    obtain ⟨old, rfl⟩ := MemoryState.meaning_put effect
    cases found : (state.shards shard).peek key with
    | none =>
      -- a full shard has dropped another record for the new one, and the counter is never told
      rw [old, found]
      refine covered.gained allowed.1 allowed.2 ?_
      rw [LruCache.size_put_of_absent record found]
      exact Nat.min_le_left _ _
    | some _ =>
      rw [old, found]
      exact covered.setShard (LruCache.size_put_of_present record (by simp [found]))
  | pop shard key =>
    obtain ⟨old, rfl⟩ := MemoryState.meaning_pop effect
    have size := LruCache.size_pop (state.shards shard) key
    cases found : (state.shards shard).peek key with
    | none =>
      rw [old, found]
      rw [if_pos found] at size
      exact covered.setShard size
    | some _ =>
      have present : (state.shards shard).peek key ≠ none := by simp [found]
      have positive := LruCache.size_pos_of_peek present
      rw [old, found]
      rw [if_neg present] at size
      exact covered.lost allowed.1 allowed.2 (by omega)
  | popLru shard =>
    obtain ⟨_, _, same⟩ := effect
    obtain ⟨isOld, rfl⟩ := Prod.mk.inj same
    have size := LruCache.size_dropOldest (state.shards shard)
    cases answer with
    | none =>
      have empty := LruCache.size_of_popLru_none isOld.symm
      exact covered.setShard (size.trans (by omega))
    | some victim =>
      have positive := LruCache.size_pos_of_oldest? (LruCache.oldest?_of_popLru isOld.symm)
      exact covered.lost allowed.1 allowed.2 (show (state.shards shard).dropOldest.size + 1 ≤ _ by omega)
  | lenFetchAdd =>
    obtain ⟨shard, holds, pending⟩ := allowed
    have room := noWrap rfl
    rw [MemoryState.meaning_lenFetchAdd effect]
    refine covered.tell holds ?_ ?_ ?_
    · intro other different size
      simp [Holding.counts, pending, Ne.symm different]
    · rw [Nat.mod_eq_of_lt room]
      simp only [Holding.counts, pending, if_true]
      omega
    · rwa [Nat.mod_eq_of_lt room]
  | lenFetchSub =>
    obtain ⟨shard, holds, pending⟩ := allowed
    have positive := covered.len_pos holds pending
    have lower := MemoryState.sub_one_of_pos positive covered.bounded
    have bounded := covered.bounded
    rw [MemoryState.meaning_lenFetchSub effect]
    refine covered.tell holds ?_ ?_ ?_
    · intro other different size
      simp [Holding.counts, pending, Ne.symm different]
    · rw [lower]
      simp only [Holding.counts, pending, if_true]
      omega
    · rw [lower]
      omega

end Covered

/-! ## Runs -/

variable [DecidableEq ι] {backend : MemoryBackend} {calls : ι → Operation}

/-- The stages of all threads after a history. -/
def holdingsAfter (history : List (MemoryLabel ι)) : ι → Holding :=
  fun thread => Holding.automaton.phaseOf .start thread history

theorem holdingsAfter_silent (history : List (MemoryLabel ι)) {label : MemoryLabel ι}
    (silent : ∀ thread event, label ≠ .perform thread event) :
    holdingsAfter (history ++ [label]) = holdingsAfter history :=
  Holding.automaton.phasesOf_silent Holding.start history silent

theorem holdingsAfter_perform (history : List (MemoryLabel ι)) (thread : ι) (event : Event memorySignature) :
    holdingsAfter (history ++ [.perform thread event]) =
      Function.update (holdingsAfter history) thread ((holdingsAfter history thread).next event) :=
  Holding.automaton.phasesOf_perform Holding.start history thread event

/-- A step that does not add to a counter at its end. -/
def NoWrap (config : Config memorySignature ι Empty (MemoryState ι) Reply) (label : MemoryLabel ι)
    (_ : Config memorySignature ι Empty (MemoryState ι) Reply) : Prop :=
  ∀ thread answer, label = .perform thread ⟨.lenFetchAdd, answer⟩ → config.moment.shared.len + 1 < usizeRange

theorem covered_new (backend : MemoryBackend) :
    Covered (MemoryState.new backend : MemoryState ι) (holdingsAfter []) where
  owned := by
    intro thread shard
    simp [holdingsAfter, Holding.start, MemoryState.new]
  covered := by
    have none (shard : Shard) : countedIn (MemoryState.new backend : MemoryState ι) (holdingsAfter []) shard = 0 :=
      countedIn_of_free rfl
    simp only [none, Finset.sum_const_zero]
    exact Nat.zero_le _
  bounded := Nat.two_pow_pos 64

/-- A thread that runs is where its history says it is. -/
theorem obeys_of_reaches {config : Config memorySignature ι Empty (MemoryState ι) Reply}
    (reaches : (memorySystem backend calls).Reaches (MemoryState.new backend) config) {thread : ι}
    {program : MemoryProg Reply} (running : config.threads thread = .running program) :
    program.Obeys Holding.automaton (fun _ now => now = .start) (holdingsAfter config.moment.history thread) :=
  reaches.obeys (MemoryBackend.program_leads (calls thread)) (fun _ => trivial) running

theorem covered_of_reaches {config : Config memorySignature ι Empty (MemoryState ι) Reply}
    (reaches : (memorySystem backend calls).ReachesBy NoWrap (MemoryState.new backend) config) :
    Covered config.moment.shared (holdingsAfter config.moment.history) := by
  induction reaches with
  | initial => exact covered_new backend
  | @step config config' label earlier step isOk inductionHypothesis =>
    cases step with
    | start _ | finish _ =>
      rw [Moment.push_history, holdingsAfter_silent _ (by simp)]
      exact inductionHypothesis
    | @perform thread request next answer shared running effect =>
      have allowed := (obeys_of_reaches earlier.reaches running).1
      rw [Moment.push_history, holdingsAfter_perform]
      refine inductionHypothesis.perform allowed effect fun isAddition => ?_
      subst isAddition
      exact isOk thread answer rfl
    | @environment event shared effect => exact event.elim

/-- A thread that is about to subtract has taken out a record that is still counted. -/
theorem len_pos_of_reaches {config : Config memorySignature ι Empty (MemoryState ι) Reply}
    (reaches : (memorySystem backend calls).ReachesBy NoWrap (MemoryState.new backend) config) {thread : ι}
    {next : Unit → MemoryProg Reply} (running : config.threads thread = .running (.call .lenFetchSub next)) :
    1 ≤ config.moment.shared.len := by
  obtain ⟨shard, holds, pending⟩ := (obeys_of_reaches reaches.reaches running).1
  exact (covered_of_reaches reaches).len_pos holds pending

/-! ## Few additions -/

def isAddition : MemoryLabel ι → Bool
  | .perform _ ⟨.lenFetchAdd, _⟩ => true
  | _ => false

omit [DecidableEq ι] in
/-- Only the accesses of the counter change it. -/
theorem len_of_meaning {thread : ι} {before after : MemoryState ι} {call : MemoryCall} {answer : call.Answer}
    (effect : MemoryState.meaning thread call before answer after) (notAdd : call ≠ .lenFetchAdd)
    (notSub : call ≠ .lenFetchSub) : after.len = before.len := by
  obtain ⟨_, nowSecs, same⟩ := effect
  obtain ⟨_, rfl⟩ := Prod.mk.inj same
  cases call with
  | lenFetchAdd => exact absurd rfl notAdd
  | lenFetchSub => exact absurd rfl notSub
  | tryLock shard =>
    cases owner : before.owner shard with
    | none => simp [owner]
    | some _ => simp [owner]
  | currentUnixSecs | lock _ | unlock _ | get _ _ | put _ _ _ | pop _ _ | popLru _ | lenLoad => rfl

theorem len_le_additions {config : Config memorySignature ι Empty (MemoryState ι) Reply}
    (reaches : (memorySystem backend calls).ReachesBy NoWrap (MemoryState.new backend) config) :
    config.moment.shared.len ≤ config.moment.history.countP isAddition := by
  induction reaches with
  | initial => exact Nat.zero_le _
  | @step config config' label earlier step isOk inductionHypothesis =>
    rw [step.history_eq, List.countP_append]
    cases step with
    | start _ | finish _ => exact Nat.le_trans inductionHypothesis (Nat.le_add_right _ _)
    | @perform thread request next answer shared running effect =>
      cases request with
      | lenFetchAdd =>
        have room := isOk thread answer rfl
        rw [Moment.push_shared, MemoryState.meaning_lenFetchAdd effect, Nat.mod_eq_of_lt room]
        simpa [isAddition] using inductionHypothesis
      | lenFetchSub =>
        have positive := len_pos_of_reaches earlier running
        have lower := MemoryState.sub_one_of_pos positive (covered_of_reaches earlier).bounded
        rw [Moment.push_shared, MemoryState.meaning_lenFetchSub effect, lower]
        simp only [isAddition, List.countP_cons, List.countP_nil]
        omega
      | currentUnixSecs | lock _ | tryLock _ | unlock _ | get _ _ | put _ _ _ | pop _ _ | popLru _ | lenLoad =>
        rw [Moment.push_shared, len_of_meaning effect (by simp) (by simp)]
        exact Nat.le_trans inductionHypothesis (Nat.le_add_right _ _)
    | @environment event shared effect => exact event.elim

/-- A run with fewer additions than a counter has values never wraps it around. -/
theorem reachesBy_of_few {config : Config memorySignature ι Empty (MemoryState ι) Reply}
    (reaches : (memorySystem backend calls).Reaches (MemoryState.new backend) config)
    (few : config.moment.history.countP isAddition < usizeRange) :
    (memorySystem backend calls).ReachesBy NoWrap (MemoryState.new backend) config := by
  induction reaches with
  | initial => exact .initial
  | @step config config' label earlier step inductionHypothesis =>
    rw [step.history_eq, List.countP_append] at few
    have before := inductionHypothesis (Nat.lt_of_le_of_lt (Nat.le_add_right _ _) few)
    refine .step before step ?_
    rintro thread answer rfl
    have bound := len_le_additions before
    simp only [List.countP_cons, List.countP_nil, isAddition, if_true] at few
    omega

/-- Whenever a thread is about to subtract from the counter, there is something to subtract, and as
    long as no lock is held, every record is counted. -/
theorem len_covers_records {config : Config memorySignature ι Empty (MemoryState ι) Reply}
    (reaches : (memorySystem backend calls).ReachesBy NoWrap (MemoryState.new backend) config) :
    (∀ thread next, config.threads thread = .running (.call .lenFetchSub next) → 1 ≤ config.moment.shared.len) ∧
      (config.moment.shared.Unlocked → config.moment.shared.heldRecords ≤ config.moment.shared.len) := by
  refine ⟨fun thread next running => len_pos_of_reaches reaches running, fun unlocked => ?_⟩
  have all : config.moment.shared.heldRecords =
      ∑ shard, countedIn config.moment.shared (holdingsAfter config.moment.history) shard := by
    apply Finset.sum_congr rfl
    intro shard _
    rw [countedIn_of_free (unlocked shard)]
  rw [all]
  exact (covered_of_reaches reaches).covered

def removalCalls : Bool → Operation
  | false => .complete "order-1" ⟨1000, 0⟩ 200 [] ""
  | true => .remove "order-1"

/-- A record is completed, and taken out again; that it is gone has yet to be counted. -/
def removalMoves : List (Move Bool Empty Nat) :=
  [false, false, false, false, false, false, false, true, true, true].map fun thread => .thread thread 5

theorem removal_run : ∃ config next,
    (memorySystem racingBackend removalCalls).Reaches (MemoryState.new racingBackend) config ∧
      config.moment.history.countP isAddition = 1 ∧ config.threads true = .running (.call .lenFetchSub next) :=
  ⟨_, _, (memoryScheduler racingBackend removalCalls).run_reaches removalMoves .initial rfl, rfl, rfl⟩

theorem len_covers_records_removal : ∃ config next,
    (memorySystem racingBackend removalCalls).ReachesBy NoWrap (MemoryState.new racingBackend) config ∧
      config.threads true = .running (.call .lenFetchSub next) ∧ 1 ≤ config.moment.shared.len := by
  obtain ⟨config, next, reaches, once, running⟩ := removal_run
  have few : config.moment.history.countP isAddition < usizeRange := by
    rw [once]
    decide
  have withinRange := reachesBy_of_few reaches few
  exact ⟨config, next, withinRange, running, (len_covers_records withinRange).1 true next running⟩

/-! ## One call after the other -/

/-- A lock is taken by a thread that knows of it. -/
def Known (holding : Holding) (state : MemoryState ι) : Prop :=
  ∀ shard, state.owner shard ≠ none → shard ∈ holding.locks

omit [DecidableEq ι] in
theorem Known.apply {holding : Holding} {state : MemoryState ι} (known : Known holding state) (thread : ι)
    (nowSecs : Nat) (call : MemoryCall) :
    Known (holding.next ⟨call, (MemoryState.apply thread nowSecs call state).1⟩)
      (MemoryState.apply thread nowSecs call state).2 := by
  intro place taken
  cases call with
  | currentUnixSecs | lenLoad | lenFetchAdd | lenFetchSub | get _ _ => exact known place taken
  | put _ _ _ | pop _ _ | popLru _ =>
    -- whatever the answer is, the locks are the same
    have same : place ∈ holding.locks := known place taken
    unfold Holding.next
    split <;> simp_all
  | lock shard =>
    by_cases here : place = shard
    · exact here ▸ Finset.mem_insert_self _ _
    · have before := known place (by simpa [MemoryState.apply, here] using taken)
      exact Finset.mem_insert_of_mem before
  | tryLock shard =>
    cases owner : state.owner shard with
    | none =>
      simp only [MemoryState.apply, owner] at taken ⊢
      by_cases here : place = shard
      · exact here ▸ Finset.mem_insert_self _ _
      · have before := known place (by simpa [here] using taken)
        exact Finset.mem_insert_of_mem before
    | some _ =>
      simp only [MemoryState.apply, owner] at taken ⊢
      exact known place taken
  | unlock shard =>
    by_cases here : place = shard
    · simp [MemoryState.apply, here] at taken
    · have before := known place (by simpa [MemoryState.apply, here] using taken)
      exact Finset.mem_erase.mpr ⟨here, before⟩

/-- Where no lock is held, a call that has not begun can be run to its end, and does then what it
    does alone. -/
theorem runs_alone {config : Config memorySignature ι Empty (MemoryState ι) Reply}
    (unlocked : config.moment.shared.Unlocked) {thread : ι} (idle : config.threads thread = .idle) (nowSecs : Nat) :
    ∃ later, (memorySystem backend calls).Leads config later ∧
      later.threads = Function.update config.threads thread (.finished
        ((backend.program (calls thread)).interp (S := memorySignature) (MemoryState.apply thread nowSecs)
          config.moment.shared).1) ∧
      later.moment.shared = ((backend.program (calls thread)).interp (S := memorySignature)
        (MemoryState.apply thread nowSecs) config.moment.shared).2 := by
  let started : Config memorySignature ι Empty (MemoryState ι) Reply :=
    ⟨Function.update config.threads thread (.running (backend.program (calls thread))),
      config.moment.push config.moment.shared (.start thread)⟩
  have begins : (memorySystem backend calls).Step config (.start thread) started := .start idle
  have enabled (holding : Holding) (call : MemoryCall) (state : MemoryState ι) (known : Known holding state)
      (allowed : holding.Allows call) : (memorySystem backend calls).meaning thread call state
        (MemoryState.apply thread nowSecs call state).1 (MemoryState.apply thread nowSecs call state).2 := by
    refine ⟨?_, nowSecs, rfl⟩
    cases call with
    | lock shard => exact Decidable.byContradiction fun taken => allowed.2 (known shard taken)
    | _ => trivial
  obtain ⟨later, _, leads, threads, shared, _⟩ :=
    System.leads_alone (memorySystem backend calls) (MemoryState.apply thread nowSecs) Known enabled
      (fun holding call state known _ => ⟨trivial, known.apply thread nowSecs call⟩)
      (MemoryBackend.program_leads (calls thread))
      (show Known .start started.moment.shared from fun shard taken => absurd (unlocked shard) taken)
      (show started.threads thread = .running (backend.program (calls thread)) from Function.update_self ..)
  refine ⟨later, begins.leads.trans leads, ?_, shared⟩
  rw [threads]
  exact Function.update_idem ..

end Covering

/-! ## The end of the range -/

theorem one_lt_usizeRange : 1 < usizeRange := Nat.one_lt_two_pow (by decide)

/-- One shard, with room for one record. -/
def wrapBackend : MemoryBackend := ⟨300, 1, fun _ => 0, one_lt_usizeRange⟩

def wrapKey (call : Nat) : String := if call % 2 = 0 then "even" else "odd"

/-- Each completion drives out the record of the one before it, and adds to the counter.  The last call
    removes the only record there is. -/
def wrapCalls (call : Nat) : Operation :=
  if call < usizeRange then .complete (wrapKey call) ⟨0, 0⟩ 200 [] "" else .remove (wrapKey (usizeRange - 1))

theorem wrapKey_succ (call : Nat) : wrapKey (call + 1) ≠ wrapKey call := by
  unfold wrapKey
  split <;> split
  · omega
  · decide
  · decide
  · omega

/-- In a cache with one entry no other key is found. -/
theorem absent_of_size_le_one {cache : LruCache String IdempotencyRecord} (small : cache.size ≤ 1)
    {key other : String} (present : cache.peek key ≠ none) (different : other ≠ key) : cache.peek other = none := by
  have isKey := LruCache.peek_isSome_iff.mp (Option.isSome_iff_ne_none.mpr present)
  rw [LruCache.size_eq_keys] at small
  rw [LruCache.peek_eq_none_iff]
  intro member
  match same : cache.table.keys with
  | [] => simp [same] at isKey
  | [only] =>
    rw [same] at isKey member
    exact different ((List.mem_singleton.mp member).trans (List.mem_singleton.mp isKey).symm)
  | _ :: _ :: _ => simp [same] at small

abbrev WrapConfig := Config memorySignature Nat Empty (MemoryState Nat) Reply

def wrapShard : Shard := wrapBackend.shardOf "even"

/-- After so many completions, one after the other. -/
structure Completions (count : Nat) (config : WrapConfig) : Prop where
  reaches : (memorySystem wrapBackend wrapCalls).Reaches (MemoryState.new wrapBackend) config
  unlocked : config.moment.shared.Unlocked
  idle : ∀ call, count ≤ call → config.threads call = .idle
  cap : (config.moment.shared.shards wrapShard).cap = 1
  latest : ∀ earlier, count = earlier + 1 → (config.moment.shared.shards wrapShard).peek (wrapKey earlier) ≠ none
  empty : count = 0 → (config.moment.shared.shards wrapShard).size = 0
  len : config.moment.shared.len = count % usizeRange

theorem Completions.initial : Completions 0 (System.initial (MemoryState.new wrapBackend)) where
  reaches := .initial
  unlocked := fun _ => rfl
  idle := fun _ _ => rfl
  cap := rfl
  latest := fun earlier isLater => by omega
  empty := fun _ => rfl
  len := rfl

/-- The next key is not there. -/
theorem Completions.absent {count : Nat} {config : WrapConfig} (completions : Completions count config) :
    (config.moment.shared.shards wrapShard).peek (wrapKey count) = none := by
  cases count with
  | zero =>
    rw [LruCache.peek_eq_none_iff]
    intro member
    have some := List.length_pos_of_mem member
    have none := completions.empty rfl
    rw [LruCache.size_eq_keys] at none
    omega
  | succ earlier =>
    have small := (config.moment.shared.shards wrapShard).size_le_cap
    rw [completions.cap] at small
    exact absent_of_size_le_one small (completions.latest earlier rfl) (wrapKey_succ earlier)

theorem Completions.next {count : Nat} {config : WrapConfig} (completions : Completions count config)
    (inRange : count < usizeRange) : ∃ later, Completions (count + 1) later := by
  obtain ⟨later, leads, threads, shared⟩ :=
    @runs_alone _ _ wrapBackend wrapCalls config completions.unlocked count (completions.idle count (le_refl count)) 0
  have isCall : wrapCalls count = .complete (wrapKey count) ⟨0, 0⟩ 200 [] "" := if_pos inRange
  have free : config.moment.shared.owner (wrapBackend.shardOf (wrapKey count)) = none := completions.unlocked _
  have shards : wrapBackend.shardOf (wrapKey count) = wrapShard := rfl
  rw [isCall, MemoryState.interp_complete free, shards] at shared
  have absent := completions.absent
  refine ⟨later, ?_, ?_, ?_, ?_, ?_, ?_, ?_⟩
  · exact leads.reaches completions.reaches
  · rw [shared]
    exact completions.unlocked
  · intro call isLater
    rw [threads, Function.update_of_ne (by omega)]
    exact completions.idle call (by omega)
  · rw [shared, MemoryState.cap_putKey]
    exact completions.cap
  · intro earlier isEarlier
    obtain rfl : count = earlier := by omega
    rw [shared]
    simp [MemoryState.putKey, LruCache.peek_put]
  · intro isZero
    omega
  · rw [shared]
    simp only [MemoryState.putKey, if_pos absent, completions.len]
    exact Nat.mod_add_mod count usizeRange 1

theorem exists_completions {count : Nat} (inRange : count ≤ usizeRange) : ∃ config, Completions count config := by
  induction count with
  | zero => exact ⟨_, .initial⟩
  | succ count inductionHypothesis =>
    obtain ⟨config, completions⟩ := inductionHypothesis (by omega)
    exact completions.next (by omega)

/-- What is left of a removal that has found its record. -/
theorem remove_program (backend : MemoryBackend) (key : String) :
    ∃ rest : Option IdempotencyRecord → MemoryProg Reply,
      backend.program (.remove key) =
        .call (.lock (backend.shardOf key)) (fun _ => .call (.pop (backend.shardOf key) key) rest) ∧
      ∀ record, ∃ next, rest (some record) = .call .lenFetchSub next :=
  ⟨_, rfl, fun _ => ⟨_, rfl⟩⟩

/-- After as many additions as a counter has values it is at zero with a record in place, and the
    removal of that record subtracts from zero. -/
theorem len_wraps_around :
    (∃ config, (memorySystem wrapBackend wrapCalls).Reaches (MemoryState.new wrapBackend) config ∧
      config.moment.shared.Unlocked ∧ config.moment.shared.len < config.moment.shared.heldRecords) ∧
    ∃ config next, (memorySystem wrapBackend wrapCalls).Reaches (MemoryState.new wrapBackend) config ∧
      config.threads usizeRange = .running (.call .lenFetchSub next) ∧ config.moment.shared.len = 0 := by
  obtain ⟨config, completions⟩ := exists_completions (le_refl usizeRange)
  have zero : config.moment.shared.len = 0 := by rw [completions.len, Nat.mod_self]
  have present := completions.latest (usizeRange - 1) (by decide)
  constructor
  · have whole := Finset.add_sum_erase Finset.univ (fun shard => (config.moment.shared.shards shard).size)
      (Finset.mem_univ wrapShard)
    have some := LruCache.size_pos_of_peek present
    refine ⟨config, completions.reaches, completions.unlocked, ?_⟩
    rw [zero, MemoryState.heldRecords]
    omega
  · -- the last thread takes the lock and removes the record
    obtain ⟨rest, isProgram, subtracts⟩ := remove_program wrapBackend (wrapKey (usizeRange - 1))
    obtain ⟨record, found⟩ := Option.ne_none_iff_exists'.mp present
    obtain ⟨next, isNext⟩ := subtracts record
    have isCall : wrapCalls usizeRange = .remove (wrapKey (usizeRange - 1)) := if_neg (Nat.lt_irrefl _)
    have begun := System.Reaches.step completions.reaches (.start (completions.idle usizeRange (le_refl _)))
    have locking := (congrArg wrapBackend.program isCall).trans isProgram
    simp only [memorySystem] at begun
    rw [locking] at begun
    have locked := System.Reaches.step begun (.perform (Function.update_self ..) ⟨completions.unlocked _, 0, rfl⟩)
    have popped := System.Reaches.step locked (.perform (Function.update_self ..) ⟨trivial, 0, rfl⟩)
    refine ⟨_, next, popped, ?_, zero⟩
    simp only [Function.update_self, Thread.running.injEq]
    rw [← isNext, ← found]
    rfl

end SpectraGQL.Idempotency
