import Mathlib.Data.Finset.Card
import Mathlib.Data.List.AList
import Mathlib.Order.Basic
import Mathlib.Tactic.Common

/-! # A bounded least-recently-used cache

The cache keeps its entries most recently used first, each key once, and never more
of them than its capacity.  `get` and `put` move their entry to the front; `put` of
a new key into a full cache drops the last entry and does not report it.

The lemmas describe every operation through `peek`, the lookup that does not count
as a use, and `size`.
-/

namespace Data

/-- A cache of positive capacity. -/
structure LruCache (κ ν : Type) where
  cap : Nat
  table : AList fun _ : κ => ν
  capPos : 0 < cap
  bounded : table.entries.length ≤ cap

namespace LruCache

variable {κ ν : Type}

/-- The number of entries. -/
def size (cache : LruCache κ ν) : Nat := cache.table.entries.length

def empty (cap : Nat) (capPos : 0 < cap) : LruCache κ ν := ⟨cap, ∅, capPos, by simp⟩

/-- The key of the least recently used entry. -/
def oldest? (cache : LruCache κ ν) : Option κ := cache.table.keys.getLast?

/-- The cache without its least recently used entry. -/
def dropOldest (cache : LruCache κ ν) : LruCache κ ν :=
  ⟨cache.cap, ⟨cache.table.entries.dropLast, cache.table.nodupKeys.sublist (List.dropLast_sublist _)⟩,
    cache.capPos, by simpa using le_trans (Nat.sub_le _ 1) cache.bounded⟩

/-- Make room for a new entry. -/
def makeRoom (cache : LruCache κ ν) : LruCache κ ν :=
  if cache.size < cache.cap then cache else cache.dropOldest

theorem size_le_cap (cache : LruCache κ ν) : cache.size ≤ cache.cap := cache.bounded

theorem size_eq_keys (cache : LruCache κ ν) : cache.size = cache.table.keys.length := by
  simp [size, AList.keys, List.keys]

@[simp] theorem size_empty (cap : Nat) (capPos : 0 < cap) :
    (empty cap capPos : LruCache κ ν).size = 0 := rfl

@[simp] theorem cap_empty (cap : Nat) (capPos : 0 < cap) :
    (empty cap capPos : LruCache κ ν).cap = cap := rfl

@[simp] theorem size_dropOldest (cache : LruCache κ ν) : cache.dropOldest.size = cache.size - 1 := by
  simp [size, dropOldest]

@[simp] theorem cap_dropOldest (cache : LruCache κ ν) : cache.dropOldest.cap = cache.cap := rfl

@[simp] theorem cap_makeRoom (cache : LruCache κ ν) : cache.makeRoom.cap = cache.cap := by
  unfold makeRoom
  split <;> rfl

theorem size_makeRoom_lt (cache : LruCache κ ν) : cache.makeRoom.size < cache.cap := by
  have positive := cache.capPos
  have bounded := cache.size_le_cap
  unfold makeRoom
  split
  · assumption
  · rw [size_dropOldest]
    omega

theorem makeRoom_of_lt {cache : LruCache κ ν} (room : cache.size < cache.cap) :
    cache.makeRoom = cache := by
  simp [makeRoom, room]

variable [DecidableEq κ]

/-- Look a key up without counting it as a use. -/
def peek (cache : LruCache κ ν) (key : κ) : Option ν := cache.table.lookup key

@[simp] theorem peek_empty (cap : Nat) (capPos : 0 < cap) (key : κ) :
    (empty cap capPos : LruCache κ ν).peek key = none := by
  simp [peek, empty]

theorem peek_isSome_iff {cache : LruCache κ ν} {key : κ} :
    (cache.peek key).isSome ↔ key ∈ cache.table.keys := AList.lookup_isSome

theorem peek_eq_none_iff {cache : LruCache κ ν} {key : κ} :
    cache.peek key = none ↔ key ∉ cache.table.keys := AList.lookup_eq_none

theorem mem_keys_of_peek {cache : LruCache κ ν} {key : κ} {value : ν}
    (found : cache.peek key = some value) : key ∈ cache.table.keys :=
  peek_isSome_iff.mp (by simp [found])

/-- The entries of a cache have distinct keys. -/
theorem size_le_card {cache : LruCache κ ν} {keys : Finset κ}
    (within : ∀ key, cache.peek key ≠ none → key ∈ keys) : cache.size ≤ keys.card := by
  have used : cache.table.keys.toFinset ⊆ keys := by
    intro key member
    apply within
    rw [ne_eq, peek_eq_none_iff, not_not]
    exact List.mem_toFinset.mp member
  have distinct := List.toFinset_card_of_nodup cache.table.nodupKeys
  calc cache.size = cache.table.keys.toFinset.card := by
        rw [size_eq_keys]
        exact distinct.symm
    _ ≤ keys.card := Finset.card_le_card used

theorem insert_length_of_mem {table : AList fun _ : κ => ν} {key : κ} (value : ν)
    (present : key ∈ table.keys) :
    (table.insert key value).entries.length = table.entries.length := by
  have keys : (table.insert key value).keys.length = table.keys.length := by
    rw [AList.keys_insert, List.length_cons, List.length_erase_of_mem present]
    have := List.length_pos_of_mem present
    omega
  simpa [AList.keys, List.keys] using keys

/-! ## The operations -/

/-- Use an entry that is present: it becomes the most recent one, with value `value`. -/
def touch (cache : LruCache κ ν) (key : κ) (value : ν) (present : key ∈ cache.table.keys) :
    LruCache κ ν :=
  ⟨cache.cap, cache.table.insert key value, cache.capPos,
    le_of_eq_of_le (insert_length_of_mem value present) cache.bounded⟩

/-- Look a key up; a hit becomes the most recent entry. -/
def get (cache : LruCache κ ν) (key : κ) : Option ν × LruCache κ ν :=
  match found : cache.peek key with
  | none => (none, cache)
  | some value => (some value, cache.touch key value (mem_keys_of_peek found))

/-- Add an entry for a key that is absent, dropping the oldest one from a full cache. -/
def add (cache : LruCache κ ν) (key : κ) (value : ν) : LruCache κ ν :=
  ⟨cache.cap, cache.makeRoom.table.insert key value, cache.capPos, by
    have room := cache.size_makeRoom_lt
    have erased := List.Sublist.length_le (List.kerase_sublist key cache.makeRoom.table.entries)
    simp only [size] at room
    simp only [AList.entries_insert, List.length_cons]
    omega⟩

/-- Insert or replace an entry; the answer is the value the key had before. -/
def put (cache : LruCache κ ν) (key : κ) (value : ν) : Option ν × LruCache κ ν :=
  match found : cache.peek key with
  | some old => (some old, cache.touch key value (mem_keys_of_peek found))
  | none => (none, cache.add key value)

def pop (cache : LruCache κ ν) (key : κ) : Option ν × LruCache κ ν :=
  (cache.peek key, ⟨cache.cap, cache.table.erase key, cache.capPos,
    le_trans (List.Sublist.length_le (List.kerase_sublist key _)) cache.bounded⟩)

omit [DecidableEq κ] in
/-- Remove and return the least recently used entry. -/
def popLru (cache : LruCache κ ν) : Option (κ × ν) × LruCache κ ν :=
  (cache.table.entries.getLast?.map fun entry => (entry.1, entry.2), cache.dropOldest)

/-! ## What they do to the entries -/

omit [DecidableEq κ] in
theorem oldest?_of_popLru {cache : LruCache κ ν} {entry : κ × ν}
    (victim : cache.popLru.1 = some entry) : cache.oldest? = some entry.1 := by
  simp only [popLru, Option.map_eq_some_iff] at victim
  obtain ⟨last, isLast, rfl⟩ := victim
  simp [oldest?, AList.keys, List.keys, isLast]

omit [DecidableEq κ] in
theorem dropOldest_of_popLru_none {cache : LruCache κ ν} (empty : cache.popLru.1 = none) :
    cache.dropOldest = cache := by
  obtain ⟨cap, ⟨entries, nodup⟩, capPos, bounded⟩ := cache
  have none : entries = [] := by simpa [popLru] using empty
  subst none
  rfl

omit [DecidableEq κ] in
theorem size_of_popLru_none {cache : LruCache κ ν} (empty : cache.popLru.1 = none) : cache.size = 0 := by
  have none : cache.table.entries = [] := by simpa [popLru] using empty
  rw [size, none, List.length_nil]

omit [DecidableEq κ] in
theorem size_pos_of_oldest? {cache : LruCache κ ν} {key : κ} (oldest : cache.oldest? = some key) :
    0 < cache.size := by
  rw [size_eq_keys]
  exact List.length_pos_of_mem (List.mem_of_getLast? oldest)

theorem peek_touch (cache : LruCache κ ν) (key : κ) (value : ν) (present) (other : κ) :
    (cache.touch key value present).peek other =
      if other = key then some value else cache.peek other := by
  by_cases same : other = key
  · subst same
    simp [peek, touch]
  · simp [peek, touch, same, AList.lookup_insert_ne same]

/-- Dropping the oldest entry loses exactly that one. -/
theorem peek_dropOldest (cache : LruCache κ ν) (key : κ) :
    cache.dropOldest.peek key = if cache.oldest? = some key then none else cache.peek key := by
  rcases List.eq_nil_or_concat cache.table.entries with empty | ⟨front, last, split⟩
  · simp [peek, dropOldest, oldest?, AList.keys, AList.lookup, empty, List.keys]
  · have nodup := cache.table.nodupKeys
    rw [split, List.concat_eq_append] at nodup
    have lastFresh : last.1 ∉ front.keys := by
      have := List.nodup_append.mp (by simpa [List.NodupKeys, List.keys] using nodup : (front.keys ++ [last.1]).Nodup)
      intro member
      exact this.2.2 _ member _ (List.mem_singleton_self _) rfl
    have oldest : cache.oldest? = some last.1 := by
      simp [oldest?, AList.keys, split, List.keys]
    have found : cache.peek key = (List.dlookup key front).or (List.dlookup key [last]) := by
      simp [peek, AList.lookup, split, List.dlookup_append]
    have rest : cache.dropOldest.peek key = List.dlookup key front := by
      simp [peek, dropOldest, AList.lookup, split]
    rw [rest, found, oldest]
    by_cases same : last.1 = key
    · subst same
      simpa using List.dlookup_eq_none.mpr lastFresh
    · have missing : List.dlookup key [last] = none := by
        rw [List.dlookup_cons_ne _ _ (Ne.symm same), List.dlookup_nil]
      simp [same, missing]

@[simp] theorem get_fst (cache : LruCache κ ν) (key : κ) : (cache.get key).1 = cache.peek key := by
  unfold get
  split <;> simp_all

@[simp] theorem peek_get (cache : LruCache κ ν) (key other : κ) :
    (cache.get key).2.peek other = cache.peek other := by
  unfold get
  split
  · rfl
  · rename_i value found
    rw [peek_touch]
    split
    · simp_all
    · rfl

theorem get_snd_of_absent {cache : LruCache κ ν} {key : κ} (absent : cache.peek key = none) :
    (cache.get key).2 = cache := by
  unfold get
  split
  · rfl
  · simp_all

@[simp] theorem size_get (cache : LruCache κ ν) (key : κ) : (cache.get key).2.size = cache.size := by
  unfold get
  split
  · rfl
  · rename_i value found
    exact insert_length_of_mem value (mem_keys_of_peek found)

@[simp] theorem cap_get (cache : LruCache κ ν) (key : κ) : (cache.get key).2.cap = cache.cap := by
  unfold get
  split <;> rfl

@[simp] theorem put_fst (cache : LruCache κ ν) (key : κ) (value : ν) :
    (cache.put key value).1 = cache.peek key := by
  unfold put
  split <;> simp_all

@[simp] theorem cap_put (cache : LruCache κ ν) (key : κ) (value : ν) :
    (cache.put key value).2.cap = cache.cap := by
  unfold put
  split <;> rfl

theorem size_pos_of_peek {cache : LruCache κ ν} {key : κ} (present : cache.peek key ≠ none) : 0 < cache.size := by
  rw [size_eq_keys]
  exact List.length_pos_of_mem (peek_isSome_iff.mp (Option.isSome_iff_ne_none.mpr present))

theorem size_put_of_present {cache : LruCache κ ν} {key : κ} (value : ν) (present : cache.peek key ≠ none) :
    (cache.put key value).2.size = cache.size := by
  unfold put
  split
  · rename_i old found
    exact insert_length_of_mem value (mem_keys_of_peek found)
  · rename_i absent
    exact absurd absent present

/-- A new entry makes the cache larger by one, unless it is full. -/
theorem size_put_of_absent {cache : LruCache κ ν} {key : κ} (value : ν) (absent : cache.peek key = none) :
    (cache.put key value).2.size = min (cache.size + 1) cache.cap := by
  have fresh : cache.makeRoom.peek key = none := by
    unfold makeRoom
    split
    · exact absent
    · rw [peek_dropOldest, absent, ite_self]
  have added : (cache.put key value).2.size = cache.makeRoom.size + 1 := by
    unfold put
    split
    · rename_i old found
      rw [absent] at found
      cases found
    · have kept : cache.makeRoom.table.entries.kerase key = cache.makeRoom.table.entries :=
        List.kerase_of_notMem_keys (peek_eq_none_iff.mp fresh)
      simp [size, add, AList.entries_insert, kept]
  have bounded := cache.size_le_cap
  have positive := cache.capPos
  rw [added]
  unfold makeRoom
  split
  · omega
  · rw [size_dropOldest]
    omega

/-- `put` changes its own key only, unless it adds a key to a full cache. -/
theorem peek_put (cache : LruCache κ ν) (key : κ) (value : ν) (other : κ) :
    (cache.put key value).2.peek other =
      if other = key then some value
      else if cache.peek key = none then cache.makeRoom.peek other else cache.peek other := by
  unfold put
  split
  · rename_i old found
    rw [peek_touch]
    simp [found]
  · rename_i found
    by_cases same : other = key
    · subst same
      simp [peek, add]
    · simp only [same, found, if_true, if_false]
      exact AList.lookup_insert_ne same

theorem peek_put_of_room {cache : LruCache κ ν} (key : κ) (value : ν)
    (room : cache.peek key = none → cache.size < cache.cap) (other : κ) :
    (cache.put key value).2.peek other = if other = key then some value else cache.peek other := by
  rw [peek_put]
  split
  · rfl
  · split
    · rename_i absent
      rw [makeRoom_of_lt (room absent)]
    · rfl

@[simp] theorem pop_fst (cache : LruCache κ ν) (key : κ) : (cache.pop key).1 = cache.peek key := rfl

@[simp] theorem cap_pop (cache : LruCache κ ν) (key : κ) : (cache.pop key).2.cap = cache.cap := rfl

theorem size_pop (cache : LruCache κ ν) (key : κ) :
    (cache.pop key).2.size = if cache.peek key = none then cache.size else cache.size - 1 := by
  have isSize : (cache.pop key).2.size = (cache.table.keys.erase key).length := by
    rw [size_eq_keys, pop, AList.keys_erase]
  rw [isSize, size_eq_keys]
  split
  · rename_i absent
    rw [List.erase_of_not_mem (peek_eq_none_iff.mp absent)]
  · rename_i present
    exact List.length_erase_of_mem (peek_isSome_iff.mp (Option.isSome_iff_ne_none.mpr present))

theorem peek_pop (cache : LruCache κ ν) (key other : κ) :
    (cache.pop key).2.peek other = if other = key then none else cache.peek other := by
  by_cases same : other = key
  · subst same
    simp [peek, pop]
  · simp [peek, pop, same, AList.lookup_erase_ne same]

end LruCache

end Data
