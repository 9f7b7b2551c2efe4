import Mathlib.Data.List.AList
import Mathlib.Data.String.Basic
import Mathlib.Data.List.Induction
import Mathlib.Data.List.Sort
import Mathlib.Tactic.Common

/-! # A store that is written key by key

Every write touches the entry of one key, and the whole store may be cleared.  What is stored under a
key then depends on the events of that key since the store was last cleared, and on nothing else
(`lookup_run`).

Whoever reads the whole store meets the entries in no particular order; sorted by key they are the
same whatever that order was (`mem_listing`, `sorted_listing`).
-/

namespace Data

variable {κ ν ε β : Type} [DecidableEq κ]

inductive StoreOp (κ ε : Type) where
  | touch (key : κ) (event : ε)
  | clear

namespace KeyedStore

section Writes

variable (update : κ → Option ν → ε → ν)

/-- What a write makes of the store; `update` is given the entry of the key, if there is one. -/
def apply (table : AList fun _ : κ => ν) : StoreOp κ ε → AList fun _ : κ => ν
  | .touch key event => table.insert key (update key (table.lookup key) event)
  | .clear => ∅

def run (table : AList fun _ : κ => ν) (ops : List (StoreOp κ ε)) : AList fun _ : κ => ν :=
  ops.foldl (apply update) table

/-- The events of a key since the last clear, after one more write. -/
def record (key : κ) (events : List ε) : StoreOp κ ε → List ε
  | .touch touched event => if touched = key then events ++ [event] else events
  | .clear => []

def since (key : κ) (ops : List (StoreOp κ ε)) : List ε := ops.foldl (record key) []

@[simp] theorem since_nil (key : κ) : since key ([] : List (StoreOp κ ε)) = [] := rfl

theorem since_append (key : κ) (ops : List (StoreOp κ ε)) (op : StoreOp κ ε) :
    since key (ops ++ [op]) = record key (since key ops) op := by
  simp [since]

@[simp] theorem run_nil (table : AList fun _ : κ => ν) : run update table [] = table := rfl

theorem run_append (table : AList fun _ : κ => ν) (ops : List (StoreOp κ ε)) (op : StoreOp κ ε) :
    run update table (ops ++ [op]) = apply update (run update table ops) op := by
  simp [run]

/-- The entry of a key is what its own events since the last clear have made of it. -/
theorem lookup_run (key : κ) (ops : List (StoreOp κ ε)) :
    (run update ∅ ops).lookup key =
      (since key ops).foldl (fun entry event => some (update key entry event)) none := by
  induction ops using List.reverseRecOn with
  | nil => rfl
  | append_singleton ops op inductionHypothesis =>
    rw [run_append, since_append]
    cases op with
    | clear => rfl
    | touch touched event =>
      by_cases same : touched = key
      · subst same
        simp [apply, record, inductionHypothesis]
      · simp [apply, record, same, Ne.symm same, inductionHypothesis]

end Writes

/-! ## Reading everything -/

section Listing

variable [LinearOrder κ] (keyOf : β → κ) (view : κ → ν → Option β)

/-- What a reader shows of every entry, sorted by key. -/
def listing (table : AList fun _ : κ => ν) : List β :=
  (table.entries.filterMap fun entry => view entry.1 entry.2).mergeSort fun left right => keyOf left ≤ keyOf right

variable {keyOf view} {table : AList fun _ : κ => ν}

variable (keyOf view table) in
/-- What is shown of an entry carries its key. -/
def Shows : Prop :=
  ∀ key value shown, table.lookup key = some value → view key value = some shown → keyOf shown = key

theorem mem_listing {shown : β} :
    shown ∈ listing keyOf view table ↔
      ∃ key value, table.lookup key = some value ∧ view key value = some shown := by
  simp only [listing, List.mem_mergeSort, List.mem_filterMap]
  constructor
  · rintro ⟨⟨key, value⟩, member, shows⟩
    exact ⟨key, value, AList.mem_lookup_iff.mpr member, shows⟩
  · rintro ⟨key, value, found, shows⟩
    exact ⟨⟨key, value⟩, AList.mem_lookup_iff.mp found, shows⟩

/-- No key is shown twice. -/
theorem sorted_listing (names : Shows keyOf view table) :
    (listing keyOf view table).Pairwise fun left right => keyOf left < keyOf right := by
  have sorted : (listing keyOf view table).Pairwise fun left right => keyOf left ≤ keyOf right := by
    have sorted := @List.pairwise_mergeSort β (fun left right => decide (keyOf left ≤ keyOf right))
      (fun _ _ _ first second => by simpa using le_trans (of_decide_eq_true first) (of_decide_eq_true second))
      (fun left right => by simpa using le_total (keyOf left) (keyOf right))
      (table.entries.filterMap fun entry => view entry.1 entry.2)
    simpa [listing] using sorted
  have distinct : (listing keyOf view table).Pairwise fun left right => keyOf left ≠ keyOf right := by
    refine ((List.mergeSort_perm _ _).pairwise_iff fun different => Ne.symm different).mpr ?_
    refine List.pairwise_filterMap.mpr (table.nodupKeys.pairwise_ne.imp_of_mem ?_)
    intro first second isFirst isSecond different left shows right shows'
    rw [names _ _ _ (AList.mem_lookup_iff.mpr isFirst) shows, names _ _ _ (AList.mem_lookup_iff.mpr isSecond) shows']
    exact different
  exact (sorted.and distinct).imp fun both => lt_of_le_of_ne both.1 both.2

end Listing

end KeyedStore

end Data
