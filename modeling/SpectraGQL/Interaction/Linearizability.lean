import SpectraGQL.Interaction.Pool
import Mathlib.Data.List.Basic

/-! # Linearizability of the histories of a pool

Every thread of a pool stands for one operation call: it is invoked when it starts
and responds when it finishes.  A complete history is linearizable to a sequential
object when its calls can be put in one order that the object itself would answer
in the same way, and that never puts a call before one that had already responded
when it was invoked.

`linearizes_of_points` is the usual way to find the order: choose one step of every
call, its linearization point, and take the calls in the order of these steps.
-/

namespace Interaction

variable {S : Signature} {ι ε σ Op Res State : Type}

/-- A sequential object: operations answer and change the state one after another. -/
structure SeqObject (Op Res State : Type) where
  initial : State
  step : Op → State → Res × State

namespace SeqObject

variable (object : SeqObject Op Res State) (calls : ι → Op)

/-- The state after the calls of `order`, one after another. -/
def after (order : List ι) : State :=
  order.foldl (fun state call => (object.step (calls call) state).2) object.initial

@[simp] theorem after_nil : object.after calls [] = object.initial := rfl

@[simp] theorem after_concat (order : List ι) (call : ι) :
    object.after calls (order ++ [call]) = (object.step (calls call) (object.after calls order)).2 := by
  simp [after]

/-- The answer the object gives to `call` when it is asked right after `order`. -/
def answer (order : List ι) (call : ι) : Res :=
  (object.step (calls call) (object.after calls order)).1

/-- The object answers `value` to `call` in the sequential run `order`. -/
def Answers (order : List ι) (call : ι) (value : Res) : Prop :=
  ∃ earlier later, order = earlier ++ call :: later ∧ value = object.answer calls earlier call

variable {object calls}

theorem Answers.append {order : List ι} {call : ι} {value : Res}
    (answers : object.Answers calls order call value) (more : List ι) :
    object.Answers calls (order ++ more) call value := by
  obtain ⟨earlier, rest, rfl, equal⟩ := answers
  exact ⟨earlier, rest ++ more, by simp, equal⟩

theorem Answers.last (order : List ι) (call : ι) :
    object.Answers calls (order ++ [call]) call (object.answer calls order call) :=
  ⟨order, [], rfl, rfl⟩

theorem Answers.mem {order : List ι} {call : ι} {value : Res}
    (answers : object.Answers calls order call value) : call ∈ order := by
  obtain ⟨earlier, later, rfl, _⟩ := answers
  simp

end SeqObject

/-- Every call that was invoked has responded. -/
def Complete (history : List (Label S ι ε Res)) : Prop :=
  ∀ call, .start call ∈ history → ∃ value, .finish call value ∈ history

/-- `first` had responded when `second` was invoked. -/
def Precedes (history : List (Label S ι ε Res)) (first second : ι) : Prop :=
  ∃ past future value, history = past ++ future ∧ .finish first value ∈ past ∧ .start second ∈ future

/-- `order` is a linearization of a complete history. -/
structure Linearizes (object : SeqObject Op Res State) (calls : ι → Op)
    (history : List (Label S ι ε Res)) (order : List ι) : Prop where
  nodup : order.Nodup
  covers : ∀ call, call ∈ order ↔ ∃ value, .finish call value ∈ history
  legal : ∀ call value, .finish call value ∈ history → object.Answers calls order call value
  realTime : ∀ first second, Precedes history first second → second ∈ order →
    [first, second].Sublist order

/-- In a linearization every call responds as the object answers after the calls before it. -/
theorem Linearizes.value_eq {object : SeqObject Op Res State} {calls : ι → Op}
    {history : List (Label S ι ε Res)} {order earlier later : List ι} {call : ι} {value : Res}
    (linearizes : Linearizes object calls history order) (split : order = earlier ++ call :: later)
    (responds : .finish call value ∈ history) : value = object.answer calls earlier call := by
  obtain ⟨before, rest, split', equal⟩ := linearizes.legal call value responds
  have nodup := linearizes.nodup
  rw [split, List.nodup_append] at nodup
  obtain ⟨_, tailNodup, apart⟩ := nodup
  have notBefore : call ∉ earlier := fun inEarlier => apart call inEarlier call List.mem_cons_self rfl
  have notLater : call ∉ later := (List.nodup_cons.mp tailNodup).1
  rw [split'] at split
  obtain ⟨same, _⟩ := (List.append_cons_inj_of_notMem notBefore notLater).mp split.symm
  rw [equal, same]

/-! ## Linearization points -/

/-- The calls in the order of their linearization points. -/
def pointOrder (point : Label S ι ε Res → Option ι) (history : List (Label S ι ε Res)) : List ι :=
  history.filterMap point

/-- If every call passes its own linearization point exactly once, before it responds,
    and responds as the object answers at that point, then the order of the points
    linearizes every complete history. -/
theorem linearizes_of_points [DecidableEq ι] {system : System S ι ε σ Res} {shared : σ}
    {object : SeqObject Op Res State} {calls : ι → Op} {point : Label S ι ε Res → Option ι}
    (assume : List (Label S ι ε Res) → Prop)
    (own : ∀ label call, point label = some call → label.thread? = some call)
    (assume_past : ∀ past future, assume (past ++ future) → assume past)
    (nodup : ∀ config, system.Reaches shared config → assume config.moment.history →
      (pointOrder point config.moment.history).Nodup)
    (legal : ∀ config, system.Reaches shared config → assume config.moment.history →
      ∀ call value, .finish call value ∈ config.moment.history →
        object.Answers calls (pointOrder point config.moment.history) call value)
    {config : Config S ι ε σ Res} (reaches : system.Reaches shared config)
    (assumed : assume config.moment.history) (complete : Complete config.moment.history) :
    Linearizes object calls config.moment.history (pointOrder point config.moment.history) where
  nodup := nodup config reaches assumed
  legal := legal config reaches assumed
  covers := by
    intro call
    constructor
    · intro member
      obtain ⟨label, inHistory, mine⟩ := List.mem_filterMap.mp member
      exact complete call (reaches.start_mem inHistory (own label call mine))
    · rintro ⟨value, finished⟩
      exact (legal config reaches assumed call value finished).mem
  realTime := by
    rintro first second ⟨past, future, value, split, finished, started⟩ member
    obtain ⟨earlier, reachesEarlier, pastEq⟩ := reaches.past split
    -- the first call has passed its point when it responds
    have firstIn : first ∈ pointOrder point past := by
      have assumedPast := assume_past past future (split ▸ assumed)
      rw [← pastEq] at finished assumedPast ⊢
      exact (legal earlier reachesEarlier assumedPast first value finished).mem
    -- the second has taken no step yet
    have secondNotIn : second ∉ pointOrder point past := by
      intro inPast
      obtain ⟨label, inHistory, mine⟩ := List.mem_filterMap.mp inPast
      obtain ⟨before, rest, rfl⟩ := List.append_of_mem started
      rw [← List.append_assoc] at split
      exact reaches.fresh_before_start split label (List.mem_append_left _ inHistory)
        (own label second mine)
    have orders : pointOrder point config.moment.history =
        pointOrder point past ++ pointOrder point future := by
      rw [split, pointOrder, List.filterMap_append]
      rfl
    rw [orders] at member ⊢
    have secondIn : second ∈ pointOrder point future :=
      (List.mem_append.mp member).resolve_left secondNotIn
    exact List.Sublist.append (List.singleton_sublist.mpr firstIn)
      (List.singleton_sublist.mpr secondIn)

end Interaction
