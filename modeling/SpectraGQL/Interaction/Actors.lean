import Mathlib.Logic.Function.Basic
import Mathlib.Tactic.Common

/-! # Actors over a shared state

Any number of actors, each with a state of its own, take turns on one shared state.  Unlike a
thread of a pool an actor is no program that is known in advance but a transition function, so it
may loop for as long as the shared state makes it.  What the function leaves open, how much of a
buffer a call moves, or whether it fails, is a choice.

`ReachesBy` is a run whose steps all meet a condition.  That an actor takes no step before it
begins and none after it ends is read off its own states (`not_before`, `not_after`).
-/

namespace Interaction

/-- What an actor does in a state of its own: the action, and both states after it. -/
structure Actors (ι χ σ τ α : Type) where
  next : ι → χ → σ → τ → Option (α × σ × τ)

namespace Actors

variable {ι χ σ τ α : Type}

/-- The shared state, the actors' own states, and the actions that led to them. -/
structure Config (ι σ τ α : Type) where
  shared : σ
  own : ι → τ
  history : List (ι × α)

def Config.initial (shared : σ) (own : τ) : Config ι σ τ α := ⟨shared, fun _ => own, []⟩

variable [DecidableEq ι]

def Config.act (config : Config ι σ τ α) (actor : ι) (result : α × σ × τ) : Config ι σ τ α :=
  ⟨result.2.1, Function.update config.own actor result.2.2, config.history ++ [(actor, result.1)]⟩

section Act

variable (config : Config ι σ τ α) (actor : ι) (result : α × σ × τ)

@[simp] theorem Config.act_shared : (config.act actor result).shared = result.2.1 := rfl

@[simp] theorem Config.act_history :
    (config.act actor result).history = config.history ++ [(actor, result.1)] := rfl

@[simp] theorem Config.act_own_self : (config.act actor result).own actor = result.2.2 := by
  simp [Config.act]

@[simp] theorem Config.act_own_of_ne {other : ι} (different : other ≠ actor) :
    (config.act actor result).own other = config.own other := by
  simp [Config.act, different]

end Act

variable (actors : Actors ι χ σ τ α)

/-- The configurations of the runs whose steps are all `ok`. -/
inductive ReachesBy (ok : Config ι σ τ α → ι → α → Prop) (start : Config ι σ τ α) :
    Config ι σ τ α → Prop where
  | start : ReachesBy ok start start
  | step {config : Config ι σ τ α} {actor : ι} {choice : χ} {result : α × σ × τ}
      (earlier : ReachesBy ok start config)
      (moves : actors.next actor choice config.shared (config.own actor) = some result)
      (isOk : ok config actor result.1) : ReachesBy ok start (config.act actor result)

/-- Any run. -/
abbrev Reaches (start config : Config ι σ τ α) : Prop := actors.ReachesBy (fun _ _ _ => True) start config

variable {actors} {ok : Config ι σ τ α → ι → α → Prop} {shared : σ} {begin : τ} {config : Config ι σ τ α}

/-- What one step keeps, a run keeps. -/
theorem ReachesBy.invariant {start : Config ι σ τ α} {inv : Config ι σ τ α → Prop}
    (reaches : actors.ReachesBy ok start config) (initially : inv start)
    (keeps : ∀ config actor choice result, inv config →
      actors.next actor choice config.shared (config.own actor) = some result → ok config actor result.1 →
        inv (config.act actor result)) : inv config := by
  induction reaches with
  | start => exact initially
  | step _ moves isOk inductionHypothesis => exact keeps _ _ _ _ inductionHypothesis moves isOk

/-- An actor that is still where it begins has done nothing. -/
theorem ReachesBy.no_event (reaches : actors.ReachesBy ok (.initial shared begin) config)
    (leaves : ∀ actor choice shared own result, actors.next actor choice shared own = some result →
      result.2.2 ≠ begin) {actor : ι} (waits : config.own actor = begin) :
    ∀ event ∈ config.history, event.1 ≠ actor := by
  induction reaches with
  | start => exact fun event member => absurd member List.not_mem_nil
  | @step config mover choice result earlier moves isOk inductionHypothesis =>
    intro event member
    by_cases mine : actor = mover
    · subst mine
      rw [Config.act_own_self] at waits
      exact absurd waits (leaves _ _ _ _ _ moves)
    · rw [Config.act_own_of_ne _ _ _ mine] at waits
      rw [Config.act_history] at member
      cases List.mem_append.mp member with
      | inl earlier => exact inductionHypothesis waits event earlier
      | inr last =>
        rw [List.mem_singleton.mp last]
        exact Ne.symm mine

/-- Before the action with which an actor begins it does nothing. -/
theorem ReachesBy.not_before (reaches : actors.ReachesBy ok (.initial shared begin) config)
    (leaves : ∀ actor choice shared own result, actors.next actor choice shared own = some result →
      result.2.2 ≠ begin)
    (first : α → Prop) (begins : ∀ actor choice shared own result,
      actors.next actor choice shared own = some result → first result.1 → own = begin)
    {past rest : List (ι × α)} {actor : ι} {action : α} (split : config.history = past ++ (actor, action) :: rest)
    (isFirst : first action) : ∀ event ∈ past, event.1 ≠ actor := by
  induction reaches generalizing rest with
  | start => simp [Config.initial] at split
  | @step config mover choice result earlier moves isOk inductionHypothesis =>
    rw [Config.act_history] at split
    rcases List.eq_nil_or_concat rest with rfl | ⟨front, last, rfl⟩
    · -- the action is the last one
      obtain ⟨same, isLast⟩ := List.append_inj' split rfl
      obtain ⟨rfl, rfl⟩ : mover = actor ∧ result.1 = action := by simpa using isLast
      rw [← same]
      exact earlier.no_event leaves (begins _ _ _ _ _ moves isFirst)
    · rw [List.concat_eq_append, ← List.cons_append, ← List.append_assoc] at split
      exact inductionHypothesis (List.append_inj_left' split rfl)

/-- After the action with which it ends it does nothing. -/
theorem ReachesBy.not_after (reaches : actors.ReachesBy ok (.initial shared begin) config)
    (last : α → Prop) (ended : τ → Prop)
    (ends : ∀ actor choice shared own result,
      actors.next actor choice shared own = some result → last result.1 → ended result.2.2)
    (stays : ∀ actor choice shared own, ended own → actors.next actor choice shared own = none)
    {past rest : List (ι × α)} {actor : ι} {action : α} (split : config.history = past ++ (actor, action) :: rest)
    (isLast : last action) : ended (config.own actor) ∧ ∀ event ∈ rest, event.1 ≠ actor := by
  induction reaches generalizing rest with
  | start => simp [Config.initial] at split
  | @step config mover choice result earlier moves isOk inductionHypothesis =>
    rw [Config.act_history] at split
    rcases List.eq_nil_or_concat rest with rfl | ⟨front, event, rfl⟩
    · obtain ⟨_, same⟩ := List.append_inj' split rfl
      obtain ⟨rfl, rfl⟩ : mover = actor ∧ result.1 = action := by simpa using same
      rw [Config.act_own_self]
      exact ⟨ends _ _ _ _ _ moves isLast, fun event member => absurd member List.not_mem_nil⟩
    · rw [List.concat_eq_append, ← List.cons_append, ← List.append_assoc] at split
      obtain ⟨isOver, nothing⟩ := inductionHypothesis (List.append_inj_left' split rfl)
      obtain ⟨_, isEvent⟩ := List.append_inj' split rfl
      have different : actor ≠ mover := by
        rintro rfl
        rw [stays _ _ _ _ isOver] at moves
        cases moves
      rw [Config.act_own_of_ne _ _ _ different]
      refine ⟨isOver, fun other member => ?_⟩
      rw [List.concat_eq_append] at member
      cases List.mem_append.mp member with
      | inl earlier => exact nothing other earlier
      | inr isLast =>
        rw [List.mem_singleton.mp isLast, ← List.singleton_inj.mp isEvent]
        exact Ne.symm different

/-! ## Schedules -/

variable (actors)

/-- Run a schedule, as long as every step passes a check. -/
def run (check : Config ι σ τ α → ι → α → Bool) : List (ι × χ) → Config ι σ τ α → Option (Config ι σ τ α)
  | [], config => some config
  | (actor, choice) :: rest, config =>
    (actors.next actor choice config.shared (config.own actor)).bind fun result =>
      if check config actor result.1 then run check rest (config.act actor result) else none

variable {actors}

theorem run_reachesBy {check : Config ι σ τ α → ι → α → Bool} {start config' : Config ι σ τ α}
    (checked : ∀ config actor action, check config actor action = true → ok config actor action)
    (schedule : List (ι × χ)) (reaches : actors.ReachesBy ok start config)
    (runs : actors.run check schedule config = some config') : actors.ReachesBy ok start config' := by
  induction schedule generalizing config with
  | nil =>
    cases runs
    exact reaches
  | cons turn rest inductionHypothesis =>
    obtain ⟨result, moves, later⟩ := Option.bind_eq_some_iff.mp runs
    split at later
    · rename_i passes
      exact inductionHypothesis (.step reaches moves (checked _ _ _ passes)) later
    · cases later

end Actors

end Interaction
