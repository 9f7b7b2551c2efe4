import SpectraGQL.Interaction.Automaton
import Mathlib.Data.List.Induction

/-! # Invariants over the phases of a pool

Where every program of a pool keeps to one automaton, an invariant may relate the shared state to
the phases that the threads have reached.  It is enough that it survives every call that an
automaton allows: what the programs look like does not matter any more.
-/

namespace Interaction

variable {S : Signature} {ι ε σ τ α : Type} [DecidableEq ι]

def Thread.isFinished : Thread S α → Bool
  | .finished _ => true
  | .idle | .running _ => false

/-- The phases that the threads have reached in a history; each may have a start of its own. -/
def Automaton.phases (automaton : Automaton S τ) (start : ι → τ) (history : List (Label S ι ε α)) : ι → τ :=
  fun thread => automaton.phaseOf (start thread) thread history

section Phases

variable (automaton : Automaton S τ) (start : ι → τ) (history : List (Label S ι ε α))

@[simp] theorem Automaton.phases_nil : automaton.phases start ([] : List (Label S ι ε α)) = start := rfl

theorem Automaton.phases_perform (thread : ι) (event : Event S) :
    automaton.phases start (history ++ [.perform thread event]) =
      Function.update (automaton.phases start history) thread
        (automaton.next (automaton.phases start history thread) event) := by
  funext other
  by_cases same : other = thread
  · subst same
    simp [Automaton.phases, Automaton.follow]
  · simp [Automaton.phases, Automaton.follow, same, Ne.symm same]

theorem Automaton.phases_silent {label : Label S ι ε α} (silent : ∀ thread event, label ≠ .perform thread event) :
    automaton.phases start (history ++ [label]) = automaton.phases start history := by
  funext other
  unfold Automaton.phases
  rw [Automaton.phaseOf_append]
  cases label with
  | perform thread event => exact absurd rfl (silent thread event)
  | start _ | finish _ _ | environment _ => rfl

/-- What holds of a phase, and did not at the start, a call of the thread has brought about. -/
theorem Automaton.phases_turn {automaton : Automaton S τ} {start : ι → τ} {history : List (Label S ι ε α)}
    {thread : ι} (holds : τ → Prop) (notYet : ¬holds (start thread))
    (now : holds (automaton.phases start history thread)) :
    ∃ past event future, history = past ++ .perform thread event :: future ∧
      ¬holds (automaton.phases start past thread) ∧
      holds (automaton.next (automaton.phases start past thread) event) := by
  induction history using List.reverseRecOn with
  | nil => exact absurd now notYet
  | append_singleton history label inductionHypothesis =>
    by_cases before : holds (automaton.phases start history thread)
    · obtain ⟨past, event, future, rfl, turn⟩ := inductionHypothesis before
      exact ⟨past, event, future ++ [label], by simp, turn⟩
    · cases label with
      | start _ | finish _ _ | environment _ =>
        rw [automaton.phases_silent _ _ (by simp)] at now
        exact absurd now before
      | perform performer event =>
        rw [automaton.phases_perform] at now
        by_cases same : thread = performer
        · subst same
          rw [Function.update_self] at now
          exact ⟨history, event, [], rfl, before, now⟩
        · rw [Function.update_of_ne same] at now
          exact absurd now before

end Phases

/-! ## Keeping a record -/

section Recording

variable {δ : Type} (pick : Event S → Option δ)

/-- Any call is allowed, and what `pick` makes of those it knows is written down. -/
def Automaton.recording : Automaton S (List δ) where
  allowed := fun _ _ => True
  possible := fun _ => True
  next := fun acts event => acts ++ (pick event).toList

/-- What a step is of a thread. -/
def Label.select (thread : ι) : Label S ι ε α → Option δ
  | .perform performer event => if performer = thread then pick event else none
  | _ => none

/-- The record of a thread is what its calls in the history were. -/
theorem Automaton.phaseOf_recording (thread : ι) (history : List (Label S ι ε α)) :
    (Automaton.recording pick).phaseOf [] thread history = history.filterMap (Label.select pick thread) := by
  induction history using List.reverseRecOn with
  | nil => rfl
  | append_singleton history label inductionHypothesis =>
    rw [Automaton.phaseOf_append, List.filterMap_append, inductionHypothesis]
    cases label with
    | start _ | finish _ _ | environment _ => exact (List.append_nil _).symm
    | perform performer event =>
      by_cases same : performer = thread
      · simp only [Automaton.follow, same, if_true, Automaton.recording, List.filterMap_cons, Label.select,
          List.filterMap_nil]
        cases pick event <;> rfl
      · simp [Automaton.follow, same, Label.select]

end Recording

/-- The programs of a system keep to an automaton, and its calls answer what the automaton expects. -/
structure System.Follows (system : System S ι ε σ α) (automaton : Automaton S τ) (post : ι → α → τ → Prop)
    (start : ι → τ) : Prop where
  obeys : ∀ thread, (system.program thread).Obeys automaton (post thread) (start thread)
  answers : ∀ {thread call before answer after}, system.meaning thread call before answer after →
    automaton.possible ⟨call, answer⟩

/-- An invariant of the shared state and the phases, kept by whatever the automaton allows in the
    states that are `known` to be reached. -/
structure PhaseInvariant (system : System S ι ε σ α) (automaton : Automaton S τ) (known : σ → Prop)
    (inv : σ → (ι → τ) → Prop) : Prop where
  perform : ∀ {thread call before answer after phases}, known before → inv before phases →
    automaton.allowed (phases thread) call → system.meaning thread call before answer after →
    inv after (Function.update phases thread (automaton.next (phases thread) ⟨call, answer⟩))
  environment : ∀ {event before after phases}, known before → inv before phases →
    system.environment event before after → inv after phases

namespace System.Reaches

variable {system : System S ι ε σ α} {automaton : Automaton S τ} {post : ι → α → τ → Prop} {start : ι → τ}
  {known : σ → Prop} {inv : σ → (ι → τ) → Prop} {shared : σ} {config : Config S ι ε σ α}

/-- The rule: what every allowed call keeps, holds in every configuration. -/
theorem phaseInvariant (reaches : system.Reaches shared config) (follows : system.Follows automaton post start)
    (kept : PhaseInvariant system automaton known inv)
    (isKnown : ∀ {config}, system.Reaches shared config → known config.moment.shared)
    (initially : inv shared start) :
    inv config.moment.shared (automaton.phases start config.moment.history) := by
  induction reaches with
  | initial => exact initially
  | @step config config' label earlier step inductionHypothesis =>
    rw [step.history_eq]
    cases step with
    | start _ | finish _ =>
      rw [automaton.phases_silent _ _ (by simp)]
      exact inductionHypothesis
    | @perform thread request next answer shared running effect =>
      -- the call is the next one of a program that keeps to the automaton
      have allowed := (earlier.obeys (follows.obeys thread) follows.answers running).1
      rw [automaton.phases_perform]
      exact kept.perform (isKnown earlier) inductionHypothesis allowed effect
    | environment effect =>
      rw [automaton.phases_silent _ _ (by simp)]
      exact kept.environment (isKnown earlier) inductionHypothesis effect

end System.Reaches

end Interaction
