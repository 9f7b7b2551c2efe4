import SpectraGQL.Interaction.Pool

/-! # Running a pool by a schedule

A schedule lists who moves next, and resolves the choices that the meaning of a call
leaves open.  Running it gives one configuration, and `Scheduler.run_reaches` says that
this configuration is reachable: a concrete run of a pool is checked by evaluation.
-/

namespace Interaction

variable {S : Signature} {ι ε σ α χ : Type}

/-- A move of a schedule: a thread steps, with its choices made, or an event happens. -/
inductive Move (ι ε χ : Type) where
  | thread (thread : ι) (choice : χ)
  | environment (event : ε)

/-- An executable part of a system: some answer to a call for every choice, if there is one. -/
structure Scheduler (system : System S ι ε σ α) (χ : Type) where
  answer : χ → ι → (call : S.Call) → σ → Option (S.Answer call × σ)
  event : ε → σ → Option σ
  answer_sound : ∀ choice thread call before result,
    answer choice thread call before = some result →
    system.meaning thread call before result.1 result.2
  event_sound : ∀ event' before after, event event' before = some after →
    system.environment event' before after

namespace Scheduler

variable [DecidableEq ι] {system : System S ι ε σ α} (scheduler : Scheduler system χ)

def runMove (config : Config S ι ε σ α) : Move ι ε χ → Option (Config S ι ε σ α)
  | .thread thread choice =>
    match config.threads thread with
    | .idle => some
        ⟨Function.update config.threads thread (.running (system.program thread)),
          config.moment.push config.moment.shared (.start thread)⟩
    | .running (.ret value) => some
        ⟨Function.update config.threads thread (.finished value),
          config.moment.push config.moment.shared (.finish thread value)⟩
    | .running (.call request next) =>
      (scheduler.answer choice thread request config.moment.shared).map fun result =>
        ⟨Function.update config.threads thread (.running (next result.1)),
          config.moment.push result.2 (.perform thread ⟨request, result.1⟩)⟩
    | .finished _ => none
  | .environment event =>
    (scheduler.event event config.moment.shared).map fun shared =>
      ⟨config.threads, config.moment.push shared (.environment event)⟩

def run : List (Move ι ε χ) → Config S ι ε σ α → Option (Config S ι ε σ α)
  | [], config => some config
  | move :: rest, config => (scheduler.runMove config move).bind (run rest)

theorem runMove_step {config config' : Config S ι ε σ α} {move : Move ι ε χ}
    (runs : scheduler.runMove config move = some config') :
    ∃ label, system.Step config label config' := by
  cases move with
  | thread thread choice =>
    simp only [runMove] at runs
    split at runs
    · rename_i idle
      cases runs
      exact ⟨_, .start idle⟩
    · rename_i value running
      cases runs
      exact ⟨_, .finish running⟩
    · rename_i request next running
      obtain ⟨result, answered, rfl⟩ := Option.map_eq_some_iff.mp runs
      exact ⟨_, .perform running (scheduler.answer_sound choice thread request _ result answered)⟩
    · cases runs
  | environment event =>
    obtain ⟨shared, happened, rfl⟩ := Option.map_eq_some_iff.mp runs
    exact ⟨_, .environment (scheduler.event_sound event _ shared happened)⟩

theorem run_reaches {shared : σ} (moves : List (Move ι ε χ)) {config config' : Config S ι ε σ α}
    (reaches : system.Reaches shared config) (runs : scheduler.run moves config = some config') :
    system.Reaches shared config' := by
  induction moves generalizing config with
  | nil =>
    cases runs
    exact reaches
  | cons move rest inductionHypothesis =>
    obtain ⟨middle, first, later⟩ := Option.bind_eq_some_iff.mp runs
    obtain ⟨label, step⟩ := scheduler.runMove_step first
    exact inductionHypothesis (.step reaches step) later

/-- Run a schedule as long as every step passes a check. -/
def runWhile (check : Config S ι ε σ α → Config S ι ε σ α → Bool) :
    List (Move ι ε χ) → Config S ι ε σ α → Option (Config S ι ε σ α)
  | [], config => some config
  | move :: rest, config => (scheduler.runMove config move).bind fun config' =>
    if check config config' then runWhile check rest config' else none

theorem runWhile_reachesBy {check : Config S ι ε σ α → Config S ι ε σ α → Bool}
    {ok : Config S ι ε σ α → Label S ι ε α → Config S ι ε σ α → Prop} {shared : σ}
    (checked : ∀ {config config' label}, system.Reaches shared config →
      system.Step config label config' → check config config' = true → ok config label config')
    (moves : List (Move ι ε χ)) {config config' : Config S ι ε σ α}
    (reaches : system.ReachesBy ok shared config)
    (runs : scheduler.runWhile check moves config = some config') :
    system.ReachesBy ok shared config' := by
  induction moves generalizing config with
  | nil =>
    cases runs
    exact reaches
  | cons move rest inductionHypothesis =>
    obtain ⟨middle, first, later⟩ := Option.bind_eq_some_iff.mp runs
    obtain ⟨label, step⟩ := scheduler.runMove_step first
    split at later
    · rename_i passes
      exact inductionHypothesis (.step reaches step (checked reaches.reaches step passes)) later
    · cases later

end Scheduler

end Interaction
