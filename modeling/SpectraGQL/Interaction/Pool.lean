import SpectraGQL.Interaction.Prog
import Mathlib.Logic.Function.Basic

/-! # Many programs over one shared state

A pool runs any number of programs against a shared state.  One step starts a
thread, performs the next call of a running thread, lets a finished thread return,
or is an event of the environment.  The history of these steps is part of the
configuration, so that a property may speak about the past of a run.

`Discipline` is a rely–guarantee argument for such a pool: an invariant, what each
thread may rely on between two of its own steps, and what each of its steps
guarantees.  `Discipline.Safe` is the proof obligation for one program, read along
the program's own tree; `Discipline.sound` and `Discipline.guarantees` turn the
obligations of the single programs into facts about every run of the pool.
-/

namespace Interaction

variable {S : Signature} {ι ε σ α β : Type}

/-- One step of a pool, as an observer of the run sees it. -/
inductive Label (S : Signature) (ι ε α : Type) where
  | start (thread : ι)
  | perform (thread : ι) (event : Event S)
  | finish (thread : ι) (value : α)
  | environment (event : ε)

/-- The thread that takes a step; the environment's steps belong to none. -/
def Label.thread? : Label S ι ε α → Option ι
  | .start thread => some thread
  | .perform thread _ => some thread
  | .finish thread _ => some thread
  | .environment _ => none

inductive Thread (S : Signature) (α : Type) where
  | idle
  | running (program : Prog S α)
  | finished (value : α)

/-- The programs of a pool, the meaning of a call made by each thread, and the
    events of the environment. -/
structure System (S : Signature) (ι ε σ α : Type) where
  program : ι → Prog S α
  meaning : ι → Semantics S σ
  environment : ε → σ → σ → Prop

/-- The shared state together with the steps that led to it. -/
structure Moment (S : Signature) (ι ε σ α : Type) where
  shared : σ
  history : List (Label S ι ε α)

/-- The moment after one more step, which left the state `shared`. -/
def Moment.push (moment : Moment S ι ε σ α) (shared : σ) (label : Label S ι ε α) :
    Moment S ι ε σ α :=
  ⟨shared, moment.history ++ [label]⟩

@[simp] theorem Moment.push_shared (moment : Moment S ι ε σ α) (shared : σ) (label : Label S ι ε α) :
    (moment.push shared label).shared = shared := rfl

@[simp] theorem Moment.push_history (moment : Moment S ι ε σ α) (shared : σ)
    (label : Label S ι ε α) : (moment.push shared label).history = moment.history ++ [label] := rfl

structure Config (S : Signature) (ι ε σ α : Type) where
  threads : ι → Thread S α
  moment : Moment S ι ε σ α

namespace System

variable [DecidableEq ι]

/-- The configuration before any step. -/
def initial (shared : σ) : Config S ι ε σ α := ⟨fun _ => .idle, ⟨shared, []⟩⟩

inductive Step (system : System S ι ε σ α) :
    Config S ι ε σ α → Label S ι ε α → Config S ι ε σ α → Prop where
  | start {config : Config S ι ε σ α} {thread : ι} (idle : config.threads thread = .idle) :
      Step system config (.start thread)
        ⟨Function.update config.threads thread (.running (system.program thread)),
          config.moment.push config.moment.shared (.start thread)⟩
  | perform {config : Config S ι ε σ α} {thread : ι} {request : S.Call}
      {next : S.Answer request → Prog S α} {answer : S.Answer request} {shared : σ}
      (running : config.threads thread = .running (.call request next))
      (effect : system.meaning thread request config.moment.shared answer shared) :
      Step system config (.perform thread ⟨request, answer⟩)
        ⟨Function.update config.threads thread (.running (next answer)),
          config.moment.push shared (.perform thread ⟨request, answer⟩)⟩
  | finish {config : Config S ι ε σ α} {thread : ι} {value : α}
      (running : config.threads thread = .running (.ret value)) :
      Step system config (.finish thread value)
        ⟨Function.update config.threads thread (.finished value),
          config.moment.push config.moment.shared (.finish thread value)⟩
  | environment {config : Config S ι ε σ α} {event : ε} {shared : σ}
      (effect : system.environment event config.moment.shared shared) :
      Step system config (.environment event)
        ⟨config.threads, config.moment.push shared (.environment event)⟩

/-- The configurations that some run from `shared` leads to. -/
inductive Reaches (system : System S ι ε σ α) (shared : σ) : Config S ι ε σ α → Prop where
  | initial : Reaches system shared (System.initial shared)
  | step {config config' : Config S ι ε σ α} {label : Label S ι ε α}
      (earlier : Reaches system shared config) (step : system.Step config label config') :
      Reaches system shared config'

/-- The configurations of the runs all of whose steps are `ok`. -/
inductive ReachesBy (system : System S ι ε σ α)
    (ok : Config S ι ε σ α → Label S ι ε α → Config S ι ε σ α → Prop) (shared : σ) :
    Config S ι ε σ α → Prop where
  | initial : ReachesBy system ok shared (System.initial shared)
  | step {config config' : Config S ι ε σ α} {label : Label S ι ε α}
      (earlier : ReachesBy system ok shared config) (step : system.Step config label config')
      (isOk : ok config label config') : ReachesBy system ok shared config'

theorem ReachesBy.reaches {system : System S ι ε σ α}
    {ok : Config S ι ε σ α → Label S ι ε α → Config S ι ε σ α → Prop} {shared : σ}
    {config : Config S ι ε σ α} (reaches : system.ReachesBy ok shared config) :
    system.Reaches shared config := by
  induction reaches with
  | initial => exact .initial
  | step _ step _ inductionHypothesis => exact .step inductionHypothesis step

/-- A step concerns its own thread only. -/
theorem Step.threads_eq {system : System S ι ε σ α} {config config' : Config S ι ε σ α}
    {label : Label S ι ε α} {thread : ι} (step : system.Step config label config')
    (other : label.thread? ≠ some thread) : config'.threads thread = config.threads thread := by
  cases step with
  | environment _ => rfl
  | start _ | perform _ _ | finish _ =>
    simp only [Label.thread?, ne_eq, Option.some.injEq] at other
    exact Function.update_of_ne (Ne.symm other) _ _

/-- The thread that takes a step is not idle afterwards. -/
theorem Step.active {system : System S ι ε σ α} {config config' : Config S ι ε σ α}
    {label : Label S ι ε α} {thread : ι} (step : system.Step config label config')
    (mine : label.thread? = some thread) : config'.threads thread ≠ .idle := by
  cases step with
  | environment _ => simp [Label.thread?] at mine
  | start _ | perform _ _ | finish _ =>
    simp only [Label.thread?, Option.some.injEq] at mine
    subst mine
    simp

theorem Step.history_eq {system : System S ι ε σ α} {config config' : Config S ι ε σ α}
    {label : Label S ι ε α} (step : system.Step config label config') :
    config'.moment.history = config.moment.history ++ [label] := by
  cases step <;> rfl

end System

/-- No step of `thread` has been taken yet. -/
def Fresh (thread : ι) (history : List (Label S ι ε α)) : Prop :=
  ∀ label ∈ history, label.thread? ≠ some thread

theorem Fresh.push {thread : ι} {history : List (Label S ι ε α)} {label : Label S ι ε α}
    (fresh : Fresh thread history) (other : label.thread? ≠ some thread) :
    Fresh thread (history ++ [label]) := by
  intro step member
  rcases List.mem_append.mp member with earlier | last
  · exact fresh step earlier
  · rw [List.mem_singleton.mp last]
    exact other

namespace System.Reaches

variable [DecidableEq ι] {system : System S ι ε σ α} {shared : σ} {config : Config S ι ε σ α}

/-- An idle thread has taken no step. -/
theorem fresh_of_idle (reaches : system.Reaches shared config) {thread : ι}
    (idle : config.threads thread = .idle) : Fresh thread config.moment.history := by
  induction reaches with
  | initial => exact fun label member => absurd member List.not_mem_nil
  | @step config config' label earlier step inductionHypothesis =>
    by_cases mine : label.thread? = some thread
    · exact absurd idle (step.active mine)
    · rw [step.history_eq]
      exact (inductionHypothesis ((step.threads_eq mine).symm.trans idle)).push mine

/-- A thread that is not idle has been started. -/
theorem start_mem_of_active (reaches : system.Reaches shared config) {thread : ι}
    (active : config.threads thread ≠ .idle) : .start thread ∈ config.moment.history := by
  induction reaches with
  | initial => exact absurd rfl active
  | @step config config' label earlier step inductionHypothesis =>
    rw [step.history_eq]
    by_cases idle : config.threads thread = .idle
    · -- only a start step wakes an idle thread
      have mine : label.thread? = some thread := by
        by_contra other
        exact active ((step.threads_eq other).trans idle)
      cases step with
      | start _ => simp_all [Label.thread?]
      | perform running _ => simp_all [Label.thread?]
      | finish running => simp_all [Label.thread?]
      | environment _ => simp [Label.thread?] at mine
    · exact List.mem_append_left _ (inductionHypothesis idle)

/-- Every step in a history is preceded by the start of its thread. -/
theorem start_mem (reaches : system.Reaches shared config) {thread : ι} {label : Label S ι ε α}
    (member : label ∈ config.moment.history) (mine : label.thread? = some thread) :
    .start thread ∈ config.moment.history :=
  start_mem_of_active reaches fun idle => fresh_of_idle reaches idle label member mine

/-- Every earlier part of a history is the history of an earlier configuration. -/
theorem past (reaches : system.Reaches shared config) {past future : List (Label S ι ε α)}
    (split : config.moment.history = past ++ future) :
    ∃ earlier, system.Reaches shared earlier ∧ earlier.moment.history = past := by
  induction reaches generalizing future with
  | initial => exact ⟨_, .initial, (List.append_eq_nil_iff.mp split.symm).1.symm⟩
  | @step config config' label earlier step inductionHypothesis =>
    rcases List.eq_nil_or_concat future with rfl | ⟨front, last, rfl⟩
    · exact ⟨config', .step earlier step, by simpa using split⟩
    · rw [step.history_eq, List.concat_eq_append, ← List.append_assoc] at split
      exact inductionHypothesis (List.append_inj_left' split rfl)

/-- Every label of a history is that of a step which was taken when the history was as long. -/
theorem step_at (reaches : system.Reaches shared config) {past future : List (Label S ι ε α)}
    {label : Label S ι ε α} (split : config.moment.history = past ++ label :: future) :
    ∃ before after, system.Reaches shared before ∧ before.moment.history = past ∧
      system.Step before label after := by
  have taken : config.moment.history = (past ++ [label]) ++ future := by simpa using split
  obtain ⟨after, reached, history⟩ := reaches.past taken
  cases reached with
  | initial => simp [System.initial] at history
  | @step before _ last earlier step =>
    rw [step.history_eq] at history
    obtain ⟨same, isLast⟩ := List.append_inj' history rfl
    cases isLast
    exact ⟨before, after, earlier, same, step⟩

/-- Before its start a thread has taken no step. -/
theorem fresh_before_start (reaches : system.Reaches shared config) {thread : ι}
    {past future : List (Label S ι ε α)}
    (split : config.moment.history = past ++ .start thread :: future) : Fresh thread past := by
  induction reaches generalizing future with
  | initial => simp [System.initial] at split
  | @step config config' label earlier step inductionHypothesis =>
    rw [step.history_eq] at split
    rcases List.eq_nil_or_concat future with rfl | ⟨front, last, rfl⟩
    · obtain ⟨history, started⟩ := List.append_inj' split rfl
      simp only [List.cons.injEq, and_true] at started
      subst started
      cases step with
      | start idle => exact history ▸ fresh_of_idle earlier idle
    · rw [List.concat_eq_append, ← List.cons_append, ← List.append_assoc] at split
      exact inductionHypothesis (List.append_inj_left' split rfl)

end System.Reaches

/-! ## Rely and guarantee -/

/-- A rely–guarantee argument for a system.  `assume` restricts the runs it speaks
    about, through their history. -/
structure Discipline (system : System S ι ε σ α) where
  assume : List (Label S ι ε α) → Prop
  inv : Moment S ι ε σ α → Prop
  rely : ι → Moment S ι ε σ α → Moment S ι ε σ α → Prop
  guar : ι → Event S → Moment S ι ε σ α → Moment S ι ε σ α → Prop
  post : ι → α → Moment S ι ε σ α → Prop
  assume_init : ∀ {history label}, assume (history ++ [label]) → assume history
  rely_refl : ∀ thread moment, rely thread moment moment
  rely_trans : ∀ {thread first second third},
    rely thread first second → rely thread second third → rely thread first third
  inv_perform : ∀ {thread event before after},
    inv before → guar thread event before after → inv after
  rely_perform : ∀ {thread other event before after},
    inv before → guar thread event before after → other ≠ thread → rely other before after
  inv_start : ∀ {thread moment}, inv moment → Fresh thread moment.history →
    inv (moment.push moment.shared (.start thread))
  rely_start : ∀ {thread other moment}, other ≠ thread →
    rely other moment (moment.push moment.shared (.start thread))
  inv_finish : ∀ {thread value moment}, inv moment → post thread value moment →
    inv (moment.push moment.shared (.finish thread value))
  rely_finish : ∀ {thread value moment} (other : ι), post thread value moment →
    rely other moment (moment.push moment.shared (.finish thread value))
  inv_environment : ∀ {event moment shared}, inv moment →
    system.environment event moment.shared shared →
    assume (moment.history ++ [.environment event]) → inv (moment.push shared (.environment event))
  rely_environment : ∀ {event moment shared} (thread : ι), inv moment →
    system.environment event moment.shared shared →
    assume (moment.history ++ [.environment event]) →
    rely thread moment (moment.push shared (.environment event))
  post_stable : ∀ {thread value before after},
    post thread value before → rely thread before after → inv after → post thread value after

namespace Discipline

variable {system : System S ι ε σ α} (discipline : Discipline system)

/-- The obligation for a program run by `thread`: whatever the other threads did
    meanwhile, its next call keeps the guarantee, and so on along the program; when
    it returns, `post` holds. -/
def Safe (thread : ι) (post : β → Moment S ι ε σ α → Prop) :
    Prog S β → Moment S ι ε σ α → Prop
  | .ret value, moment =>
    ∀ now, discipline.rely thread moment now → discipline.inv now → post value now
  | .call request next, moment =>
    ∀ now, discipline.rely thread moment now → discipline.inv now →
      ∀ answer shared, system.meaning thread request now.shared answer shared →
        discipline.assume (now.history ++ [.perform thread ⟨request, answer⟩]) →
        discipline.guar thread ⟨request, answer⟩ now
            (now.push shared (.perform thread ⟨request, answer⟩)) ∧
          Safe thread post (next answer) (now.push shared (.perform thread ⟨request, answer⟩))

variable {discipline} {thread : ι} {post : β → Moment S ι ε σ α → Prop}

/-- Interference by the others does not touch an obligation. -/
theorem Safe.stable {program : Prog S β} {before after : Moment S ι ε σ α}
    (safe : discipline.Safe thread post program before)
    (rely : discipline.rely thread before after) :
    discipline.Safe thread post program after := by
  cases program with
  | ret value => exact fun now later => safe now (discipline.rely_trans rely later)
  | call request next => exact fun now later => safe now (discipline.rely_trans rely later)

/-- An obligation may be proved after letting the others run first. -/
theorem safe_of_later {program : Prog S β} {moment : Moment S ι ε σ α}
    (safe : ∀ now, discipline.rely thread moment now → discipline.inv now →
      discipline.Safe thread post program now) :
    discipline.Safe thread post program moment := by
  cases program with
  | ret value =>
    intro now later inv
    exact safe now later inv now (discipline.rely_refl thread now) inv
  | call request next =>
    intro now later inv
    exact safe now later inv now (discipline.rely_refl thread now) inv

/-- The rule for a single call, with a postcondition that the others leave alone. -/
theorem Safe.perform {request : S.Call} {post : S.Answer request → Moment S ι ε σ α → Prop}
    {moment : Moment S ι ε σ α}
    (stable : ∀ answer before after, post answer before → discipline.rely thread before after →
      post answer after)
    (step : ∀ now, discipline.rely thread moment now → discipline.inv now → ∀ answer shared,
      system.meaning thread request now.shared answer shared →
      discipline.assume (now.history ++ [.perform thread ⟨request, answer⟩]) →
      discipline.guar thread ⟨request, answer⟩ now
          (now.push shared (.perform thread ⟨request, answer⟩)) ∧
        post answer (now.push shared (.perform thread ⟨request, answer⟩))) :
    discipline.Safe thread post (Prog.perform request) moment := by
  intro now later inv answer shared effect assumed
  obtain ⟨guarantee, holds⟩ := step now later inv answer shared effect assumed
  exact ⟨guarantee, fun after rely _ => stable answer _ after holds rely⟩

/-- A program that returns at once. -/
theorem Safe.ret {value : β} {moment : Moment S ι ε σ α}
    (stable : ∀ after, discipline.rely thread moment after → discipline.inv after →
      post value after) :
    discipline.Safe thread post (.ret value) moment :=
  stable

theorem Safe.mono {weaker : β → Moment S ι ε σ α → Prop} {program : Prog S β}
    {moment : Moment S ι ε σ α} (safe : discipline.Safe thread post program moment)
    (implies : ∀ value now, post value now → weaker value now) :
    discipline.Safe thread weaker program moment := by
  induction program generalizing moment with
  | ret value => exact fun now later inv => implies value now (safe now later inv)
  | call request next inductionHypothesis =>
    intro now later inv answer shared effect assumed
    obtain ⟨guarantee, rest⟩ := safe now later inv answer shared effect assumed
    exact ⟨guarantee, inductionHypothesis answer rest⟩

theorem Safe.bind {γ : Type} {final : γ → Moment S ι ε σ α → Prop} {program : Prog S β}
    {next : β → Prog S γ} {moment : Moment S ι ε σ α}
    (first : discipline.Safe thread post program moment)
    (second : ∀ value now, discipline.inv now → post value now →
      discipline.Safe thread final (next value) now) :
    discipline.Safe thread final (program >>= next) moment := by
  induction program generalizing moment with
  | ret value =>
    apply safe_of_later
    intro now later inv
    exact second value now inv (first now later inv)
  | call request rest inductionHypothesis =>
    intro now later inv answer shared effect assumed
    obtain ⟨guarantee, safe⟩ := first now later inv answer shared effect assumed
    exact ⟨guarantee, inductionHypothesis answer safe⟩

/-- What is known of a thread in a reachable configuration. -/
def ThreadOk (discipline : Discipline system) (moment : Moment S ι ε σ α) (thread : ι) :
    Thread S α → Prop
  | .idle => Fresh thread moment.history
  | .running program => discipline.Safe thread (discipline.post thread) program moment
  | .finished value => discipline.post thread value moment

theorem ThreadOk.stable {state : Thread S α} {before after : Moment S ι ε σ α}
    {label : Label S ι ε α} (ok : discipline.ThreadOk before thread state)
    (history : after.history = before.history ++ [label]) (other : label.thread? ≠ some thread)
    (rely : discipline.rely thread before after) (inv : discipline.inv after) :
    discipline.ThreadOk after thread state := by
  cases state with
  | idle =>
    simp only [ThreadOk, history]
    exact Fresh.push ok other
  | running program => exact Safe.stable ok rely
  | finished value => exact discipline.post_stable ok rely inv

variable [DecidableEq ι]

/-- A step of one thread leaves the others what they know. -/
theorem ThreadOk.update {threads : ι → Thread S α} {state : Thread S α}
    {before after : Moment S ι ε σ α} {label : Label S ι ε α}
    (ok : ∀ other, discipline.ThreadOk before other (threads other))
    (history : after.history = before.history ++ [label]) (isOwn : label.thread? = some thread)
    (own : discipline.ThreadOk after thread state)
    (rely : ∀ other, other ≠ thread → discipline.rely other before after)
    (inv : discipline.inv after) (other : ι) :
    discipline.ThreadOk after other (Function.update threads thread state other) := by
  by_cases same : other = thread
  · subst same
    rw [Function.update_self]
    exact own
  · rw [Function.update_of_ne same]
    have notOwn : label.thread? ≠ some other := by
      rw [isOwn]
      exact fun isOther => same (Option.some.inj isOther).symm
    exact (ok other).stable history notOwn (rely other same) inv

/-- The rely–guarantee rule: if every program meets its obligation when it starts,
    the invariant holds in every configuration of every assumed run, and every
    thread is still meeting its obligation there. -/
theorem sound (discipline : Discipline system) {shared : σ}
    (inv_initial : discipline.inv ⟨shared, []⟩)
    (safe : ∀ thread moment, discipline.inv moment → Fresh thread moment.history →
      discipline.Safe thread (discipline.post thread) (system.program thread)
        (moment.push moment.shared (.start thread)))
    {config : Config S ι ε σ α} (reaches : system.Reaches shared config)
    (assumed : discipline.assume config.moment.history) :
    discipline.inv config.moment ∧
      ∀ thread, discipline.ThreadOk config.moment thread (config.threads thread) := by
  induction reaches with
  | initial => exact ⟨inv_initial, fun thread label member => absurd member List.not_mem_nil⟩
  | @step config config' label earlier step inductionHypothesis =>
    rw [step.history_eq] at assumed
    obtain ⟨inv, threads⟩ := inductionHypothesis (discipline.assume_init assumed)
    cases step with
    | @start thread idle =>
      have fresh : Fresh thread config.moment.history := by simpa [idle, ThreadOk] using threads thread
      have started := discipline.inv_start inv fresh
      exact ⟨started, ThreadOk.update threads rfl rfl (safe thread config.moment inv fresh)
        (fun _ different => discipline.rely_start different) started⟩
    | @perform thread request next answer shared running effect =>
      have obligation := threads thread
      rw [running] at obligation
      obtain ⟨guarantee, rest⟩ := obligation config.moment (discipline.rely_refl _ _) inv
        answer shared effect assumed
      have performed := discipline.inv_perform inv guarantee
      exact ⟨performed, ThreadOk.update threads rfl rfl rest
        (fun _ different => discipline.rely_perform inv guarantee different) performed⟩
    | @finish thread value running =>
      have obligation := threads thread
      rw [running] at obligation
      have post := obligation config.moment (discipline.rely_refl _ _) inv
      have finished := discipline.inv_finish inv post
      -- finishing is a step that its own postcondition has to survive as well
      have kept := discipline.post_stable post (discipline.rely_finish thread post) finished
      exact ⟨finished, ThreadOk.update threads rfl rfl kept
        (fun other _ => discipline.rely_finish other post) finished⟩
    | @environment event shared effect =>
      refine ⟨discipline.inv_environment inv effect assumed, fun other => ?_⟩
      exact (threads other).stable rfl (by simp [Label.thread?])
        (discipline.rely_environment other inv effect assumed)
        (discipline.inv_environment inv effect assumed)

/-- Every call performed in an assumed run keeps the guarantee of its thread. -/
theorem guarantees (discipline : Discipline system) {shared : σ}
    (inv_initial : discipline.inv ⟨shared, []⟩)
    (safe : ∀ thread moment, discipline.inv moment → Fresh thread moment.history →
      discipline.Safe thread (discipline.post thread) (system.program thread)
        (moment.push moment.shared (.start thread)))
    {config config' : Config S ι ε σ α} {thread : ι} {event : Event S}
    (reaches : system.Reaches shared config)
    (step : system.Step config (.perform thread event) config')
    (assumed : discipline.assume config'.moment.history) :
    discipline.guar thread event config.moment config'.moment := by
  rw [step.history_eq] at assumed
  obtain ⟨inv, threads⟩ := discipline.sound inv_initial safe reaches (discipline.assume_init assumed)
  cases step with
  | perform running effect =>
    have obligation := threads thread
    rw [running] at obligation
    exact (obligation config.moment (discipline.rely_refl _ _) inv _ _ effect assumed).1

end Discipline

end Interaction
