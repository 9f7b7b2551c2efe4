import Mathlib.Data.List.Basic
import Mathlib.Logic.Function.Basic

/-! # Retry loops over atomic cells

Threads update atomic cells without a lock: a call loads its cell, computes the next
value, and stores it by a weak compare-and-exchange, which may fail because the cell has
changed or for no reason; a failed exchange hands over the value of the cell and the loop
goes round again.  The loops need not end, so a thread is a state of its own here and not
a program.

`Reaches.serial` is the rule for such loops: whatever the interleaving, the exchanges that
succeed are a serial run, in which each call sees the value that the one before it left.
-/

namespace Interaction.RetryLoop

variable {ι κ χ σ α : Type}

/-- The cell a call works on, the value it stores there, and what it returns. -/
structure Machine (κ χ σ α : Type) where
  cell : χ → κ
  next : χ → σ → σ
  result : χ → σ → α

inductive Thread (χ σ α : Type) where
  | idle
  | called (input : χ)
  | loaded (input : χ) (current : σ)
  | returned (value : α)

/-- An exchange that succeeded. -/
structure Commit (ι χ α : Type) where
  thread : ι
  input : χ
  value : α
  deriving DecidableEq

structure Config (ι κ χ σ α : Type) where
  cells : κ → σ
  threads : ι → Thread χ σ α
  commits : List (Commit ι χ α)

/-- Nothing has happened yet. -/
def Config.initial (cells : κ → σ) : Config ι κ χ σ α := ⟨cells, fun _ => .idle, []⟩

/-- The thread is not in the middle of a call. -/
def Thread.isFree : Thread χ σ α → Bool
  | .idle | .returned _ => true
  | .called _ | .loaded _ _ => false

variable [DecidableEq ι] [DecidableEq κ]

namespace Config

def setThread (config : Config ι κ χ σ α) (thread : ι) (state : Thread χ σ α) : Config ι κ χ σ α :=
  { config with threads := Function.update config.threads thread state }

/-- The exchange of a call that found `current` in its cell succeeds. -/
def exchange (machine : Machine κ χ σ α) (config : Config ι κ χ σ α) (thread : ι) (input : χ)
    (current : σ) : Config ι κ χ σ α where
  cells := Function.update config.cells (machine.cell input) (machine.next input current)
  threads := Function.update config.threads thread (.returned (machine.result input current))
  commits := config.commits ++ [⟨thread, input, machine.result input current⟩]

end Config

/-- `may` says which calls can be made after which exchanges. -/
inductive Step (machine : Machine κ χ σ α) (may : List (Commit ι χ α) → χ → Prop) :
    Config ι κ χ σ α → Config ι κ χ σ α → Prop
  | call {config} (thread : ι) (input : χ) (free : (config.threads thread).isFree = true)
      (allowed : may config.commits input) :
      Step machine may config (config.setThread thread (.called input))
  | load {config} (thread : ι) (input : χ) (called : config.threads thread = .called input) :
      Step machine may config
        (config.setThread thread (.loaded input (config.cells (machine.cell input))))
  | succeed {config} (thread : ι) (input : χ) (current : σ)
      (loaded : config.threads thread = .loaded input current)
      (unchanged : config.cells (machine.cell input) = current) :
      Step machine may config (config.exchange machine thread input current)
  /-- The cell has changed, or the exchange fails spuriously. -/
  | fail {config} (thread : ι) (input : χ) (current : σ)
      (loaded : config.threads thread = .loaded input current) :
      Step machine may config
        (config.setThread thread (.loaded input (config.cells (machine.cell input))))

inductive Reaches (machine : Machine κ χ σ α) (may : List (Commit ι χ α) → χ → Prop) (cells : κ → σ) :
    Config ι κ χ σ α → Prop
  | initial : Reaches machine may cells (.initial cells)
  | step {config config'} (reaches : Reaches machine may cells config)
      (step : Step machine may config config') : Reaches machine may cells config'

/-- Calls one after the other: `Serial machine may cells commits cells'` when the calls of
    `commits` lead from `cells` to `cells'`. -/
inductive Serial (machine : Machine κ χ σ α) (may : List (Commit ι χ α) → χ → Prop) (cells : κ → σ) :
    List (Commit ι χ α) → (κ → σ) → Prop
  | nil : Serial machine may cells [] cells
  | concat {commits after} (thread : ι) (input : χ) (serial : Serial machine may cells commits after)
      (allowed : may commits input) :
      Serial machine may cells
        (commits ++ [⟨thread, input, machine.result input (after (machine.cell input))⟩])
        (Function.update after (machine.cell input)
          (machine.next input (after (machine.cell input))))

section Rules

variable {machine : Machine κ χ σ α} {may : List (Commit ι χ α) → χ → Prop} {cells : κ → σ}
  {config : Config ι κ χ σ α}

/-- The input of a call that has begun and not returned. -/
def Thread.input? : Thread χ σ α → Option χ
  | .called input | .loaded input _ => some input
  | .idle | .returned _ => none

/-- The call of the thread, if it is in the middle of one, may be made. -/
def Thread.MayGoOn (may : List (Commit ι χ α) → χ → Prop) (commits : List (Commit ι χ α))
    (state : Thread χ σ α) : Prop :=
  ∀ input, state.input? = some input → may commits input

/-- Whatever a call in progress was allowed to do when it began, it still is. -/
theorem Reaches.mayGoOn (lasts : ∀ past more input, may past input → may (past ++ more) input)
    (reaches : Reaches machine may cells config) :
    ∀ thread, (config.threads thread).MayGoOn may config.commits := by
  induction reaches with
  | initial =>
    intro thread input active
    cases active
  | @step config config' earlier step inductionHypothesis =>
    cases step with
    | call mover input free allowed =>
      refine (Function.forall_update_iff _ _).mpr ⟨?_, fun thread _ => inductionHypothesis thread⟩
      rintro _ ⟨⟩
      exact allowed
    | load mover input called =>
      have mine := inductionHypothesis mover
      rw [called] at mine
      exact (Function.forall_update_iff _ _).mpr ⟨mine, fun thread _ => inductionHypothesis thread⟩
    | succeed mover input current loaded unchanged =>
      refine (Function.forall_update_iff _ _).mpr ⟨?_, ?_⟩
      · rintro _ ⟨⟩
      intro thread other input' active
      exact lasts _ _ _ (inductionHypothesis thread input' active)
    | fail mover input current loaded =>
      have mine := inductionHypothesis mover
      rw [loaded] at mine
      exact (Function.forall_update_iff _ _).mpr ⟨mine, fun thread _ => inductionHypothesis thread⟩

/-- The exchanges that succeed are a serial run. -/
theorem Reaches.serial (lasts : ∀ past more input, may past input → may (past ++ more) input)
    (reaches : Reaches machine may cells config) :
    Serial machine may cells config.commits config.cells := by
  induction reaches with
  | initial => exact .nil
  | @step config config' earlier step inductionHypothesis =>
    cases step with
    | call mover input free allowed => exact inductionHypothesis
    | load mover input called => exact inductionHypothesis
    | succeed mover input current loaded unchanged =>
      subst unchanged
      have allowed := earlier.mayGoOn lasts mover
      rw [loaded] at allowed
      exact .concat mover input inductionHypothesis (allowed input rfl)
    | fail mover input current loaded => exact inductionHypothesis

omit [DecidableEq ι] in
/-- Every call of a serial run was made after those before it, and saw what they left. -/
theorem Serial.commit {earlier later : List (Commit ι χ α)} {commit : Commit ι χ α} {after : κ → σ}
    (serial : Serial machine may cells (earlier ++ commit :: later) after) :
    ∃ before, Serial machine may cells earlier before ∧ may earlier commit.input ∧
      commit.value = machine.result commit.input (before (machine.cell commit.input)) := by
  generalize isRun : earlier ++ commit :: later = commits at serial
  induction serial generalizing later with
  | nil => simp at isRun
  | @concat commits middle thread input serial allowed inductionHypothesis =>
    rcases List.eq_nil_or_concat later with rfl | ⟨front, last, rfl⟩
    · obtain ⟨rfl, ended⟩ := List.append_inj' isRun rfl
      cases ended
      exact ⟨middle, serial, allowed, rfl⟩
    · have regrouped : earlier ++ commit :: (front ++ [last]) = (earlier ++ commit :: front) ++ [last] := by
        simp
      rw [List.concat_eq_append, regrouped] at isRun
      exact inductionHypothesis (List.append_inj' isRun rfl).1

/-- What the thread has returned, if its call is over, was committed. -/
def Committed (commits : List (Commit ι χ α)) (thread : ι) (state : Thread χ σ α) : Prop :=
  ∀ value, state = .returned value →
    ∃ commit ∈ commits, commit.thread = thread ∧ commit.value = value

theorem Reaches.committed (reaches : Reaches machine may cells config) :
    ∀ thread, Committed config.commits thread (config.threads thread) := by
  -- a thread that goes on with its call has returned nothing
  have goesOn : ∀ {config : Config ι κ χ σ α} {mover state},
      (∀ thread, Committed config.commits thread (config.threads thread)) →
      state.isFree = false → ∀ thread, Committed config.commits thread
        ((config.setThread mover state).threads thread) := by
    intro config mover state committed busy
    refine (Function.forall_update_iff _ (Committed config.commits)).mpr
      ⟨?_, fun thread _ => committed thread⟩
    rintro value rfl
    cases busy
  induction reaches with
  | initial =>
    intro thread value returned
    cases returned
  | @step config config' earlier step inductionHypothesis =>
    cases step with
    | call mover input free allowed => exact goesOn inductionHypothesis rfl
    | load mover input called => exact goesOn inductionHypothesis rfl
    | succeed mover input current loaded unchanged =>
      refine (Function.forall_update_iff _ (Committed _)).mpr ⟨?_, ?_⟩
      · rintro _ ⟨⟩
        exact ⟨_, List.mem_append_right _ (List.mem_singleton.mpr rfl), rfl, rfl⟩
      · intro thread other value returned
        obtain ⟨commit, member, isThread, isValue⟩ := inductionHypothesis thread value returned
        exact ⟨commit, List.mem_append_left _ member, isThread, isValue⟩
    | fail mover input current loaded => exact goesOn inductionHypothesis rfl

end Rules

/-! ## Schedules -/

/-- A move of a thread in a concrete run. -/
inductive Move (ι χ : Type) where
  | call (thread : ι) (input : χ)
  | load (thread : ι)
  | exchange (thread : ι)
  | spuriousFailure (thread : ι)

section Schedule

variable [DecidableEq σ] (machine : Machine κ χ σ α) (may : List (Commit ι χ α) → χ → Prop)
  [∀ commits input, Decidable (may commits input)]

def Move.perform (config : Config ι κ χ σ α) : Move ι χ → Option (Config ι κ χ σ α)
  | .call thread input =>
    if (config.threads thread).isFree ∧ may config.commits input then
      some (config.setThread thread (.called input))
    else none
  | .load thread =>
    match config.threads thread with
    | .called input =>
      some (config.setThread thread (.loaded input (config.cells (machine.cell input))))
    | _ => none
  | .exchange thread =>
    match config.threads thread with
    | .loaded input current =>
      if config.cells (machine.cell input) = current then
        some (config.exchange machine thread input current)
      else some (config.setThread thread (.loaded input (config.cells (machine.cell input))))
    | _ => none
  | .spuriousFailure thread =>
    match config.threads thread with
    | .loaded input _ =>
      some (config.setThread thread (.loaded input (config.cells (machine.cell input))))
    | _ => none

variable {machine may}

theorem Move.step {config config' : Config ι κ χ σ α} {move : Move ι χ}
    (performed : move.perform machine may config = some config') : Step machine may config config' := by
  cases move with
  | call thread input =>
    simp only [perform, Option.ite_none_right_eq_some, Option.some.injEq] at performed
    obtain ⟨⟨free, allowed⟩, rfl⟩ := performed
    exact .call thread input free allowed
  | load thread =>
    simp only [perform] at performed
    split at performed
    · rename_i input called
      cases performed
      exact .load thread input called
    · cases performed
  | exchange thread =>
    simp only [perform] at performed
    split at performed
    · rename_i input current loaded
      split at performed
      · rename_i unchanged
        cases performed
        exact .succeed thread input current loaded unchanged
      · cases performed
        exact .fail thread input current loaded
    · cases performed
  -- a weak exchange may fail although the value is unchanged
  | spuriousFailure thread =>
    simp only [perform] at performed
    split at performed
    · rename_i input current loaded
      cases performed
      exact .fail thread input current loaded
    · cases performed

theorem Reaches.schedule {cells : κ → σ} (moves : List (Move ι χ)) {config last : Config ι κ χ σ α}
    (reaches : Reaches machine may cells config)
    (runs : moves.foldlM (Move.perform machine may) config = some last) :
    Reaches machine may cells last := by
  induction moves generalizing config with
  | nil =>
    cases runs
    exact reaches
  | cons move rest inductionHypothesis =>
    obtain ⟨config', performed, later⟩ := Option.bind_eq_some_iff.mp runs
    exact inductionHypothesis (.step reaches (Move.step performed)) later

end Schedule

end Interaction.RetryLoop
