import Mathlib.Tactic.Common

/-! # Programs that interact with an environment

A program over an effect signature is a tree: it either returns, or issues a call
and continues with whatever answer it is given.  Nothing is said here about what
the calls do.  A meaning is attached later, by

* `Prog.interp` — a handler function, for one program running alone;
* `Prog.Runs` — a step relation, recording the calls made and their answers;
* `Pool` — a step relation shared by many programs running side by side.

The same tree therefore serves the sequential and the concurrent reading of one
piece of code.
-/

namespace Interaction

/-- The calls a program may issue, and the type of the answer to each. -/
structure Signature where
  Call : Type
  Answer : Call → Type

/-- A call together with the answer it received. -/
structure Event (S : Signature) where
  call : S.Call
  answer : S.Answer call

/-- What a call may do to a state, and which answers it may give. -/
abbrev Semantics (S : Signature) (σ : Type) : Type :=
  (call : S.Call) → σ → S.Answer call → σ → Prop

inductive Prog (S : Signature) (α : Type) : Type where
  | ret (value : α) : Prog S α
  | call (request : S.Call) (next : S.Answer request → Prog S α) : Prog S α

namespace Prog

variable {S T : Signature} {α β γ σ : Type}

protected def bind : Prog S α → (α → Prog S β) → Prog S β
  | .ret value, next => next value
  | .call request rest, next => .call request fun answer => (rest answer).bind next

instance : Monad (Prog S) where
  pure := .ret
  bind := .bind

/-- The program that issues one call and returns its answer. -/
def perform (request : S.Call) : Prog S (S.Answer request) :=
  .call request .ret

@[simp] theorem pure_eq_ret (value : α) : (pure value : Prog S α) = .ret value := rfl

@[simp] theorem ret_bind (value : α) (next : α → Prog S β) : (.ret value >>= next) = next value := rfl

@[simp] theorem call_bind (request : S.Call) (rest : S.Answer request → Prog S α)
    (next : α → Prog S β) :
    (.call request rest >>= next) = .call request fun answer => rest answer >>= next := rfl

@[simp] theorem perform_bind (request : S.Call) (next : S.Answer request → Prog S β) :
    (perform request >>= next) = .call request next := rfl

@[simp] theorem bind_assoc (program : Prog S α) (first : α → Prog S β) (second : β → Prog S γ) :
    (program >>= first >>= second) = program >>= fun value => first value >>= second := by
  induction program with
  | ret value => rfl
  | call request rest inductionHypothesis =>
    simp only [call_bind, inductionHypothesis]

theorem bind_ret (program : Prog S α) : (program >>= .ret) = program := by
  induction program with
  | ret value => rfl
  | call request rest inductionHypothesis =>
    simp only [call_bind, inductionHypothesis]

/-! ## Running alone, with a handler -/

/-- Run a program against a handler that answers every call and updates the state. -/
def interp (handle : (call : S.Call) → σ → S.Answer call × σ) : Prog S α → σ → α × σ
  | .ret value, state => (value, state)
  | .call request next, state =>
    (next (handle request state).1).interp handle (handle request state).2

section Interp

variable (handle : (call : S.Call) → σ → S.Answer call × σ)

@[simp] theorem interp_ret (value : α) (state : σ) :
    (.ret value : Prog S α).interp handle state = (value, state) := rfl

@[simp] theorem interp_call (request : S.Call) (next : S.Answer request → Prog S α) (state : σ) :
    (Prog.call request next).interp handle state =
      (next (handle request state).1).interp handle (handle request state).2 := rfl

theorem interp_bind (program : Prog S α) (next : α → Prog S β) (state : σ) :
    (program >>= next).interp handle state =
      (next (program.interp handle state).1).interp handle (program.interp handle state).2 := by
  induction program generalizing state with
  | ret value => rfl
  | call request rest inductionHypothesis =>
    simp only [call_bind, interp_call, inductionHypothesis]

end Interp

/-! ## Running alone, against a step relation -/

/-- `Runs meaning program before events value after`: started in `before`, the
    program may issue exactly the calls of `events`, receive their answers, return
    `value` and leave the state `after`. -/
inductive Runs (meaning : Semantics S σ) : Prog S α → σ → List (Event S) → α → σ → Prop where
  | ret (value : α) (state : σ) : Runs meaning (.ret value) state [] value state
  | call {request : S.Call} {next : S.Answer request → Prog S α} {before middle after : σ}
      {answer : S.Answer request} {events : List (Event S)} {value : α}
      (step : meaning request before answer middle)
      (rest : Runs meaning (next answer) middle events value after) :
      Runs meaning (.call request next) before (⟨request, answer⟩ :: events) value after

section Runs

variable {meaning : Semantics S σ}

/-- A program has a run where every call can be answered. -/
theorem exists_runs (total : ∀ request before, ∃ answer after, meaning request before answer after)
    (program : Prog S α) (before : σ) :
    ∃ events value after, Runs meaning program before events value after := by
  induction program generalizing before with
  | ret value => exact ⟨[], value, before, .ret value before⟩
  | call request next inductionHypothesis =>
    obtain ⟨answer, middle, step⟩ := total request before
    obtain ⟨events, value, after, rest⟩ := inductionHypothesis answer middle
    exact ⟨⟨request, answer⟩ :: events, value, after, .call step rest⟩

/-- A run of two programs in a row comes apart where the second begins. -/
theorem Runs.of_bind {program : Prog S α} {next : α → Prog S β} {before after : σ}
    {events : List (Event S)} {value : β}
    (run : (program >>= next).Runs meaning before events value after) :
    ∃ earlier inner middle later, events = earlier ++ later ∧
      program.Runs meaning before earlier inner middle ∧
      (next inner).Runs meaning middle later value after := by
  induction program generalizing before events with
  | ret inner => exact ⟨[], inner, before, events, rfl, .ret inner before, run⟩
  | call request rest inductionHypothesis =>
    cases run with
    | call step run =>
      obtain ⟨earlier, inner, middle, later, rfl, first, second⟩ := inductionHypothesis _ run
      exact ⟨_, inner, middle, later, rfl, .call step first, second⟩

end Runs

/-! ## Running among others -/

/-- A run in which others may change the state between any two calls of the program: the
    states that each call has found and left, and the value returned. -/
inductive RunsAmong (meaning : Semantics S σ) : Prog S α → List (σ × σ) → α → Prop where
  | ret (value : α) : RunsAmong meaning (.ret value) [] value
  | call {request : S.Call} {next : S.Answer request → Prog S α} {before after : σ}
      {answer : S.Answer request} {steps : List (σ × σ)} {value : α}
      (step : meaning request before answer after)
      (rest : RunsAmong meaning (next answer) steps value) :
      RunsAmong meaning (.call request next) ((before, after) :: steps) value

/-! ## Implementing one signature in another -/

/-- Replace every call by a program over a lower-level signature. -/
def refine (implement : (call : S.Call) → Prog T (S.Answer call)) : Prog S α → Prog T α
  | .ret value => .ret value
  | .call request next => implement request >>= fun answer => (next answer).refine implement

end Prog

end Interaction
