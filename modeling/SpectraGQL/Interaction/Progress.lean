import SpectraGQL.Interaction.Automaton
import Mathlib.Logic.Relation

/-! # What a pool can still do

A run may be continued by any thread whose next call can be answered.  Where an automaton
ensures that this is so as long as the others stand still, a thread can be run to its end,
and does then what its program does alone (`System.leads_alone`).
-/

namespace Interaction

variable {S : Signature} {ι ε σ τ υ α : Type}

namespace Prog

/-- Handlers that agree along a view of the state run a program alike. -/
theorem interp_view {handle : (call : S.Call) → σ → S.Answer call × σ}
    {handle' : (call : S.Call) → υ → S.Answer call × υ} (view : σ → υ)
    (answers : ∀ call state, (handle call state).1 = (handle' call (view state)).1)
    (moves : ∀ call state, view (handle call state).2 = (handle' call (view state)).2)
    (program : Prog S α) (state : σ) :
    (program.interp handle state).1 = (program.interp handle' (view state)).1 ∧
      view (program.interp handle state).2 = (program.interp handle' (view state)).2 := by
  induction program generalizing state with
  | ret value => exact ⟨rfl, rfl⟩
  | call request next inductionHypothesis =>
    have rest := inductionHypothesis (handle request state).1 (handle request state).2
    rw [moves, answers] at rest
    simpa only [interp_call, answers] using rest

end Prog

variable [DecidableEq ι]

namespace System

/-- Some steps lead from the one configuration to the other. -/
def Leads (system : System S ι ε σ α) : Config S ι ε σ α → Config S ι ε σ α → Prop :=
  Relation.ReflTransGen fun before after => ∃ label, system.Step before label after

variable {system : System S ι ε σ α} {first second third : Config S ι ε σ α}
  {label : Label S ι ε α}

theorem Step.leads (step : system.Step first label second) : system.Leads first second :=
  .single ⟨label, step⟩

theorem Leads.refl (config : Config S ι ε σ α) : system.Leads config config :=
  Relation.ReflTransGen.refl

theorem Leads.trans (earlier : system.Leads first second) (later : system.Leads second third) :
    system.Leads first third :=
  Relation.ReflTransGen.trans earlier later

theorem Leads.reaches {shared : σ} (leads : system.Leads first second)
    (reaches : system.Reaches shared first) : system.Reaches shared second := by
  induction leads with
  | refl => exact reaches
  | tail _ step earlier =>
    obtain ⟨label, step⟩ := step
    exact .step earlier step

/-- A thread whose allowed calls are never blocked, as long as `inv` holds, can be run to its
    end. -/
theorem leads_alone (system : System S ι ε σ α) {automaton : Automaton S τ}
    {post : α → τ → Prop} {thread : ι}
    (handle : (call : S.Call) → σ → S.Answer call × σ) (inv : τ → σ → Prop)
    (enabled : ∀ phase call state, inv phase state → automaton.allowed phase call →
      system.meaning thread call state (handle call state).1 (handle call state).2)
    (keeps : ∀ phase call state, inv phase state → automaton.allowed phase call →
      automaton.possible ⟨call, (handle call state).1⟩ ∧
        inv (automaton.next phase ⟨call, (handle call state).1⟩) (handle call state).2)
    {program : Prog S α} {phase : τ} {config : Config S ι ε σ α}
    (obeys : program.Obeys automaton post phase) (holds : inv phase config.moment.shared)
    (running : config.threads thread = .running program) :
    ∃ later phase', system.Leads config later ∧
      later.threads = Function.update config.threads thread
        (.finished (program.interp handle config.moment.shared).1) ∧
      later.moment.shared = (program.interp handle config.moment.shared).2 ∧
      post (program.interp handle config.moment.shared).1 phase' ∧
      inv phase' later.moment.shared := by
  induction program generalizing phase config with
  | ret value => exact ⟨_, phase, (Step.finish running).leads, rfl, rfl, obeys, holds⟩
  | call request next inductionHypothesis =>
    obtain ⟨possible, after⟩ := keeps phase request _ holds obeys.1
    -- the thread makes its call, and the others stand still
    obtain ⟨middle, step, threads, shared⟩ : ∃ middle,
        system.Step config (.perform thread ⟨request, (handle request config.moment.shared).1⟩)
          middle ∧
        middle.threads = Function.update config.threads thread
          (.running (next (handle request config.moment.shared).1)) ∧
        middle.moment.shared = (handle request config.moment.shared).2 :=
      ⟨_, .perform running (enabled phase request _ holds obeys.1), rfl, rfl⟩
    obtain ⟨later, phase', leads, laterThreads, laterShared, holdsLater⟩ :=
      inductionHypothesis _ (obeys.2 _ possible) (by rwa [shared])
        (by rw [threads, Function.update_self])
    refine ⟨later, phase', step.leads.trans leads, ?_, ?_, ?_⟩
    · rw [laterThreads, threads, Function.update_idem, shared]
      rfl
    · rw [laterShared, shared]
      rfl
    · rw [shared] at holdsLater
      exact holdsLater

end System

end Interaction
