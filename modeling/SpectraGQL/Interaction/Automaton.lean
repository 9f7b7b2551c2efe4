import SpectraGQL.Interaction.Pool

/-! # Programs that follow an automaton

An automaton says which calls a program may issue in which phase, which answers are to be
expected, and which phase an answered call leads to.  `Prog.Obeys` is the claim that a
program keeps to an automaton, read along the program's own tree.  It composes with `bind`
and with `refine`, it bounds what a run with a handler does (`Obeys.interp`), and it holds
of every thread of a pool in the phase that the history of the pool gives
(`System.Reaches.obeys`).
-/

namespace Interaction

variable {S T : Signature} {ι ε σ τ υ α β : Type}

/-- Phases, the calls allowed in each, and the answers that may come. -/
structure Automaton (S : Signature) (τ : Type) where
  allowed : τ → S.Call → Prop
  possible : Event S → Prop
  next : τ → Event S → τ

namespace Prog

/-- From `phase` on the program issues allowed calls only, and returns with `post`. -/
def Obeys (automaton : Automaton S τ) (post : α → τ → Prop) : Prog S α → τ → Prop
  | .ret value, phase => post value phase
  | .call request rest, phase =>
    automaton.allowed phase request ∧ ∀ answer, automaton.possible ⟨request, answer⟩ →
      (rest answer).Obeys automaton post (automaton.next phase ⟨request, answer⟩)

variable {automaton : Automaton S τ} {post : α → τ → Prop}

theorem Obeys.mono {weaker : α → τ → Prop} {program : Prog S α} {phase : τ}
    (obeys : program.Obeys automaton post phase)
    (implies : ∀ value phase, post value phase → weaker value phase) :
    program.Obeys automaton weaker phase := by
  induction program generalizing phase with
  | ret value => exact implies value phase obeys
  | call request rest inductionHypothesis =>
    exact ⟨obeys.1, fun answer possible => inductionHypothesis answer (obeys.2 answer possible)⟩

theorem Obeys.bind {final : β → τ → Prop} {program : Prog S α} {next : α → Prog S β} {phase : τ}
    (first : program.Obeys automaton post phase)
    (second : ∀ value phase, post value phase → (next value).Obeys automaton final phase) :
    (program >>= next).Obeys automaton final phase := by
  induction program generalizing phase with
  | ret value => exact second value phase first
  | call request rest inductionHypothesis =>
    exact ⟨first.1, fun answer possible => inductionHypothesis answer (first.2 answer possible)⟩

theorem obeys_perform {request : S.Call} {post : S.Answer request → τ → Prop} {phase : τ}
    (allowed : automaton.allowed phase request)
    (holds : ∀ answer, automaton.possible ⟨request, answer⟩ →
      post answer (automaton.next phase ⟨request, answer⟩)) :
    (perform request).Obeys automaton post phase :=
  ⟨allowed, holds⟩

/-- A program that obeys an automaton still does so after its calls are implemented by
    programs that obey another one, when `embed` carries the phases over. -/
theorem Obeys.refine {lower : Automaton T υ} {embed : τ → υ}
    {implement : (call : S.Call) → Prog T (S.Answer call)}
    (implements : ∀ phase call, automaton.allowed phase call →
      (implement call).Obeys lower (fun answer phase' =>
        automaton.possible ⟨call, answer⟩ ∧ phase' = embed (automaton.next phase ⟨call, answer⟩))
        (embed phase))
    {program : Prog S α} {phase : τ} (obeys : program.Obeys automaton post phase) :
    (program.refine implement).Obeys lower
      (fun value phase' => ∃ phase, phase' = embed phase ∧ post value phase) (embed phase) := by
  induction program generalizing phase with
  | ret value => exact ⟨phase, rfl, obeys⟩
  | call request rest inductionHypothesis =>
    apply (implements phase request obeys.1).bind
    rintro answer _ ⟨possible, rfl⟩
    exact inductionHypothesis answer (obeys.2 answer possible)

/-- What holds of the state in each phase, and is kept by every allowed call, holds after a
    run. -/
theorem Obeys.interp {handle : (call : S.Call) → σ → S.Answer call × σ} (inv : τ → σ → Prop)
    (keeps : ∀ phase call state, inv phase state → automaton.allowed phase call →
      automaton.possible ⟨call, (handle call state).1⟩ ∧
        inv (automaton.next phase ⟨call, (handle call state).1⟩) (handle call state).2)
    {program : Prog S α} {phase : τ} {state : σ} (obeys : program.Obeys automaton post phase)
    (holds : inv phase state) :
    ∃ phase', post (program.interp handle state).1 phase' ∧
      inv phase' (program.interp handle state).2 := by
  induction program generalizing phase state with
  | ret value => exact ⟨phase, obeys, holds⟩
  | call request rest inductionHypothesis =>
    obtain ⟨possible, after⟩ := keeps phase request state holds obeys.1
    exact inductionHypothesis _ (obeys.2 _ possible) after

end Prog

/-! ## Programs that stick to some calls -/

/-- One phase only: the calls of `allowed` and no others. -/
def Automaton.only (allowed : S.Call → Prop) : Automaton S Unit :=
  ⟨fun _ call => allowed call, fun _ => True, fun _ _ => ()⟩

namespace Prog

/-- Every call of the program is one of `allowed`. -/
abbrev Only (allowed : S.Call → Prop) (program : Prog S α) : Prop :=
  program.Obeys (Automaton.only allowed) (fun _ _ => True) ()

variable {allowed : S.Call → Prop}

theorem Only.ret (value : α) : (Prog.ret value : Prog S α).Only allowed := trivial

theorem Only.perform {request : S.Call} (holds : allowed request) :
    (perform request).Only allowed :=
  obeys_perform holds fun _ _ => trivial

theorem Only.bind {program : Prog S α} {next : α → Prog S β} (first : program.Only allowed)
    (second : ∀ value, (next value).Only allowed) : (program >>= next).Only allowed :=
  Obeys.bind first fun value _ _ => second value

theorem Only.mono {wider : S.Call → Prop} {program : Prog S α} (only : program.Only allowed)
    (implies : ∀ call, allowed call → wider call) : program.Only wider := by
  induction program with
  | ret value => trivial
  | call request rest inductionHypothesis =>
    exact ⟨implies request only.1, fun answer _ => inductionHypothesis answer (only.2 answer trivial)⟩

/-- What the allowed calls leave alone is the same after the run. -/
theorem Only.interp {γ : Type} {handle : (call : S.Call) → σ → S.Answer call × σ} (view : σ → γ)
    {program : Prog S α} (only : program.Only allowed)
    (keeps : ∀ call state, allowed call → view (handle call state).2 = view state) (state : σ) :
    view (program.interp handle state).2 = view state := by
  obtain ⟨_, _, same⟩ := Obeys.interp (fun _ after => view after = view state)
    (fun phase call after holds ok => ⟨trivial, (keeps call after ok).trans holds⟩) only rfl
  exact same

/-- Whatever the answers to its calls are, the program returns a value with `post`. -/
abbrev Returns (post : α → Prop) (program : Prog S α) : Prop :=
  program.Obeys (Automaton.only fun _ => True) (fun value _ => post value) ()

theorem Returns.ret {post : α → Prop} {value : α} (holds : post value) :
    (Prog.ret value : Prog S α).Returns post := holds

theorem returns_true (program : Prog S α) : program.Returns fun _ => True := by
  induction program with
  | ret value => trivial
  | call request rest inductionHypothesis =>
    exact ⟨trivial, fun answer _ => inductionHypothesis answer⟩

theorem Returns.bind {post : α → Prop} {final : β → Prop} {program : Prog S α}
    {next : α → Prog S β} (first : program.Returns post)
    (second : ∀ value, post value → (next value).Returns final) : (program >>= next).Returns final :=
  Obeys.bind first fun value _ => second value

theorem Returns.interp {post : α → Prop} {program : Prog S α} (returns : program.Returns post)
    (handle : (call : S.Call) → σ → S.Answer call × σ) (state : σ) :
    post (program.interp handle state).1 := by
  obtain ⟨_, holds, -⟩ := Obeys.interp (fun _ (_ : σ) => True)
    (fun _ call state _ _ => ⟨trivial, trivial⟩) returns trivial
  exact holds

/-- What follows a program needs to be known for the values that it returns only. -/
theorem Returns.bind_congr {post : α → Prop} {program : Prog S α} {first second : α → Prog S β}
    (returns : program.Returns post) (same : ∀ value, post value → first value = second value) :
    (program >>= first) = (program >>= second) := by
  induction program with
  | ret value => exact same value returns
  | call request rest inductionHypothesis =>
    rw [call_bind, call_bind]
    congr 1
    funext answer
    exact inductionHypothesis answer (returns.2 answer trivial)

/-- A program whose calls are all allowed in a phase, and leave it, stays there. -/
theorem Only.obeys {automaton : Automaton S τ} {post : α → Prop} {program : Prog S α} {phase : τ}
    (only : program.Only allowed) (returns : program.Returns post)
    (stays : ∀ call, allowed call →
      automaton.allowed phase call ∧ ∀ answer, automaton.next phase ⟨call, answer⟩ = phase) :
    program.Obeys automaton (fun value after => post value ∧ after = phase) phase := by
  induction program with
  | ret value => exact ⟨returns, rfl⟩
  | call request rest inductionHypothesis =>
    refine ⟨(stays request only.1).1, fun answer _ => ?_⟩
    rw [(stays request only.1).2 answer]
    exact inductionHypothesis answer (only.2 answer trivial) (returns.2 answer trivial)

end Prog

/-! ## Threads of a pool -/

namespace Automaton

variable [DecidableEq ι]

/-- The phase after one more step of the pool. -/
def follow (automaton : Automaton S τ) (thread : ι) (phase : τ) : Label S ι ε α → τ
  | .perform other event => if other = thread then automaton.next phase event else phase
  | _ => phase

/-- The phase a thread has reached in a history. -/
def phaseOf (automaton : Automaton S τ) (start : τ) (thread : ι) (history : List (Label S ι ε α)) : τ :=
  history.foldl (automaton.follow thread) start

@[simp] theorem phaseOf_nil (automaton : Automaton S τ) (start : τ) (thread : ι) :
    automaton.phaseOf start thread ([] : List (Label S ι ε α)) = start := rfl

@[simp] theorem phaseOf_append (automaton : Automaton S τ) (start : τ) (thread : ι)
    (history : List (Label S ι ε α)) (label : Label S ι ε α) :
    automaton.phaseOf start thread (history ++ [label]) =
      automaton.follow thread (automaton.phaseOf start thread history) label := by
  simp [phaseOf]

/-- A call concerns the phase of its own thread. -/
theorem phasesOf_perform (automaton : Automaton S τ) (start : τ) (history : List (Label S ι ε α))
    (thread : ι) (event : Event S) :
    (fun other => automaton.phaseOf start other (history ++ [.perform thread event])) =
      Function.update (fun other => automaton.phaseOf start other history) thread
        (automaton.next (automaton.phaseOf start thread history) event) := by
  funext other
  rw [phaseOf_append]
  by_cases same : other = thread
  · subst same
    simp [follow]
  · simp [follow, same, Ne.symm same]

/-- What is no call leaves all phases alone. -/
theorem phasesOf_silent (automaton : Automaton S τ) (start : τ) (history : List (Label S ι ε α))
    {label : Label S ι ε α} (silent : ∀ thread event, label ≠ .perform thread event) :
    (fun other : ι => automaton.phaseOf start other (history ++ [label])) =
      fun other => automaton.phaseOf start other history := by
  funext other
  rw [phaseOf_append]
  cases label with
  | perform thread event => exact absurd rfl (silent thread event)
  | start _ | finish _ _ | environment _ => rfl

/-- What every answered call keeps holds of all phases. -/
theorem phaseOf_induction (automaton : Automaton S τ) (holds : τ → Prop)
    (keeps : ∀ phase event, holds phase → holds (automaton.next phase event)) {start : τ}
    (initially : holds start) (thread : ι) (history : List (Label S ι ε α)) :
    holds (automaton.phaseOf start thread history) := by
  induction history generalizing start with
  | nil => exact initially
  | cons label rest inductionHypothesis =>
    apply inductionHypothesis
    cases label with
    | perform other event =>
      by_cases mine : other = thread
      · simpa only [follow, mine, if_true] using keeps start event initially
      · simpa only [follow, mine, if_false] using initially
    | start _ | finish _ _ | environment _ => exact initially

theorem follow_other (automaton : Automaton S τ) {thread : ι} (phase : τ) {label : Label S ι ε α}
    (other : label.thread? ≠ some thread) : automaton.follow thread phase label = phase := by
  cases label with
  | perform actor event =>
    simp only [Label.thread?, ne_eq, Option.some.injEq] at other
    simp [follow, other]
  | start _ | finish _ _ | environment _ => rfl

theorem phaseOf_fresh (automaton : Automaton S τ) (start : τ) {thread : ι}
    {history : List (Label S ι ε α)} (fresh : Fresh thread history) :
    automaton.phaseOf start thread history = start := by
  induction history with
  | nil => rfl
  | cons label rest inductionHypothesis =>
    have other := fresh label List.mem_cons_self
    unfold phaseOf
    rw [List.foldl_cons, automaton.follow_other start other]
    exact inductionHypothesis fun step member => fresh step (List.mem_cons_of_mem _ member)

end Automaton

variable [DecidableEq ι]

/-- In every configuration of a pool a running thread obeys its automaton from the phase
    that the history gives it. -/
theorem System.Reaches.obeys {automaton : Automaton S τ} {start : τ}
    {system : System S ι ε σ α} {shared : σ} {config : Config S ι ε σ α} {post : α → τ → Prop}
    {thread : ι} (obeys : (system.program thread).Obeys automaton post start)
    (answers : ∀ {call before answer after}, system.meaning thread call before answer after →
      automaton.possible ⟨call, answer⟩)
    (reaches : system.Reaches shared config) {program : Prog S α}
    (running : config.threads thread = .running program) :
    program.Obeys automaton post (automaton.phaseOf start thread config.moment.history) := by
  induction reaches generalizing program with
  | initial => simp [System.initial] at running
  | @step config config' label earlier step inductionHypothesis =>
    rw [step.history_eq, Automaton.phaseOf_append]
    -- a step of its own moves the phase along, a step of another leaves it alone
    by_cases mine : label.thread? = some thread
    · cases step with
      | @start other idle =>
        simp only [Label.thread?, Option.some.injEq] at mine
        subst mine
        simp only [Function.update_self, Thread.running.injEq] at running
        rw [Automaton.phaseOf_fresh automaton _ (earlier.fresh_of_idle idle), ← running]
        exact obeys
      | @perform other request next answer shared was effect =>
        simp only [Label.thread?, Option.some.injEq] at mine
        subst mine
        simp only [Function.update_self, Thread.running.injEq] at running
        simp only [Automaton.follow, if_true, ← running]
        exact (inductionHypothesis was).2 answer (answers effect)
      | @finish other value was =>
        simp only [Label.thread?, Option.some.injEq] at mine
        subst mine
        simp at running
      | environment _ => simp [Label.thread?] at mine
    · rw [automaton.follow_other _ mine]
      exact inductionHypothesis ((step.threads_eq mine).symm.trans running)

/-- A program that has returned has obeyed its automaton to the end. -/
theorem System.Reaches.obeyed {automaton : Automaton S τ} {start : τ}
    {system : System S ι ε σ α} {shared : σ} {config : Config S ι ε σ α} {post : α → τ → Prop}
    {thread : ι} (obeys : (system.program thread).Obeys automaton post start)
    (answers : ∀ {call before answer after}, system.meaning thread call before answer after →
      automaton.possible ⟨call, answer⟩)
    (reaches : system.Reaches shared config) {value : α}
    (finished : config.threads thread = .finished value) :
    post value (automaton.phaseOf start thread config.moment.history) := by
  induction reaches with
  | initial => simp [System.initial] at finished
  | @step config config' label earlier step inductionHypothesis =>
    rw [step.history_eq, Automaton.phaseOf_append]
    by_cases mine : label.thread? = some thread
    -- of its own steps only the last one finishes it
    · cases step with
      | @start other idle =>
        simp only [Label.thread?, Option.some.injEq] at mine
        subst mine
        simp at finished
      | @perform other request next answer shared was effect =>
        simp only [Label.thread?, Option.some.injEq] at mine
        subst mine
        simp at finished
      | @finish other returned was =>
        simp only [Label.thread?, Option.some.injEq] at mine
        subst mine
        obtain rfl : returned = value := by simpa using finished
        exact earlier.obeys obeys answers was
      | environment _ => simp [Label.thread?] at mine
    · rw [automaton.follow_other _ mine]
      exact inductionHypothesis ((step.threads_eq mine).symm.trans finished)

end Interaction
