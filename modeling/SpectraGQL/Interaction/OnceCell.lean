import SpectraGQL.Interaction.SingleFlight

/-! # A connection that is made once

A cell that is only ever filled: who finds it empty connects under the lock and stores what it has
made, and nobody empties it again.  `Flight.once` says that callers who keep to this make one
connection at most, and that whatever any of them does over a connection goes over that one.
-/

namespace Interaction

variable {T : Signature} {ι κ ε σ α β : Type}

/-- `OnceCell::get_or_try_init`; `none` if the caller is dropped while it waits. -/
def getOrTryInit : CellProg T (Option (Except String Nat)) := getOrConnect fun _ => return some ()

/-- Nothing is asked for besides the cell. -/
theorem only_getOrTryInit : (getOrTryInit : CellProg T _).Only fun call => ∃ op, call = CellCall.cell op := by
  refine ⟨⟨_, rfl⟩, fun first _ => ?_⟩
  cases first with
  | some connection => trivial
  | none =>
    refine ⟨⟨_, rfl⟩, fun taken _ => ?_⟩
    cases taken with
    | false => trivial
    | true =>
      refine ⟨⟨_, rfl⟩, fun second _ => ?_⟩
      cases second with
      | some connection => exact ⟨⟨_, rfl⟩, fun _ _ => trivial⟩
      | none =>
        refine ⟨⟨_, rfl⟩, fun connected _ => ?_⟩
        match connected with
        | none | some (.error _) => exact ⟨⟨_, rfl⟩, fun _ _ => trivial⟩
        | some (.ok connection) => exact ⟨⟨_, rfl⟩, fun _ _ => ⟨⟨_, rfl⟩, fun _ _ => trivial⟩⟩

/-! ## Keeping what has been made -/

/-- Where a caller is, the connection that it has been given, and whether it has used one. -/
structure Holding where
  slot : Slot
  given : Option Nat
  used : Bool

namespace Holding

def start : Holding := ⟨.outside, none, false⟩

/-- The caller does not empty the cell, and stores what it has made. -/
def keeps : Slot → CellOp → Prop
  | .fresh connection, op => op = .store connection
  | _, op => op ≠ .swap

/-- `uses` tells the connection that a call goes over. -/
def allowed (uses : T.Call → Option Nat) (holding : Holding) : CellCall T → Prop
  | .cell op => holding.slot.allowed (.cell op : CellCall T) ∧ keeps holding.slot op
  | .other call => ∀ connection, uses call = some connection →
      holding.slot = .outside ∧ holding.given = some connection

def next (uses : T.Call → Option Nat) (holding : Holding) (event : Event (cellSignature T)) : Holding :=
  { slot := holding.slot.next event
    given :=
      match event with
      | ⟨.cell .load, found⟩ => found
      | ⟨.cell .connect, some (.ok connection)⟩ => some connection
      | _ => holding.given
    used :=
      match event with
      | ⟨.other call, _⟩ => holding.used || (uses call).isSome
      | ⟨.cell _, _⟩ => holding.used }

def automaton (uses : T.Call → Option Nat) : Automaton (cellSignature T) Holding :=
  ⟨allowed uses, fun _ => True, next uses⟩

variable {uses : T.Call → Option Nat}

theorem slot_allowed {holding : Holding} {call : CellCall T} (allowed : holding.allowed uses call) :
    holding.slot.allowed call := by
  cases call with
  | cell op => exact allowed.1
  | other call => cases holding.slot <;> trivial

/-- Who keeps what it makes keeps to the protocol of the cell. -/
theorem obeys_slot {program : CellProg T α} {holding : Holding}
    (obeys : program.Obeys (automaton uses) (fun _ after => after.slot = .outside) holding) :
    program.Obeys Slot.automaton (fun _ slot => slot = .outside) holding.slot := by
  induction program generalizing holding with
  | ret value => exact obeys
  | call request rest inductionHypothesis =>
    exact ⟨slot_allowed obeys.1, fun answer _ => inductionHypothesis answer (obeys.2 answer trivial)⟩

theorem ne_swap {op : CellOp} (other : (match op with | .swap => true | _ => false) = false) : op ≠ .swap := by
  rintro rfl
  cases other

/-- Who gets a connection is outside the lock again, and has been given it. -/
theorem obeys_getOrTryInit (used : Bool) (found : Option Nat) :
    (getOrTryInit : CellProg T _).Obeys (automaton uses)
      (fun got after => after.slot = .outside ∧ ∀ connection, got = some (.ok connection) →
        after.given = some connection) ⟨.outside, found, used⟩ := by
  refine ⟨⟨.inl rfl, ne_swap rfl⟩, fun first _ => ?_⟩
  cases first with
  | some connection => exact ⟨rfl, fun _ same => by cases same; rfl⟩
  | none =>
    refine ⟨⟨.inr (.inl rfl), ne_swap rfl⟩, fun taken _ => ?_⟩
    cases taken with
    | false => exact ⟨rfl, fun _ same => by cases same⟩
    | true =>
      refine ⟨⟨.inl rfl, ne_swap rfl⟩, fun second _ => ?_⟩
      cases second with
      | some connection => exact ⟨⟨rfl, ne_swap rfl⟩, fun _ _ => ⟨rfl, fun _ same => by cases same; rfl⟩⟩
      | none =>
        refine ⟨⟨.inl rfl, ne_swap rfl⟩, fun connected _ => ?_⟩
        match connected with
        | none => exact ⟨⟨rfl, ne_swap rfl⟩, fun _ _ => ⟨rfl, fun _ same => by cases same⟩⟩
        | some (.error error) => exact ⟨⟨rfl, ne_swap rfl⟩, fun _ _ => ⟨rfl, fun _ same => by cases same⟩⟩
        | some (.ok connection) =>
          exact ⟨⟨.inl rfl, rfl⟩, fun _ _ => ⟨⟨rfl, ne_swap rfl⟩,
            fun _ _ => ⟨rfl, fun _ same => by cases same; rfl⟩⟩⟩

/-- A call over the connection that has been given. -/
theorem obeys_other {call : T.Call} {rest : T.Answer call → CellProg T α} {post : α → Holding → Prop}
    {holding : Holding} (allowed : holding.allowed uses (.other call))
    (obeys : ∀ answer used, (rest answer).Obeys (automaton uses) post { holding with used := used }) :
    (CellProg.other call >>= rest).Obeys (automaton uses) post holding := by
  refine ⟨allowed, fun answer _ => ?_⟩
  show (rest answer).Obeys (automaton uses) post ⟨holding.slot.next ⟨.other call, answer⟩, holding.given, _⟩
  rw [Slot.next_other]
  exact obeys answer _

end Holding

/-! ## The callers of one cell -/

namespace Cell

variable {cell after : Cell ι} {mine : ι → Prop} {holdings : ι → Holding} {thread : ι}

structure Kept (cell : Cell ι) (mine : ι → Prop) (holdings : ι → Holding) : Prop where
  sound : cell.Sound mine fun thread => (holdings thread).slot
  evicted : cell.evicted = 0
  dropped : cell.dropped = 0
  given : ∀ thread connection, mine thread → (holdings thread).given = some connection →
    cell.content = some connection ∨ (holdings thread).slot = .fresh connection
  used : ∀ thread, mine thread → (holdings thread).used = true → cell.content ≠ none

theorem kept_new (mine : ι → Prop) : Kept ({} : Cell ι) mine fun _ => .start where
  sound := sound_new mine
  evicted := rfl
  dropped := rfl
  given := by simp [Holding.start]
  used := by simp [Holding.start]

namespace Kept

/-- One connection at most has been made. -/
theorem made_le_one (kept : Kept cell mine holdings) : cell.made ≤ 1 := by
  have balance := kept.sound.balance
  rw [kept.evicted, kept.dropped] at balance
  cases content : cell.content with
  | none =>
    rw [content] at balance
    cases unsaved : cell.unsaved <;> rw [unsaved] at balance <;> simp at balance <;> omega
  | some connection =>
    cases unsaved : cell.unsaved with
    | none =>
      rw [content, unsaved] at balance
      simp at balance
      omega
    | some made =>
      -- who has made another one has found the cell empty
      obtain ⟨thread, isMine, fresh⟩ := (kept.sound.unsaved made).mp unsaved
      have empty := kept.sound.vacant thread isMine (by rw [fresh]; rfl)
      rw [content] at empty
      cases empty

theorem congr (kept : Kept cell mine holdings) {others : ι → Holding}
    (same : ∀ thread, mine thread → others thread = holdings thread) : Kept cell mine others where
  sound := kept.sound.congr fun thread isMine => by rw [same thread isMine]
  evicted := kept.evicted
  dropped := kept.dropped
  given := fun thread connection isMine given => by
    rw [same thread isMine] at given ⊢
    exact kept.given thread connection isMine given
  used := fun thread isMine used => by
    rw [same thread isMine] at used
    exact kept.used thread isMine used

/-- What is in the cell stays there. -/
theorem content_kept (kept : Kept cell mine holdings) (isMine : mine thread) {op : CellOp} {answer : op.Answer}
    (keeps : Holding.keeps (holdings thread).slot op)
    (allowed : (holdings thread).slot.allowed (.cell op : CellCall T))
    (effect : cell.meaning thread op answer after) {connection : Nat} (content : cell.content = some connection) :
    after.content = some connection := by
  cases op with
  | load =>
    obtain ⟨-, rfl⟩ := effect
    exact content
  | lock =>
    rcases effect with ⟨-, -, rfl⟩ | ⟨-, rfl⟩ <;> exact content
  | unlock =>
    cases effect
    exact content
  | connect =>
    rcases effect with ⟨-, rfl⟩ | ⟨-, rfl⟩ <;> exact content
  | store number =>
    -- who stores has found the cell empty
    have fresh : (holdings thread).slot.relies = true := by
      cases slot : (holdings thread).slot <;> simp_all [Slot.allowed, Slot.relies]
    rw [kept.sound.vacant thread isMine fresh] at content
    cases content
  | swap => cases slot : (holdings thread).slot <;> simp_all [Holding.keeps]

/-- Nothing is evicted or dropped. -/
theorem nothing_lost (kept : Kept cell mine holdings) (isMine : mine thread) {op : CellOp} {answer : op.Answer}
    (keeps : Holding.keeps (holdings thread).slot op)
    (allowed : (holdings thread).slot.allowed (.cell op : CellCall T))
    (effect : cell.meaning thread op answer after) : after.evicted = 0 ∧ after.dropped = 0 := by
  have lost : cell.evicted = 0 ∧ cell.dropped = 0 := ⟨kept.evicted, kept.dropped⟩
  cases op with
  | load =>
    obtain ⟨-, rfl⟩ := effect
    exact lost
  | lock =>
    rcases effect with ⟨-, -, rfl⟩ | ⟨-, rfl⟩ <;> exact lost
  | unlock =>
    cases effect
    -- who unlocks has stored what it has made
    have unsaved : cell.unsaved = none := by
      apply kept.sound.unsaved_eq_none isMine
      · cases slot : (holdings thread).slot <;> simp_all [Slot.allowed, Slot.inside]
      · intro connection fresh
        rw [fresh] at keeps
        cases keeps
    exact ⟨lost.1, by simp [unsaved, lost.2]⟩
  | connect =>
    rcases effect with ⟨-, rfl⟩ | ⟨-, rfl⟩ <;> exact lost
  | store number =>
    cases effect
    exact lost
  | swap => cases slot : (holdings thread).slot <;> simp_all [Holding.keeps]

variable {uses : T.Call → Option Nat}

/-- What a caller has been given is in the cell, or about to be stored there. -/
theorem given_next (kept : Kept cell mine holdings) (isMine : mine thread) {op : CellOp} {answer : op.Answer}
    (allowed : (holdings thread).allowed uses (.cell op)) (effect : cell.meaning thread op answer after)
    {connection : Nat} (given : ((holdings thread).next uses ⟨.cell op, answer⟩).given = some connection) :
    after.content = some connection ∨
      ((holdings thread).next uses ⟨.cell op, answer⟩).slot = .fresh connection := by
  obtain ⟨isAllowed, keeps⟩ := allowed
  have before : (holdings thread).given = some connection → cell.content = some connection ∨
      (holdings thread).slot = .fresh connection := kept.given thread connection isMine
  cases op with
  | load =>
    obtain ⟨rfl, rfl⟩ := effect
    exact .inl given
  | lock =>
    rcases before given with content | fresh
    · exact .inl (kept.content_kept isMine keeps isAllowed effect content)
    · rw [fresh] at keeps
      cases keeps
  | unlock =>
    rcases before given with content | fresh
    · exact .inl (kept.content_kept isMine keeps isAllowed effect content)
    · rw [fresh] at keeps
      cases keeps
  | connect =>
    have vacant : (holdings thread).slot = .vacant := by
      cases slot : (holdings thread).slot <;> simp_all [Slot.allowed]
    rcases effect with ⟨rfl, rfl⟩ | ⟨rfl | ⟨error, rfl⟩, rfl⟩
    · obtain rfl := Option.some.inj given
      right
      show (holdings thread).slot.next _ = _
      rw [vacant]
      rfl
    · rcases before given with content | fresh
      · exact .inl content
      · rw [fresh] at vacant
        cases vacant
    · rcases before given with content | fresh
      · exact .inl content
      · rw [fresh] at vacant
        cases vacant
  | store number =>
    rcases before given with content | fresh
    · exact .inl (kept.content_kept isMine keeps isAllowed effect content)
    · rw [fresh] at keeps
      obtain rfl := CellOp.store.inj keeps
      cases effect
      exact .inl rfl
  | swap => cases slot : (holdings thread).slot <;> simp_all [Holding.keeps]

variable [DecidableEq ι]

/-- Every call that a caller may make keeps the cell. -/
theorem access (kept : Kept cell mine holdings) (isMine : mine thread) {op : CellOp} {answer : op.Answer}
    (allowed : (holdings thread).allowed uses (.cell op)) (effect : cell.meaning thread op answer after) :
    Kept after mine (Function.update holdings thread ((holdings thread).next uses ⟨.cell op, answer⟩)) where
  sound := by
    have slots : (fun other => (Function.update holdings thread
        ((holdings thread).next uses ⟨.cell op, answer⟩) other).slot) =
        Function.update (fun other => (holdings other).slot) thread
          ((holdings thread).slot.next (T := T) ⟨.cell op, answer⟩) := by
      funext other
      by_cases same : other = thread
      · subst same
        rw [Function.update_self, Function.update_self]
        rfl
      · rw [Function.update_of_ne same, Function.update_of_ne same]
    rw [slots]
    exact kept.sound.access isMine allowed.1 effect
  evicted := (kept.nothing_lost isMine allowed.2 allowed.1 effect).1
  dropped := (kept.nothing_lost isMine allowed.2 allowed.1 effect).2
  given := fun other connection otherMine given => by
    by_cases same : other = thread
    · subst same
      rw [Function.update_self] at given ⊢
      exact kept.given_next isMine allowed effect given
    · rw [Function.update_of_ne same] at given ⊢
      exact (kept.given other connection otherMine given).imp_left
        (kept.content_kept isMine allowed.2 allowed.1 effect)
  used := fun other otherMine used => by
    have before : (holdings other).used = true := by
      by_cases same : other = thread
      · subst same
        rwa [Function.update_self] at used
      · rwa [Function.update_of_ne same] at used
    obtain ⟨connection, content⟩ := Option.ne_none_iff_exists'.mp (kept.used other otherMine before)
    rw [kept.content_kept isMine allowed.2 allowed.1 effect content]
    exact Option.some_ne_none _

/-- A call over a connection finds it in the cell. -/
theorem other (kept : Kept cell mine holdings) (isMine : mine thread) {call : T.Call} {answer : T.Answer call}
    (allowed : (holdings thread).allowed uses (.other call)) :
    Kept cell mine (Function.update holdings thread ((holdings thread).next uses ⟨.other call, answer⟩)) := by
  have slot : ((holdings thread).next uses ⟨.other call, answer⟩).slot = (holdings thread).slot :=
    Slot.next_other _ call answer
  have own : ∀ other, (Function.update holdings thread
      ((holdings thread).next uses ⟨.other call, answer⟩) other).slot = (holdings other).slot ∧
      (Function.update holdings thread ((holdings thread).next uses ⟨.other call, answer⟩) other).given =
        (holdings other).given := by
    intro other
    by_cases same : other = thread
    · subst same
      rw [Function.update_self, slot]
      exact ⟨rfl, rfl⟩
    · rw [Function.update_of_ne same]
      exact ⟨rfl, rfl⟩
  refine ⟨kept.sound.congr fun other _ => (own other).1, kept.evicted, kept.dropped, ?_, ?_⟩
  · intro other connection otherMine given
    rw [(own other).1]
    rw [(own other).2] at given
    exact kept.given other connection otherMine given
  · intro other otherMine used
    by_cases same : other = thread
    · subst same
      rw [Function.update_self] at used
      rcases Bool.or_eq_true_iff.mp used with before | now
      · exact kept.used other otherMine before
      · obtain ⟨connection, isUsed⟩ := Option.isSome_iff_exists.mp now
        obtain ⟨outside, given⟩ := allowed connection isUsed
        rcases kept.given other connection otherMine given with content | fresh
        · simp [content]
        · rw [outside] at fresh
          cases fresh
    · rw [Function.update_of_ne same] at used
      exact kept.used other otherMine used

end Kept

end Cell

/-! ## Many callers -/

namespace Flight

variable [DecidableEq κ] {flight : Flight T ι κ ε σ α} {uses : T.Call → Option Nat}
  {config : Configuration T ι κ ε σ α} {outside : σ}

/-- Every caller keeps what it makes, and is outside the lock when it returns. -/
def Keeping (flight : Flight T ι κ ε σ α) (uses : T.Call → Option Nat) : Prop :=
  ∀ thread, (flight.program thread).Obeys (Holding.automaton uses) (fun _ holding => holding.slot = .outside) .start

omit [DecidableEq κ] in
theorem Keeping.orderly (keeping : flight.Keeping uses) : flight.Orderly := by
  intro thread
  have obeys := keeping thread
  exact Holding.obeys_slot obeys

theorem Keeping.follows (keeping : flight.Keeping uses) :
    flight.system.Follows (Holding.automaton uses) (fun _ _ holding => holding.slot = .outside) fun _ => .start where
  obeys := keeping
  answers := fun _ => trivial

variable [DecidableEq ι]

theorem keptInvariant : PhaseInvariant flight.system (Holding.automaton uses) (fun _ => True) fun shared holdings =>
    ∀ place, (shared.1 place).Kept (fun thread => flight.place thread = place) holdings where
  perform := by
    intro thread call before answer after holdings _ kept allowed effect place
    cases call with
    | cell op =>
      obtain ⟨cell, effect, rfl⟩ := effect
      by_cases here : flight.place thread = place
      · subst here
        have isAllowed : (holdings thread).allowed uses (.cell op) := allowed
        simp only [Function.update_self]
        exact (kept _).access rfl isAllowed effect
      · simp only [Function.update_of_ne (Ne.symm here)]
        refine (kept place).congr fun other isMine => ?_
        rw [Function.update_of_ne]
        rintro rfl
        exact here isMine
    | other call =>
      obtain ⟨state, _, rfl⟩ := effect
      by_cases here : flight.place thread = place
      · exact (kept place).other here allowed
      · refine (kept place).congr fun other isMine => ?_
        rw [Function.update_of_ne]
        rintro rfl
        exact here isMine
  environment := by
    intro event before after holdings _ kept effect place
    rw [effect.2]
    exact kept place

theorem kept (keeping : flight.Keeping uses) (reaches : flight.system.Reaches (initial outside) config) (place : κ) :
    (config.moment.shared.1 place).Kept (fun thread => flight.place thread = place)
      ((Holding.automaton uses).phases (fun _ => .start) config.moment.history) :=
  reaches.phaseInvariant keeping.follows keptInvariant (fun _ => trivial) (fun _ => Cell.kept_new _) place

omit [DecidableEq κ] in
/-- Who has used a connection is known to have used one ever after. -/
theorem used_of_mem {history : List (Label (cellSignature T) ι ε α)} {thread : ι} {call : T.Call}
    {answer : T.Answer call} (performed : .perform thread ⟨.other call, answer⟩ ∈ history) {connection : Nat}
    (isUsed : uses call = some connection) :
    ((Holding.automaton uses).phaseOf .start thread history).used = true := by
  induction history using List.reverseRecOn with
  | nil => cases performed
  | append_singleton history label inductionHypothesis =>
    rw [Automaton.phaseOf_append]
    rcases List.mem_append.mp performed with before | now
    · have used := inductionHypothesis before
      cases label with
      | start _ | finish _ _ | environment _ => exact used
      | perform performer event =>
        by_cases same : performer = thread
        · simp only [Automaton.follow, same, if_true]
          obtain ⟨call, answer⟩ := event
          cases call with
          | cell op => exact used
          | other call => exact Bool.or_eq_true_iff.mpr (.inl used)
        · simp only [Automaton.follow, same, if_false]
          exact used
    · rw [← List.mem_singleton.mp now]
      simp only [Automaton.follow, if_true]
      exact Bool.or_eq_true_iff.mpr (.inr (by rw [isUsed]; rfl))

/-- The rule: callers who keep what they make connect once at each place, and whatever has been done
    over a connection there has been done over the one that the place still has. -/
theorem once (keeping : flight.Keeping uses) (reaches : flight.system.Reaches (initial outside) config) (place : κ) :
    let cell := config.moment.shared.1 place
    cell.made ≤ 1 ∧ cell.evicted = 0 ∧ cell.dropped = 0 ∧
      ∀ thread call answer connection, flight.place thread = place →
        .perform thread ⟨.other call, answer⟩ ∈ config.moment.history → uses call = some connection →
          connection = 0 ∧ cell.content = some 0 := by
  intro cell
  have now := kept keeping reaches place
  refine ⟨now.made_le_one, now.evicted, now.dropped, ?_⟩
  intro thread call answer connection here performed isUsed
  have one : ∀ {cell : Cell ι} {holdings : ι → Holding} {number : Nat},
      cell.Kept (fun thread => flight.place thread = place) holdings → cell.content = some number → number = 0 := by
    intro cell holdings number kept content
    have newest := kept.sound.newest number (.inl content)
    have few := kept.made_le_one
    omega
  constructor
  · -- at its moment the caller had been given what is in the cell
    obtain ⟨past, future, split⟩ := List.append_of_mem performed
    obtain ⟨before, after, earlier, history, step⟩ := reaches.step_at split
    cases step with
    | perform running effect =>
      have allowed := (earlier.obeys (keeping thread) (fun _ => trivial) running).1
      obtain ⟨outside, given⟩ := allowed connection isUsed
      have then' := kept keeping earlier place
      rcases then'.given thread connection here given with content | fresh
      · exact one then' content
      · exact absurd (outside.symm.trans fresh) (by simp)
  · have filled := now.used thread here (used_of_mem performed isUsed)
    obtain ⟨number, content⟩ := Option.ne_none_iff_exists'.mp filled
    rw [one now content] at content
    exact content

end Flight

end Interaction
