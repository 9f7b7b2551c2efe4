import SpectraGQL.Interaction.Phased
import SpectraGQL.Interaction.Progress
import SpectraGQL.Interaction.Schedule

/-! # One connection at a time

A cell holds a connection that many callers share.  Who finds the cell empty takes a lock, looks
again, connects and stores the connection before the lock is given back (`getOrConnect`); who has
seen a connection fail may empty the cell without the lock.  Every wait may also be the last: the
caller is dropped there, and with it the lock and the connection that it holds.

A caller keeps to `Slot.automaton` if it touches the cell in no other way.  `Cell.Sound` is what
any number of such callers keep: one of them connects at a time, the cell holds the newest
connection or none, and every connection made is held, evicted or dropped.
-/

namespace Interaction

variable {T : Signature} {ι κ ε σ α : Type}

/-! ## Cells -/

inductive CellOp where
  | load
  | lock
  | unlock
  | connect
  | store (connection : Nat)
  | swap
  deriving DecidableEq

/-- A lock is not taken, and a connection not awaited to its end, by a caller that is dropped. -/
def CellOp.Answer : CellOp → Type
  | .load => Option Nat
  | .lock => Bool
  | .unlock => Unit
  | .connect => Option (Except String Nat)
  | .store _ => Unit
  | .swap => Option Nat

/-- Connections are numbered in the order in which they are made. -/
structure Cell (ι : Type) where
  content : Option Nat := none
  holder : Option ι := none
  made : Nat := 0
  /-- The connection that the holder of the lock has not stored yet. -/
  unsaved : Option Nat := none
  evicted : Nat := 0
  dropped : Nat := 0

namespace Cell

def meaning (thread : ι) : (op : CellOp) → Cell ι → op.Answer → Cell ι → Prop
  | .load, before, answer, after => answer = before.content ∧ after = before
  | .lock, before, answer, after =>
    (answer = true ∧ before.holder = none ∧ after = { before with holder := some thread }) ∨
      (answer = false ∧ after = before)
  | .unlock, before, _, after =>
    after = { before with
      holder := none, unsaved := none, dropped := before.dropped + before.unsaved.toList.length }
  | .connect, before, answer, after =>
    (answer = some (.ok before.made) ∧
        after = { before with made := before.made + 1, unsaved := some before.made }) ∨
      ((answer = none ∨ ∃ error, answer = some (.error error)) ∧ after = before)
  | .store connection, before, _, after =>
    after = { before with content := some connection, unsaved := none }
  | .swap, before, answer, after =>
    answer = before.content ∧ after = { before with
      content := none, evicted := before.evicted + before.content.toList.length }

/-- One answer to every call, with the effect it has; only a lock that is held keeps a caller waiting. -/
def reply (cell : Cell ι) (thread : ι) (connects : Bool) : (op : CellOp) → Option (op.Answer × Cell ι)
  | .load => some (cell.content, cell)
  | .lock => if cell.holder.isNone then some (true, { cell with holder := some thread }) else none
  | .unlock => some ((), { cell with
      holder := none, unsaved := none, dropped := cell.dropped + cell.unsaved.toList.length })
  | .connect =>
    if connects then some (some (.ok cell.made), { cell with made := cell.made + 1, unsaved := some cell.made })
    else some (none, cell)
  | .store connection => some ((), { cell with content := some connection, unsaved := none })
  | .swap => some (cell.content, { cell with
      content := none, evicted := cell.evicted + cell.content.toList.length })

theorem meaning_of_reply {thread : ι} {connects : Bool} {op : CellOp} {cell : Cell ι} {result : op.Answer × Cell ι}
    (replies : cell.reply thread connects op = some result) : cell.meaning thread op result.1 result.2 := by
  cases op with
  | load | swap =>
    cases replies
    exact ⟨rfl, rfl⟩
  | unlock | store _ =>
    cases replies
    rfl
  | lock =>
    obtain ⟨free, same⟩ := Option.ite_none_right_eq_some.mp replies
    cases same
    exact .inl ⟨rfl, Option.isNone_iff_eq_none.mp free, rfl⟩
  | connect =>
    cases connects with
    | true =>
      cases replies
      exact .inl ⟨rfl, rfl⟩
    | false =>
      cases replies
      exact .inr ⟨.inl rfl, rfl⟩

end Cell

/-! ## Callers -/

inductive CellCall (T : Signature) where
  | cell (op : CellOp)
  | other (call : T.Call)

def CellCall.Answer : CellCall T → Type
  | .cell op => op.Answer
  | .other call => T.Answer call

abbrev cellSignature (T : Signature) : Signature := ⟨CellCall T, CellCall.Answer⟩

abbrev CellProg (T : Signature) (α : Type) := Prog (cellSignature T) α

namespace CellProg

def load : CellProg T (Option Nat) := Prog.perform (S := cellSignature T) (.cell .load)

def lock : CellProg T Bool := Prog.perform (S := cellSignature T) (.cell .lock)

def unlock : CellProg T Unit := Prog.perform (S := cellSignature T) (.cell .unlock)

def connect : CellProg T (Option (Except String Nat)) := Prog.perform (S := cellSignature T) (.cell .connect)

def store (connection : Nat) : CellProg T Unit := Prog.perform (S := cellSignature T) (.cell (.store connection))

def swap : CellProg T (Option Nat) := Prog.perform (S := cellSignature T) (.cell .swap)

def other (call : T.Call) : CellProg T (T.Answer call) := Prog.perform (S := cellSignature T) (.other call)

/-- A program that has nothing to do with the cell. -/
def lift (program : Prog T α) : CellProg T α := program.refine other

/-- A lifted program makes the calls that it made before. -/
theorem only_lift {allowed : T.Call → Prop} {program : Prog T α} (only : program.Only allowed) :
    (lift program).Only fun call => ∃ call', call = CellCall.other call' ∧ allowed call' := by
  induction program with
  | ret value => trivial
  | call request rest inductionHypothesis =>
    exact ⟨⟨request, rfl, only.1⟩, fun answer _ => inductionHypothesis answer (only.2 answer trivial)⟩

end CellProg

open CellProg in
/-- The connection of the cell, or a new one; `none` if the caller is dropped while it waits. -/
def getOrConnect (prepare : Nat → Prog T (Option Unit)) : CellProg T (Option (Except String Nat)) := do
  match ← load with
  | some connection => return some (.ok connection)
  | none =>
    if !(← lock) then return none
    match ← load with
    | some connection =>
      unlock
      return some (.ok connection)
    | none =>
      match ← connect with
      | none =>
        unlock
        return none
      | some (.error error) =>
        unlock
        return some (.error error)
      | some (.ok connection) =>
        match ← lift (prepare connection) with
        | none =>
          unlock
          return none
        | some () =>
          store connection
          unlock
          return some (.ok connection)

/-! ## Keeping to the protocol -/

/-- Where a caller is: outside the lock, or inside and what it has found and made there. -/
inductive Slot where
  | outside
  | locked
  | vacant
  | fresh (connection : Nat)
  | settled
  deriving DecidableEq

namespace Slot

def inside : Slot → Bool
  | outside => false
  | locked | vacant | fresh _ | settled => true

/-- The caller has found the cell empty under the lock, and not stored anything since. -/
def relies : Slot → Bool
  | vacant | fresh _ => true
  | outside | locked | settled => false

def allowed : Slot → CellCall T → Prop
  | _, .other _ => True
  | outside, .cell op => op = .load ∨ op = .lock ∨ op = .swap
  | locked, .cell op => op = .load ∨ op = .unlock
  | vacant, .cell op => op = .connect ∨ op = .unlock
  | fresh connection, .cell op => op = .store connection ∨ op = .unlock
  | settled, .cell op => op = .unlock

def next : Slot → Event (cellSignature T) → Slot
  | outside, ⟨.cell .lock, true⟩ => locked
  | locked, ⟨.cell .load, none⟩ => vacant
  | locked, ⟨.cell .load, some _⟩ => settled
  | vacant, ⟨.cell .connect, some (.ok connection)⟩ => fresh connection
  | vacant, ⟨.cell .connect, _⟩ => settled
  | fresh _, ⟨.cell (.store _), _⟩ => settled
  | _, ⟨.cell .unlock, _⟩ => outside
  | slot, _ => slot

def automaton : Automaton (cellSignature T) Slot := ⟨allowed, fun _ => True, next⟩

theorem next_other (slot : Slot) (call : T.Call) (answer : (cellSignature T).Answer (.other call)) :
    next slot ⟨.other call, answer⟩ = slot := by
  cases slot <;> rfl

theorem obeys_other {call : T.Call} {rest : T.Answer call → CellProg T α} {post : α → Slot → Prop} {slot : Slot}
    (obeys : ∀ answer, (rest answer).Obeys automaton post slot) :
    (CellProg.other call >>= rest).Obeys automaton post slot := by
  refine ⟨by cases slot <;> trivial, fun answer _ => ?_⟩
  rw [show automaton.next slot ⟨.other call, answer⟩ = slot from next_other slot call answer]
  exact obeys answer

/-- What has nothing to do with the cell leaves a caller where it is. -/
theorem obeys_lift (program : Prog T α) (slot : Slot) :
    (CellProg.lift program).Obeys (automaton (T := T)) (fun _ after => after = slot) slot := by
  induction program with
  | ret value => rfl
  | call request rest inductionHypothesis =>
    exact obeys_other inductionHypothesis

/-- Whoever gets a connection is outside the lock again. -/
theorem obeys_getOrConnect (prepare : Nat → Prog T (Option Unit)) :
    (getOrConnect prepare).Obeys automaton (fun _ slot => slot = outside) outside := by
  refine ⟨.inl rfl, fun found _ => ?_⟩
  cases found with
  | some connection => rfl
  | none =>
    refine ⟨.inr (.inl rfl), fun taken _ => ?_⟩
    cases taken with
    | false => rfl
    | true =>
      refine ⟨.inl rfl, fun found _ => ?_⟩
      cases found with
      | some connection => exact ⟨rfl, fun _ _ => rfl⟩
      | none =>
        refine ⟨.inl rfl, fun connected _ => ?_⟩
        match connected with
        | none => exact ⟨rfl, fun _ _ => rfl⟩
        | some (.error error) => exact ⟨rfl, fun _ _ => rfl⟩
        | some (.ok connection) =>
          apply (obeys_lift (prepare connection) (fresh connection)).bind
          rintro prepared _ rfl
          cases prepared with
          | none => exact ⟨.inr rfl, fun _ _ => rfl⟩
          | some _ => exact ⟨.inl rfl, fun _ _ => ⟨rfl, fun _ _ => rfl⟩⟩

end Slot

/-! ## The callers of one cell -/

namespace Cell

variable {cell after : Cell ι} {mine : ι → Prop} {slots : ι → Slot} {thread : ι}

/-- What holds of a cell and the slots of the callers that are `mine`. -/
structure Sound (cell : Cell ι) (mine : ι → Prop) (slots : ι → Slot) : Prop where
  own : ∀ thread, cell.holder = some thread → mine thread
  held : ∀ thread, mine thread → ((slots thread).inside = true ↔ cell.holder = some thread)
  vacant : ∀ thread, mine thread → (slots thread).relies = true → cell.content = none
  unsaved : ∀ connection, cell.unsaved = some connection ↔ ∃ thread, mine thread ∧ slots thread = .fresh connection
  newest : ∀ connection, cell.content = some connection ∨ cell.unsaved = some connection →
    connection + 1 = cell.made
  balance : cell.made = cell.evicted + cell.dropped + cell.content.toList.length + cell.unsaved.toList.length

theorem sound_new (mine : ι → Prop) : Sound ({} : Cell ι) mine fun _ => .outside where
  own := by simp
  held := by simp [Slot.inside]
  vacant := by simp [Slot.relies]
  unsaved := by simp
  newest := by simp
  balance := rfl

namespace Sound

/-- Only the slots of the callers that are `mine` matter. -/
theorem congr (sound : Sound cell mine slots) {others : ι → Slot}
    (same : ∀ thread, mine thread → others thread = slots thread) : Sound cell mine others where
  own := sound.own
  held := fun thread isMine => by rw [same thread isMine]; exact sound.held thread isMine
  vacant := fun thread isMine => by rw [same thread isMine]; exact sound.vacant thread isMine
  unsaved := fun connection => by
    rw [sound.unsaved]
    constructor
    · rintro ⟨thread, isMine, fresh⟩
      exact ⟨thread, isMine, (same thread isMine).trans fresh⟩
    · rintro ⟨thread, isMine, fresh⟩
      exact ⟨thread, isMine, (same thread isMine).symm.trans fresh⟩
  newest := sound.newest
  balance := sound.balance

/-- Who is inside the lock is the only one. -/
theorem single (sound : Sound cell mine slots) {first second : ι} (isFirst : mine first) (isSecond : mine second)
    (firstInside : (slots first).inside = true) (secondInside : (slots second).inside = true) :
    first = second := by
  have firstHolds := (sound.held first isFirst).mp firstInside
  have secondHolds := (sound.held second isSecond).mp secondInside
  exact Option.some.inj (firstHolds.symm.trans secondHolds)

/-- Nothing is unsaved unless the holder of the lock has made it. -/
theorem unsaved_eq_none (sound : Sound cell mine slots) {thread : ι} (isMine : mine thread)
    (inside : (slots thread).inside = true) (notFresh : ∀ connection, slots thread ≠ .fresh connection) :
    cell.unsaved = none := by
  cases unsaved : cell.unsaved with
  | none => rfl
  | some connection =>
    obtain ⟨other, otherMine, fresh⟩ := (sound.unsaved connection).mp unsaved
    obtain rfl := sound.single otherMine isMine (by rw [fresh]; rfl) inside
    exact absurd fresh (notFresh connection)

theorem unsaved_of_outside (sound : Sound cell mine slots) (unlocked : cell.holder = none) :
    cell.unsaved = none := by
  cases unsaved : cell.unsaved with
  | none => rfl
  | some connection =>
    obtain ⟨other, otherMine, fresh⟩ := (sound.unsaved connection).mp unsaved
    have holds := (sound.held other otherMine).mp (by rw [fresh]; rfl)
    rw [unlocked] at holds
    cases holds

/-- Nobody else relies on anything while the lock is held. -/
theorem not_relies (sound : Sound cell mine slots) (isMine : mine thread) (inside : (slots thread).inside = true)
    {other : ι} (otherMine : mine other) (different : other ≠ thread) : (slots other).relies = false := by
  cases relies : (slots other).relies with
  | false => rfl
  | true =>
    have otherInside : (slots other).inside = true := by
      cases slot : slots other <;> simp_all [Slot.inside, Slot.relies]
    exact absurd (sound.single otherMine isMine otherInside inside) different

theorem swap (sound : Sound cell mine slots) :
    Sound { cell with content := none, evicted := cell.evicted + cell.content.toList.length } mine slots where
  own := sound.own
  held := sound.held
  vacant := fun _ _ _ => rfl
  unsaved := sound.unsaved
  newest := fun connection is => sound.newest connection (is.imp (by simp) id)
  balance := by
    have balance := sound.balance
    simp only [Option.toList_none, List.length_nil]
    omega

variable [DecidableEq ι]

/-- The caller moves on, and the cell is as before. -/
theorem stay (sound : Sound cell mine slots) {slot : Slot} (inside : slot.inside = (slots thread).inside)
    (relies : slot.relies = true → cell.content = none) (was : ∀ connection, slots thread ≠ .fresh connection)
    (is : ∀ connection, slot ≠ .fresh connection) : Sound cell mine (Function.update slots thread slot) where
  own := sound.own
  held := fun other isMine => by
    by_cases same : other = thread
    · subst same
      simpa [inside] using sound.held other isMine
    · simpa [same] using sound.held other isMine
  vacant := fun other isMine => by
    by_cases same : other = thread
    · subst same
      simpa using relies
    · simpa [same] using sound.vacant other isMine
  unsaved := fun connection => by
    rw [sound.unsaved]
    refine exists_congr fun other => and_congr_right fun _ => ?_
    by_cases same : other = thread
    · subst same
      simp [was connection, is connection]
    · simp [same]
  newest := sound.newest
  balance := sound.balance

theorem lock (sound : Sound cell mine slots) (isMine : mine thread) (free : cell.holder = none)
    (outside : slots thread = .outside) :
    Sound { cell with holder := some thread } mine (Function.update slots thread .locked) where
  own := fun other held => by
    obtain rfl := Option.some.inj held
    exact isMine
  held := fun other otherMine => by
    by_cases same : other = thread
    · subst same
      simp [Slot.inside]
    · -- nobody else was inside, as the lock was free
      have notInside := (sound.held other otherMine).not.mpr (by simp [free])
      simpa [same, Ne.symm same] using notInside
  vacant := fun other otherMine => by
    by_cases same : other = thread
    · subst same
      simp [Slot.relies]
    · simpa [same] using sound.vacant other otherMine
  unsaved := fun connection => by
    rw [show ({ cell with holder := some thread } : Cell ι).unsaved = cell.unsaved from rfl, sound.unsaved]
    refine exists_congr fun other => and_congr_right fun _ => ?_
    by_cases same : other = thread
    · subst same
      simp [outside]
    · simp [same]
  newest := sound.newest
  balance := sound.balance

/-- What is unsaved is dropped with the lock. -/
theorem unlock (sound : Sound cell mine slots) (isMine : mine thread) (inside : (slots thread).inside = true) :
    Sound { cell with
      holder := none, unsaved := none, dropped := cell.dropped + cell.unsaved.toList.length } mine
      (Function.update slots thread .outside) where
  own := fun other held => by cases held
  held := fun other otherMine => by
    by_cases same : other = thread
    · subst same
      simp [Slot.inside]
    · have notInside : ¬ (slots other).inside = true := fun otherInside =>
        same (sound.single otherMine isMine otherInside inside)
      simpa [same] using notInside
  vacant := fun other otherMine => by
    by_cases same : other = thread
    · subst same
      simp [Slot.relies]
    · simpa [same] using sound.vacant other otherMine
  unsaved := fun connection => by
    constructor
    · intro unsaved
      cases unsaved
    · rintro ⟨other, otherMine, fresh⟩
      by_cases same : other = thread
      · subst same
        simp at fresh
      · simp only [Function.update_of_ne same] at fresh
        exact absurd (sound.single otherMine isMine (by rw [fresh]; rfl) inside) same
  newest := fun connection is => sound.newest connection (is.imp id (by simp))
  balance := by
    have balance := sound.balance
    simp only [Option.toList_none, List.length_nil]
    omega

theorem connect (sound : Sound cell mine slots) (isMine : mine thread) (vacant : slots thread = .vacant) :
    Sound { cell with made := cell.made + 1, unsaved := some cell.made } mine
      (Function.update slots thread (.fresh cell.made)) where
  own := sound.own
  held := fun other otherMine => by
    by_cases same : other = thread
    · subst same
      have held := sound.held other isMine
      rw [vacant] at held
      simpa [Slot.inside] using held
    · simpa [same] using sound.held other otherMine
  vacant := fun other otherMine => by
    by_cases same : other = thread
    · subst same
      have empty := sound.vacant other isMine (by rw [vacant]; rfl)
      simp [empty]
    · simpa [same] using sound.vacant other otherMine
  unsaved := fun connection => by
    constructor
    · intro unsaved
      obtain rfl := Option.some.inj unsaved
      exact ⟨thread, isMine, by simp⟩
    · rintro ⟨other, otherMine, fresh⟩
      by_cases same : other = thread
      · subst same
        simpa [eq_comm] using fresh
      · -- the lock is held, so nobody else has made a connection
        have quiet := sound.not_relies isMine (by rw [vacant]; rfl) otherMine same
        simp only [Function.update_of_ne same] at fresh
        rw [fresh] at quiet
        cases quiet
  newest := fun connection is => by
    have empty := sound.vacant thread isMine (by rw [vacant]; rfl)
    simpa [empty, eq_comm] using is
  balance := by
    have balance := sound.balance
    have none := sound.unsaved_eq_none isMine (by rw [vacant]; rfl) (by simp [vacant])
    rw [none] at balance
    simp only [Option.toList_none, List.length_nil, Option.toList_some, List.length_singleton] at balance ⊢
    omega

/-- The connection stored replaces none, as the cell is still empty. -/
theorem store (sound : Sound cell mine slots) (isMine : mine thread) {connection : Nat}
    (fresh : slots thread = .fresh connection) :
    Sound { cell with content := some connection, unsaved := none } mine
      (Function.update slots thread .settled) where
  own := sound.own
  held := fun other otherMine => by
    by_cases same : other = thread
    · subst same
      have held := sound.held other isMine
      rw [fresh] at held
      simpa [Slot.inside] using held
    · simpa [same] using sound.held other otherMine
  vacant := fun other otherMine relies => by
    by_cases same : other = thread
    · subst same
      simp [Slot.relies] at relies
    · have quiet := sound.not_relies isMine (by rw [fresh]; rfl) otherMine same
      rw [Function.update_of_ne same, quiet] at relies
      cases relies
  unsaved := fun number => by
    constructor
    · intro unsaved
      cases unsaved
    · rintro ⟨other, otherMine, isFresh⟩
      by_cases same : other = thread
      · subst same
        simp at isFresh
      · have quiet := sound.not_relies isMine (by rw [fresh]; rfl) otherMine same
        simp only [Function.update_of_ne same] at isFresh
        rw [isFresh] at quiet
        cases quiet
  newest := fun number is => by
    have unsaved := (sound.unsaved connection).mpr ⟨thread, isMine, fresh⟩
    have newest := sound.newest connection (.inr unsaved)
    have same : connection = number := by simpa using is
    exact same ▸ newest
  balance := by
    have unsaved := (sound.unsaved connection).mpr ⟨thread, isMine, fresh⟩
    have empty := sound.vacant thread isMine (by rw [fresh]; rfl)
    have balance := sound.balance
    rw [unsaved, empty] at balance
    simp only [Option.toList_none, List.length_nil, Option.toList_some, List.length_singleton] at balance ⊢
    omega

/-- Every call that a caller may make keeps the cell sound. -/
theorem access (sound : Sound cell mine slots) (isMine : mine thread) {op : CellOp} {answer : op.Answer}
    (allowed : (slots thread).allowed (.cell op : CellCall T)) (effect : cell.meaning thread op answer after) :
    Sound after mine (Function.update slots thread ((slots thread).next (T := T) ⟨.cell op, answer⟩)) := by
  cases slot : slots thread with
  | outside =>
    rw [slot] at allowed
    rcases allowed with rfl | rfl | rfl
    · obtain ⟨_, rfl⟩ := effect
      exact sound.stay (by rw [slot]; rfl) (by simp [Slot.next, Slot.relies]) (by simp [slot]) (by simp [Slot.next])
    · rcases effect with ⟨rfl, free, rfl⟩ | ⟨rfl, rfl⟩
      · exact sound.lock isMine free slot
      · exact sound.stay (by rw [slot]; rfl) (by simp [Slot.next, Slot.relies]) (by simp [slot]) (by simp [Slot.next])
    · obtain ⟨_, rfl⟩ := effect
      exact sound.swap.stay (by rw [slot]; rfl) (by simp [Slot.next, Slot.relies]) (by simp [slot])
        (by simp [Slot.next])
  | locked =>
    rw [slot] at allowed
    rcases allowed with rfl | rfl
    · obtain ⟨rfl, rfl⟩ := effect
      -- the second look at the cell decides whether to connect
      cases content : after.content with
      | none =>
        exact sound.stay (by rw [slot]; rfl) (fun _ => content) (by simp [slot]) (by simp [Slot.next])
      | some connection =>
        exact sound.stay (by rw [slot]; rfl) (by simp [Slot.next, Slot.relies]) (by simp [slot]) (by simp [Slot.next])
    · cases effect
      exact sound.unlock isMine (by rw [slot]; rfl)
  | vacant =>
    rw [slot] at allowed
    rcases allowed with rfl | rfl
    · rcases effect with ⟨rfl, rfl⟩ | ⟨rfl | ⟨error, rfl⟩, rfl⟩
      · exact sound.connect isMine slot
      · exact sound.stay (by rw [slot]; rfl) (by simp [Slot.next, Slot.relies]) (by simp [slot]) (by simp [Slot.next])
      · exact sound.stay (by rw [slot]; rfl) (by simp [Slot.next, Slot.relies]) (by simp [slot]) (by simp [Slot.next])
    · cases effect
      exact sound.unlock isMine (by rw [slot]; rfl)
  | fresh connection =>
    rw [slot] at allowed
    rcases allowed with rfl | rfl
    · cases effect
      exact sound.store isMine slot
    · cases effect
      exact sound.unlock isMine (by rw [slot]; rfl)
  | settled =>
    rw [slot] at allowed
    obtain rfl := allowed
    cases effect
    exact sound.unlock isMine (by rw [slot]; rfl)

end Sound

end Cell

/-! ## Many callers -/

/-- Callers at any number of places, each place with a cell of its own. -/
structure Flight (T : Signature) (ι κ ε σ α : Type) where
  place : ι → κ
  program : ι → CellProg T α
  outer : ι → Semantics T σ
  environment : ε → σ → σ → Prop

namespace Flight

variable [DecidableEq κ] (flight : Flight T ι κ ε σ α)

def meaning (thread : ι) : Semantics (cellSignature T) ((κ → Cell ι) × σ)
  | .cell op, before, answer, after => ∃ cell, (before.1 (flight.place thread)).meaning thread op answer cell ∧
      after = (Function.update before.1 (flight.place thread) cell, before.2)
  | .other call, before, answer, after => ∃ state, flight.outer thread call before.2 answer state ∧
      after = (before.1, state)

def system : System (cellSignature T) ι ε ((κ → Cell ι) × σ) α where
  program := flight.program
  meaning := flight.meaning
  environment event before after := flight.environment event before.2 after.2 ∧ after.1 = before.1

/-- Every caller keeps to the protocol, and is outside the lock when it returns. -/
def Orderly : Prop :=
  ∀ thread, (flight.program thread).Obeys Slot.automaton (fun _ slot => slot = .outside) .outside

/-- Schedules of callers to whom `answer` replies outside the cell; a choice says whether who connects succeeds. -/
def scheduler (answer : (call : T.Call) → σ → T.Answer call × σ)
    (answers : ∀ thread call state, flight.outer thread call state (answer call state).1 (answer call state).2) :
    Scheduler flight.system Bool where
  answer connects thread
    | .cell op, shared => ((shared.1 (flight.place thread)).reply thread connects op).map fun (result, cell) =>
      (result, Function.update shared.1 (flight.place thread) cell, shared.2)
    | .other call, shared => some ((answer call shared.2).1, shared.1, (answer call shared.2).2)
  event _ _ := none
  answer_sound := by
    intro connects thread call before result replies
    cases call with
    | cell op =>
      obtain ⟨given, same, rfl⟩ := Option.map_eq_some_iff.mp replies
      exact ⟨given.2, Cell.meaning_of_reply same, rfl⟩
    | other call =>
      cases replies
      exact ⟨_, answers thread call before.2, rfl⟩
  event_sound := by simp

/-- Nothing has been connected yet. -/
def initial (outside : σ) : (κ → Cell ι) × σ := (fun _ => {}, outside)

abbrev Configuration (T : Signature) (ι κ ε σ α : Type) := Config (cellSignature T) ι ε ((κ → Cell ι) × σ) α

variable {flight} {config : Configuration T ι κ ε σ α} {outside : σ}

theorem follows (orderly : flight.Orderly) :
    flight.system.Follows Slot.automaton (fun _ _ slot => slot = .outside) fun _ => .outside where
  obeys := orderly
  answers := fun _ => trivial

/-! ## A caller alone -/

/-- The calls of a caller while all others stand still; a connection is not made. -/
def alone (flight : Flight T ι κ ε σ α) (reply : (call : T.Call) → σ → T.Answer call × σ) (thread : ι) :
    (call : CellCall T) → (κ → Cell ι) × σ → call.Answer × (κ → Cell ι) × σ
  | .other call, shared => ((reply call shared.2).1, shared.1, (reply call shared.2).2)
  | .cell op, shared =>
    let cell := shared.1 (flight.place thread)
    let leave (cell : Cell ι) := (Function.update shared.1 (flight.place thread) cell, shared.2)
    match op with
    | .load => (cell.content, leave cell)
    | .lock => (true, leave { cell with holder := some thread })
    | .unlock => ((), leave { cell with
        holder := none, unsaved := none, dropped := cell.dropped + cell.unsaved.toList.length })
    | .connect => (none, leave cell)
    | .store connection => ((), leave { cell with content := some connection, unsaved := none })
    | .swap => (cell.content, leave { cell with
        content := none, evicted := cell.evicted + cell.content.toList.length })

/-- The lock is with the caller, or free. -/
def Holds (flight : Flight T ι κ ε σ α) (thread : ι) (slot : Slot) (shared : (κ → Cell ι) × σ) : Prop :=
  (shared.1 (flight.place thread)).holder = if slot.inside then some thread else none

variable {reply : (call : T.Call) → σ → T.Answer call × σ} {thread : ι}

theorem alone_enabled (replies : ∀ call state, flight.outer thread call state (reply call state).1 (reply call state).2)
    {slot : Slot} {call : CellCall T} {shared : (κ → Cell ι) × σ} (holds : flight.Holds thread slot shared)
    (allowed : slot.allowed call) :
    flight.system.meaning thread call shared (flight.alone reply thread call shared).1
      (flight.alone reply thread call shared).2 := by
  cases call with
  | other call => exact ⟨_, replies call shared.2, rfl⟩
  | cell op =>
    cases op with
    | load => exact ⟨_, ⟨rfl, rfl⟩, rfl⟩
    | lock =>
      -- only who is outside takes the lock, and then it is free
      have outside : slot = .outside := by cases slot <;> simp_all [Slot.allowed]
      subst outside
      exact ⟨_, .inl ⟨rfl, holds, rfl⟩, rfl⟩
    | unlock => exact ⟨_, rfl, rfl⟩
    | connect => exact ⟨_, .inr ⟨.inl rfl, rfl⟩, rfl⟩
    | store _ => exact ⟨_, rfl, rfl⟩
    | swap => exact ⟨_, ⟨rfl, rfl⟩, rfl⟩

theorem alone_holds {slot : Slot} {call : CellCall T} {shared : (κ → Cell ι) × σ}
    (holds : flight.Holds thread slot shared) (allowed : slot.allowed call) :
    flight.Holds thread (slot.next ⟨call, (flight.alone reply thread call shared).1⟩)
      (flight.alone reply thread call shared).2 := by
  cases call with
  | other call =>
    rw [Slot.next_other]
    exact holds
  | cell op =>
    unfold Holds at holds ⊢
    cases slot <;> cases op <;> simp_all [Slot.allowed, alone, Slot.next, Slot.inside]
    -- what is left is the second look, which may go either way
    cases (shared.1 (flight.place thread)).content with
    | none => rfl
    | some connection => rfl

/-! ## The invariant -/

variable [DecidableEq ι]

theorem phaseInvariant : PhaseInvariant flight.system Slot.automaton (fun _ => True) fun shared slots =>
    ∀ place, (shared.1 place).Sound (fun thread => flight.place thread = place) slots where
  perform := by
    intro thread call before answer after slots _ sound allowed effect place
    cases call with
    | cell op =>
      obtain ⟨cell, effect, rfl⟩ := effect
      by_cases here : flight.place thread = place
      · subst here
        simp only [Function.update_self]
        exact (sound _).access rfl allowed effect
      · -- a caller at another place is none of the callers of this cell
        simp only [Function.update_of_ne (Ne.symm here)]
        refine (sound place).congr fun other isMine => ?_
        rw [Function.update_of_ne]
        rintro rfl
        exact here isMine
    | other call =>
      obtain ⟨state, _, rfl⟩ := effect
      rw [show Slot.automaton.next (slots thread) ⟨.other call, answer⟩ = slots thread from
        Slot.next_other _ call answer, Function.update_eq_self]
      exact sound place
  environment := by
    intro event before after slots _ sound effect place
    rw [effect.2]
    exact sound place

omit [DecidableEq ι] in
/-- Connections are only ever added. -/
theorem made_le {thread : ι} {call : CellCall T} {before after : (κ → Cell ι) × σ} {answer : call.Answer}
    (effect : flight.meaning thread call before answer after) (place : κ) :
    (before.1 place).made ≤ (after.1 place).made := by
  cases call with
  | other call =>
    obtain ⟨state, _, rfl⟩ := effect
    exact Nat.le_refl _
  | cell op =>
    obtain ⟨cell, effect, rfl⟩ := effect
    by_cases here : place = flight.place thread
    · subst here
      simp only [Function.update_self]
      cases op with
      | load | swap =>
        obtain ⟨_, rfl⟩ := effect
        exact Nat.le_refl _
      | lock =>
        rcases effect with ⟨_, _, rfl⟩ | ⟨_, rfl⟩ <;> exact Nat.le_refl _
      | unlock | store _ =>
        cases effect
        exact Nat.le_refl _
      | connect =>
        rcases effect with ⟨_, rfl⟩ | ⟨_, rfl⟩
        · exact Nat.le_succ _
        · exact Nat.le_refl _
    · simp [here]

/-- The rule: the cells of orderly callers are sound in every configuration. -/
theorem sound (orderly : flight.Orderly) (reaches : flight.system.Reaches (initial outside) config) (place : κ) :
    (config.moment.shared.1 place).Sound (fun thread => flight.place thread = place)
      (Slot.automaton.phases (fun _ => .outside) config.moment.history) :=
  reaches.phaseInvariant (follows orderly) phaseInvariant (fun _ => trivial) (fun _ => Cell.sound_new _) place

/-- What a running caller may do next. -/
theorem allowed_of_running (orderly : flight.Orderly) (reaches : flight.system.Reaches (initial outside) config)
    {thread : ι} {call : CellCall T} {next : CellCall.Answer call → CellProg T α}
    (running : config.threads thread = .running (.call call next)) :
    (Slot.automaton.phases (fun _ => .outside) config.moment.history thread).allowed call :=
  (reaches.obeys (orderly thread) (fun _ => trivial) running).1

/-- A caller that is not running is outside. -/
theorem outside_of_not_running (orderly : flight.Orderly)
    (reaches : flight.system.Reaches (initial outside) config) {thread : ι}
    (still : ∀ program, config.threads thread ≠ .running program) :
    Slot.automaton.phases (fun _ => .outside) config.moment.history thread = .outside := by
  cases state : config.threads thread with
  | idle => exact Automaton.phaseOf_fresh _ _ (reaches.fresh_of_idle state)
  | running program => exact absurd state (still program)
  | finished value => exact reaches.obeyed (orderly thread) (fun _ => trivial) state

/-- Callers of one place that are about to connect are one, and they find the cell empty. -/
theorem connecting (orderly : flight.Orderly) (reaches : flight.system.Reaches (initial outside) config)
    {first second : ι} {firstNext secondNext : Option (Except String Nat) → CellProg T α}
    (isFirst : config.threads first = .running (.call (.cell .connect) firstNext))
    (isSecond : config.threads second = .running (.call (.cell .connect) secondNext))
    (same : flight.place first = flight.place second) :
    first = second ∧ (config.moment.shared.1 (flight.place first)).content = none := by
  have sound := sound orderly reaches (flight.place first)
  have vacant : ∀ {thread next}, config.threads thread = .running (.call (.cell .connect) next) →
      Slot.automaton.phases (fun _ => .outside) config.moment.history thread = .vacant := fun running => by
    have allowed := allowed_of_running orderly reaches running
    cases slot : Slot.automaton.phases (fun _ => .outside) config.moment.history _ <;> simp_all [Slot.allowed]
  have firstVacant := vacant isFirst
  exact ⟨sound.single rfl same.symm (by rw [firstVacant]; rfl) (by rw [vacant isSecond]; rfl),
    sound.vacant first rfl (by rw [firstVacant]; rfl)⟩

/-- Where no caller is running, the lock is free and every connection made is in the cell, evicted or
    dropped. -/
theorem at_rest (orderly : flight.Orderly) (reaches : flight.system.Reaches (initial outside) config) {place : κ}
    (rest : ∀ thread program, flight.place thread = place → config.threads thread ≠ .running program) :
    let cell := config.moment.shared.1 place
    cell.holder = none ∧ cell.unsaved = none ∧
      cell.made = cell.evicted + cell.dropped + cell.content.toList.length := by
  intro cell
  have sound := sound orderly reaches place
  have unlocked : cell.holder = none := by
    cases holder : cell.holder with
    | none => rfl
    | some thread =>
      have here := sound.own thread holder
      have inside := (sound.held thread here).mpr holder
      rw [outside_of_not_running orderly reaches fun program => rest thread program here] at inside
      cases inside
  have unsaved : cell.unsaved = none := sound.unsaved_of_outside unlocked
  have balance := sound.balance
  rw [show (config.moment.shared.1 place).unsaved = none from unsaved] at balance
  exact ⟨unlocked, unsaved, by simpa using balance⟩

/-! ## Nobody is stuck -/

/-- A caller that has the lock, or finds it free, can be run to its end. -/
theorem leads_alone (orderly : flight.Orderly)
    (replies : ∀ call state, flight.outer thread call state (reply call state).1 (reply call state).2)
    (reaches : flight.system.Reaches (initial outside) config) {program : CellProg T α}
    (running : config.threads thread = .running program)
    (holds : flight.Holds thread (Slot.automaton.phases (fun _ => .outside) config.moment.history thread)
      config.moment.shared) :
    ∃ later value, flight.system.Leads config later ∧
      later.threads = Function.update config.threads thread (.finished value) ∧
      (later.moment.shared.1 (flight.place thread)).holder = none := by
  obtain ⟨later, slot, leads, threads, _, outside, holds⟩ :=
    System.leads_alone flight.system (flight.alone reply thread) (flight.Holds thread)
      (fun _ _ _ holds allowed => alone_enabled replies holds allowed)
      (fun _ _ _ holds allowed => ⟨trivial, alone_holds holds allowed⟩)
      (reaches.obeys (orderly thread) (fun _ => trivial) running) holds running
  subst outside
  exact ⟨later, _, leads, threads, holds⟩

theorem holds_of_only (orderly : flight.Orderly) (reaches : flight.system.Reaches (initial outside) config)
    (only : ∀ other, (config.moment.shared.1 (flight.place thread)).holder = some other → other = thread) :
    flight.Holds thread (Slot.automaton.phases (fun _ => .outside) config.moment.history thread)
      config.moment.shared := by
  have sound := sound orderly reaches (flight.place thread)
  unfold Holds
  split
  · rename_i inside
    exact (sound.held thread rfl).mp inside
  · rename_i notInside
    cases holder : (config.moment.shared.1 (flight.place thread)).holder with
    | none => rfl
    | some other =>
      obtain rfl := only other holder
      exact absurd ((sound.held other rfl).mpr holder) notInside

/-- Whoever has the lock can be run until it is free. -/
theorem leads_free (orderly : flight.Orderly)
    (replies : ∀ thread call state, flight.outer thread call state (reply call state).1 (reply call state).2)
    (reaches : flight.system.Reaches (initial outside) config) {other : ι} {place : κ}
    (holder : (config.moment.shared.1 place).holder = some other) :
    ∃ later value, flight.system.Leads config later ∧
      later.threads = Function.update config.threads other (.finished value) ∧
      (later.moment.shared.1 place).holder = none := by
  have here := (sound orderly reaches place).own other holder
  have inside := ((sound orderly reaches place).held other here).mpr holder
  subst here
  obtain ⟨program, running⟩ : ∃ program, config.threads other = .running program := by
    by_contra still
    have isOutside : Slot.automaton.phases (fun _ => .outside) config.moment.history other = .outside :=
      outside_of_not_running orderly reaches fun program running => still ⟨program, running⟩
    rw [isOutside] at inside
    cases inside
  have holds : flight.Holds other (Slot.automaton.phases (fun _ => .outside) config.moment.history other)
      config.moment.shared := by
    unfold Holds
    rw [if_pos inside]
    exact holder
  exact leads_alone orderly (replies other) reaches running holds

/-- No caller waits for ever: who has the lock can be run to its end, and then the caller can. -/
theorem can_finish (orderly : flight.Orderly)
    (replies : ∀ thread call state, flight.outer thread call state (reply call state).1 (reply call state).2)
    (reaches : flight.system.Reaches (initial outside) config) {program : CellProg T α}
    (running : config.threads thread = .running program) :
    ∃ later value, flight.system.Leads config later ∧ later.threads thread = .finished value := by
  by_cases only : ∀ other, (config.moment.shared.1 (flight.place thread)).holder = some other → other = thread
  · obtain ⟨later, value, leads, threads, _⟩ :=
      leads_alone orderly (replies thread) reaches running (holds_of_only orderly reaches only)
    exact ⟨later, value, leads, by simp [threads]⟩
  · obtain ⟨other, holder, different⟩ : ∃ other,
        (config.moment.shared.1 (flight.place thread)).holder = some other ∧ other ≠ thread := by
      simpa using only
    -- first the one that has the lock, then the caller
    obtain ⟨middle, _, leads, threads, free⟩ := leads_free orderly replies reaches holder
    have still : middle.threads thread = .running program := by
      rw [threads, Function.update_of_ne (Ne.symm different)]
      exact running
    have nobody : ∀ other, (middle.moment.shared.1 (flight.place thread)).holder = some other → other = thread := by
      simp [free]
    obtain ⟨later, value, leads', threads', _⟩ := leads_alone orderly (replies thread) (leads.reaches reaches) still
      (holds_of_only orderly (leads.reaches reaches) nobody)
    exact ⟨later, value, leads.trans leads', by simp [threads']⟩

end Flight

end Interaction
